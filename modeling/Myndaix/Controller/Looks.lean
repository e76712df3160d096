import Myndaix.Controller.Process
import Myndaix.Interaction.Steady

/-! The stages of one look at a ref: between two looks, with the cursor read, with its delivery or
the head of the ref found, and with a choice made. What each stage needs from the calls is enough
for the look as a whole.
-/

namespace Controller

open Interaction Interaction.Program

/-- The calls that only keep counts, alert a human, or prepare others. -/
def Neutral : Query → Prop
  | .readStreak _ | .writeStreak _ _ | .unlinkStreak _ | .utcDay | .readDay _ | .writeDay _ _
  | .remoteUrl | .fetch | .indexSkills | .pin _ _ | .catFile _ => True
  | .alertJefe (.rangeTooLarge _ _ _ _) => False
  | .alertJefe _ => True
  | _ => False

/-- A program asks only such queries. -/
abbrev Asks {Result : Type} (permits : Query → Prop) (program : Run Result) : Prop :=
  program.Ensures (anywhere permits) (fun _ _ => True) ()

theorem chargeDay_asks : Asks Neutral chargeDay :=
  .asks trivial fun _ => .asks trivial fun _ => .asks trivial fun _ => .asks trivial fun _ =>
    .returns trivial

theorem tryForgiveTransient_asks {config : Config} {permits : Query → Prop} {target : Sha}
    (neutral : ∀ {query}, Neutral query → permits query) (reads : permits (.readTransient target))
    (unlinks : permits (.unlinkTransient target)) (forgives : permits (.forgiveTransient target))
    : Asks permits (tryForgiveTransient config target) := by
  refine .asks reads fun marker => ?_
  split
  · exact .returns trivial
  · refine .asks unlinks fun unlinked => ?_
    split
    · refine .asks forgives fun forgiven => ?_
      split
      · refine .asks (neutral trivial) fun _ => .asks (neutral trivial) fun _ => ?_
        dsimp only [pure_bind]
        split
        · exact .asks (neutral trivial) fun _ => .returns trivial
        · exact .returns trivial
      · exact .returns trivial
    · exact .returns trivial

theorem dispatchStep_asks {config : Config} {permits : Query → Prop} {base target : Sha}
    {budget : Nat} (neutral : ∀ {query}, Neutral query → permits query) (times : permits .now)
    (trusts : permits .trustedScript) (claims : ∀ time, permits (.claimDispatch target time))
    (releases : permits (.releaseDispatch target)) (plays : permits (.playReview base target))
    (records : permits (.recordDispatch base target))
    : Asks permits (dispatchStep config base target budget) := by
  have released : Asks permits (do
      let _ ← ask (.releaseDispatch target)
      pure budget) :=
    .asks releases fun _ => .returns trivial
  have triggers : Asks permits (triggerReview config base target) := by
    unfold triggerReview
    split
    · exact .asks records fun _ => .returns trivial
    · split
      · exact .returns trivial
      · refine .asks trusts fun trusted => ?_
        split
        · refine .asks plays fun rc => ?_
          match rc with
          | none => exact .returns trivial
          | some rc => exact .returns trivial
        · exact .returns trivial
  have charges : Asks permits chargeDay :=
    .asks (neutral trivial) fun _ => .asks (neutral trivial)
      fun _ => .asks (neutral trivial) fun _ =>
      .asks (neutral trivial) fun _ => .returns trivial
  refine .asks times fun now => .asks (claims _) fun won => ?_
  split
  · refine .asks (neutral trivial) fun pinned => ?_
    split
    · refine Ensures.bind triggers fun started _ _ => ?_
      split
      · exact Ensures.bind charges fun _ _ _ => .returns trivial
      · exact released
    · exact released
  · exact .returns trivial

/-- Assertions for the stages of a look. -/
structure Stages (State : Type) where
  between : State → Prop
  known : Option Cursor → State → Prop
  delivered : Cursor → Sha → State → Prop
  observed : Option Cursor → Sha → State → Prop
  chosen : Cursor → Sha → Choice → State → Prop
  passable : Cursor → Sha → State → Prop

variable {State : Type} {setting : Setting Query Answer State} {config : Config}

/-- What the calls have to keep for the stages to follow one another. -/
structure Stages.Kept (stages : Stages State) (setting : Setting Query Answer State)
    (config : Config)
    : Prop where
  betweenLasts : Steady setting Neutral stages.between
  knownLasts : ∀ {cursor}, Steady setting Neutral (stages.known cursor)
  deliveredLasts : ∀ {cursor pending}, Steady setting Neutral (stages.delivered cursor pending)
  observedLasts : ∀ {cursor head}, Steady setting Neutral (stages.observed cursor head)
  chosenLasts : ∀ {cursor head choice}, Steady setting Neutral (stages.chosen cursor head choice)
  passableLasts : ∀ {cursor target}, Steady setting Neutral (stages.passable cursor target)
  knownEnds : ∀ {cursor state}, stages.known cursor state → stages.between state
  deliveredKnown
    : ∀ {cursor pending state},
        stages.delivered cursor pending state → stages.known (some cursor) state
  observedEnds : ∀ {cursor head state}, stages.observed cursor head state → stages.between state
  chosenEnds : ∀ {cursor head choice state}, stages.chosen cursor head choice state
    → stages.between state
  passableEnds : ∀ {cursor target state}, stages.passable cursor target state → stages.between state
  reads
    : ∀ {state},
        stages.between state
        → setting.permits state .getCursor
          ∧ ∀ {cursor after}, setting.answers .getCursor state cursor after
            → stages.known cursor after
  finds
    : ∀ {cursor pending state},
        stages.known (some cursor) state
        → cursor.pendingSha = some pending
        → setting.permits state (.doneExists pending)
          ∧ ∀ {found after},
              setting.answers (.doneExists pending) state found after
              → if found then stages.delivered cursor pending after
                else stages.known (some cursor) after
  advances
    : ∀ {cursor pending state},
        stages.delivered cursor pending state
        → setting.permits state (.advanceCursor pending)
          ∧ ∀ {won after}, setting.answers (.advanceCursor pending) state won after
            → stages.between after
  forgives
    : ∀ {cursor pending state},
        stages.known (some cursor) state
        → cursor.pendingSha = some pending
        → (tryForgiveTransient config pending).Ensures setting
            (fun forgiven later =>
              if forgiven then stages.between later else stages.known (some cursor) later)
            state
  observes
    : ∀ {cursor state},
        stages.known cursor state
        → setting.permits state .revParse
          ∧ ∀ {head after},
              setting.answers .revParse state head after
              → stages.between after ∧ ∀ sha, head = some sha → stages.observed cursor sha after
  seeds
    : ∀ {head state},
        stages.observed none head state
        → setting.permits state (.upsertBaseline head)
          ∧ ∀ {won after}, setting.answers (.upsertBaseline head) state won after
            → stages.between after
  compares
    : ∀ {cursor head state},
        stages.observed (some cursor) head state
        → head ≠ cursor.reviewedSha
        → setting.permits state (.diffQuiet cursor.reviewedSha head)
          ∧ ∀ {quiet after},
              setting.answers (.diffQuiet cursor.reviewedSha head) state quiet after
              → if quiet then stages.passable cursor head after
                else stages.observed (some cursor) head after
  chooses
    : ∀ {cursor head state},
        stages.observed (some cursor) head state
        → (chooseReviewTarget config cursor.reviewedSha head).Ensures setting
            (fun choice later => stages.chosen cursor head choice later) state
  passes
    : ∀ {cursor head choice state},
        stages.chosen cursor head choice state
        → choice.mode = .advance
        → choice.oversized config = false
        → stages.passable cursor choice.sha state
  flags
    : ∀ {cursor head choice state},
        stages.chosen cursor head choice state
        → choice.mode = .advance
        → let alert := Alert.rangeTooLarge cursor.reviewedSha choice.sha choice.lines choice.bytes
          setting.permits state (.alertJefe alert)
          ∧ ∀ {written after},
              setting.answers (.alertJefe alert) state written after
              → if written then stages.passable cursor choice.sha after else stages.between after
  skips
    : ∀ {cursor target state},
        stages.passable cursor target state
        → setting.permits state (.skipTo target)
          ∧ ∀ {won after}, setting.answers (.skipTo target) state won after → stages.between after
  pardons
    : ∀ {cursor head choice state},
        stages.chosen cursor head choice state
        → choice.mode = .dispatch
        → (tryForgiveTransient config choice.sha).Ensures setting
            (fun _ later => stages.chosen cursor head choice later) state
  blocks
    : ∀ {cursor head choice state},
        stages.chosen cursor head choice state
        → choice.mode = .dispatch
        → setting.permits state (.markBlocked choice.sha config.maxAttempts)
          ∧ ∀ {won after},
              setting.answers (.markBlocked choice.sha config.maxAttempts) state won after
              → stages.between after
  dispatches
    : ∀ {cursor head choice budget state},
        stages.chosen cursor head choice state
        → choice.mode = .dispatch
        → (dispatchStep config cursor.reviewedSha choice.sha budget).Ensures setting
            (fun _ later => stages.between later) state

namespace Stages.Kept

variable {stages : Stages State} {state : State} {cursor : Option Cursor} {row : Cursor}
  {head target : Sha} {choice : Choice} {budget : Nat}

/-- The end of a look. -/
theorem ends (kept : stages.Kept setting config) {Result : Type} {result : Result}
    (start : stages.between state)
    : (pure result : Run Result).Ensures setting (fun _ later => stages.between later) state :=
  kept.betweenLasts.ends start fun _ here => here

/-- The cursor is read again. -/
theorem readsCursor (kept : stages.Kept setting config) (start : stages.between state)
    : (ask .getCursor).Ensures setting (fun cursor later => stages.known cursor later) state := by
  refine kept.betweenLasts.calls start (fun _ here => (kept.reads here).1)
    fun cursor before after here answered => ?_
  exact kept.knownLasts.ends ((kept.reads here).2 answered) fun _ here => here

/-- The pass over what is delivered. -/
theorem advancePass (kept : stages.Kept setting config) (start : stages.known cursor state)
    : (advancePass cursor).Ensures setting
      (fun cursor later => stages.known cursor later) state := by
  unfold Controller.advancePass
  split
  · exact kept.knownLasts.ends start fun _ here => here
  · rename_i pending isPending
    obtain ⟨row, rfl, isPending⟩ := Option.bind_eq_some_iff.mp isPending
    refine kept.knownLasts.calls start (fun _ here => (kept.finds here isPending).1)
      fun found before after here answered => ?_
    have found := (kept.finds here isPending).2 answered
    split
    · rename_i isFound
      rw [if_pos isFound] at found
      refine kept.deliveredLasts.asks trivial found fun pinned after found => ?_
      split
      · refine kept.deliveredLasts.calls found (fun _ here => (kept.advances here).1)
          fun won before after here answered => ?_
        have advanced := (kept.advances here).2 answered
        split
        · exact kept.betweenLasts.asks trivial advanced fun _ after here => kept.readsCursor here
        · exact kept.readsCursor advanced
      · exact kept.readsCursor (kept.knownEnds (kept.deliveredKnown found))
    · rename_i notFound
      rw [if_neg notFound] at found
      exact kept.knownLasts.ends found fun _ here => here

/-- The pass over transient failures. -/
theorem transientPass (kept : stages.Kept setting config) (start : stages.known cursor state)
    : (transientPass config cursor).Ensures setting (fun cursor later => stages.known cursor later)
        state := by
  unfold Controller.transientPass
  split
  · exact kept.knownLasts.ends start fun _ here => here
  · rename_i pending isPending
    obtain ⟨row, rfl, isPending⟩ := Option.bind_eq_some_iff.mp isPending
    refine kept.knownLasts.calls start (fun _ here => (kept.finds here isPending).1)
      fun found before after here answered => ?_
    have found := (kept.finds here isPending).2 answered
    split
    · rename_i isFound
      rw [if_pos isFound] at found
      exact kept.knownLasts.ends (kept.deliveredKnown found) fun _ here => here
    · rename_i notFound
      rw [if_neg notFound] at found
      refine Ensures.bind (kept.forgives found isPending) fun forgiven later here => ?_
      split
      · rename_i isForgiven
        rw [if_pos isForgiven] at here
        exact kept.readsCursor here
      · rename_i notForgiven
        rw [if_neg notForgiven] at here
        exact kept.knownLasts.ends here fun _ here => here

/-- The head of the ref, or an end. -/
theorem observe (kept : stages.Kept setting config) (start : stages.known cursor state)
    : observe.Ensures setting
        (fun head later =>
          stages.between later ∧ ∀ sha, head = some sha → stages.observed cursor sha later)
        state := by
  have stops {state : State} (start : stages.known cursor state)
      : (pure none : Run (Option Sha)).Ensures setting
          (fun head later =>
            stages.between later ∧ ∀ sha, head = some sha → stages.observed cursor sha later)
          state :=
    kept.knownLasts.ends start fun _ here => ⟨kept.knownEnds here, nofun⟩
  refine kept.knownLasts.asks trivial start fun url after start => ?_
  match url with
  | none => exact stops start
  | some url =>
      dsimp only
      split
      · refine kept.knownLasts.asks trivial start fun fetched after start => ?_
        split
        · refine kept.knownLasts.calls start (fun _ here => (kept.observes here).1)
            fun head before after here answered => ?_
          obtain ⟨ended, observed⟩ := (kept.observes here).2 answered
          have halts : (pure none : Run (Option Sha)).Ensures setting
              (fun head later =>
                stages.between later ∧ ∀ sha, head = some sha → stages.observed cursor sha later)
              after :=
            kept.betweenLasts.ends ended fun _ here => ⟨here, nofun⟩
          match head with
          | none => exact halts
          | some head =>
              dsimp only
              split
              · refine kept.observedLasts.ends (observed head rfl) fun _ here => ?_
                refine ⟨kept.observedEnds here, fun sha same => ?_⟩
                cases same
                exact here
              · exact halts
        · exact stops start
      · exact stops start

/-- A commit is pinned and skipped. -/
theorem skip (kept : stages.Kept setting config) {Result : Type} (result : Result)
    (start : stages.passable row target state)
    : (do
        if ← ask (.pin .reviewed target) then
          let _ ← ask (.skipTo target)
          pure result
        else pure result : Run Result).Ensures setting
          (fun _ later => stages.between later) state := by
  refine kept.passableLasts.asks trivial start fun pinned after start => ?_
  split
  · refine kept.passableLasts.calls start (fun _ here => (kept.skips here).1)
      fun won before after here answered => ?_
    exact kept.ends ((kept.skips here).2 answered)
  · exact kept.ends (kept.passableEnds start)

/-- An advance ends the look. -/
theorem advanceStep (kept : stages.Kept setting config)
    (start : stages.chosen row head choice state)
    (advances : choice.mode = .advance)
    : (advanceStep config row.reviewedSha choice).Ensures setting
        (fun _ later => stages.between later) state := by
  unfold Controller.advanceStep
  split
  · exact kept.ends (kept.chosenEnds start)
  · split
    · refine kept.chosenLasts.calls start (fun _ here => (kept.flags here advances).1)
        fun written before after here answered => ?_
      have flagged := (kept.flags here advances).2 answered
      split
      · rename_i isWritten
        rw [if_pos isWritten] at flagged
        exact kept.skip () flagged
      · rename_i notWritten
        rw [if_neg notWritten] at flagged
        exact kept.ends flagged
    · rename_i notOversized
      exact kept.skip () (kept.passes start advances (Bool.eq_false_iff.mpr notOversized))

theorem dayCount (kept : stages.Kept setting config) (start : stages.chosen row head choice state)
    : dayCount.Ensures setting (fun _ later => stages.chosen row head choice later) state :=
  kept.chosenLasts.asks trivial start fun _ _ start =>
    kept.chosenLasts.asks trivial start fun _ _ start =>
      kept.chosenLasts.ends start fun _ here => here

/-- A dispatch within the budget does. -/
theorem budgetStep (kept : stages.Kept setting config) (start : stages.chosen row head choice state)
    (dispatches : choice.mode = .dispatch)
    : (budgetStep config row.reviewedSha choice.sha budget).Ensures setting
        (fun _ later => stages.between later) state := by
  unfold Controller.budgetStep
  split
  · exact kept.ends (kept.chosenEnds start)
  · split
    · exact kept.ends (kept.chosenEnds start)
    · refine Ensures.bind (kept.dayCount start) fun count later start => ?_
      split
      · exact kept.ends (kept.chosenEnds start)
      · exact kept.dispatches start dispatches

/-- So does one under the ceiling, or a block. -/
theorem ceilingStep (kept : stages.Kept setting config)
    (start : stages.chosen row head choice state)
    (dispatches : choice.mode = .dispatch)
    : (ceilingStep config row row.reviewedSha choice.sha budget).Ensures setting
        (fun _ later => stages.between later) state := by
  unfold Controller.ceilingStep
  split
  · refine Ensures.bind (kept.pardons start dispatches) fun forgiven later start => ?_
    split
    · exact kept.budgetStep start dispatches
    · refine kept.chosenLasts.calls start (fun _ here => (kept.blocks here dispatches).1)
        fun won before after here answered => ?_
      have blocked := (kept.blocks here dispatches).2 answered
      split
      · split
        · exact kept.ends blocked
        · exact kept.betweenLasts.asks trivial blocked fun _ after here => kept.ends here
      · exact kept.ends blocked
  · exact kept.budgetStep start dispatches

/-- So does either choice. -/
theorem useChoice (kept : stages.Kept setting config) (start : stages.chosen row head choice state)
    : (useChoice config row row.reviewedSha choice budget).Ensures setting
        (fun _ later => stages.between later) state := by
  unfold Controller.useChoice
  split
  · have start := kept.chosenEnds start
    refine kept.betweenLasts.asks trivial start fun count after start => ?_
    refine kept.betweenLasts.asks trivial start fun _ after start => ?_
    dsimp only [pure_bind]
    split
    · exact kept.betweenLasts.asks trivial start fun _ after here => kept.ends here
    · exact kept.ends start
  · rename_i advances
    refine kept.chosenLasts.asks trivial start fun _ after start => ?_
    exact Ensures.bind (kept.advanceStep start advances) fun _ later here => kept.ends here
  · rename_i dispatches
    refine kept.chosenLasts.asks trivial start fun _ after start => ?_
    exact kept.ceilingStep start dispatches

/-- A new head is reviewed. -/
theorem reviewStep (kept : stages.Kept setting config)
    (start : stages.observed (some row) head state) (isNew : head ≠ row.reviewedSha)
    : (reviewStep config row head budget).Ensures setting (fun _ later => stages.between later)
        state := by
  refine kept.observedLasts.asks trivial start fun present after start => ?_
  split
  · refine kept.observedLasts.asks trivial start fun present after start => ?_
    split
    · refine kept.observedLasts.calls start (fun _ here => (kept.compares here isNew).1)
        fun quiet before after here answered => ?_
      have compared := (kept.compares here isNew).2 answered
      split
      · rename_i isQuiet
        rw [if_pos isQuiet] at compared
        split
        · exact kept.ends (kept.passableEnds compared)
        · exact kept.skip budget compared
      · rename_i notQuiet
        rw [if_neg notQuiet] at compared
        exact Ensures.bind (kept.chooses compared) fun choice later start => kept.useChoice start
    · exact kept.ends (kept.observedEnds start)
  · exact kept.ends (kept.observedEnds start)

/-- A look from the head on. -/
theorem decideStep (kept : stages.Kept setting config) (start : stages.observed cursor head state)
    : (decideStep config cursor head budget).Ensures setting (fun _ later => stages.between later)
        state := by
  unfold Controller.decideStep
  split
  · split
    · exact kept.ends (kept.observedEnds start)
    · refine kept.observedLasts.asks trivial start fun pinned after start => ?_
      split
      · refine kept.observedLasts.calls start (fun _ here => (kept.seeds here).1)
          fun won before after here answered => ?_
        exact kept.ends ((kept.seeds here).2 answered)
      · exact kept.ends (kept.observedEnds start)
  · split
    · exact kept.ends (kept.observedEnds start)
    · rename_i isNew
      exact kept.reviewStep start isNew

/-- A look keeps what holds between two looks. -/
theorem looks (kept : stages.Kept setting config) (start : stages.between state)
    : (processRepo config budget).Ensures setting (fun _ later => stages.between later) state := by
  refine Ensures.bind (kept.readsCursor start) fun cursor later start => ?_
  refine Ensures.bind (kept.advancePass start) fun cursor later start => ?_
  refine Ensures.bind (kept.transientPass start) fun cursor later start => ?_
  refine Ensures.bind (kept.observe start) ?_
  rintro head later ⟨ended, observed⟩
  match head with
  | none => exact kept.ends ended
  | some head =>
      exact kept.observedLasts.asks trivial (observed head rfl) fun _ after start =>
        kept.decideStep start

end Stages.Kept

end Controller

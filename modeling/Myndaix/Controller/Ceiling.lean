import Myndaix.Controller.Chunker
import Myndaix.Controller.World

/-! The ceiling on the dispatches of a head: attempts are counted when a dispatch is claimed, and
the workers outlive the ticks. A head is to be blocked only after its last dispatch has ended.
-/

namespace Controller

open Interaction Interaction.Program Relational

-- Ended dispatches

/-- A dispatch has failed, or its window has passed. -/
def Dispatch.Ended (config : Config) (now : Time) (dispatch : Dispatch) : Prop :=
  dispatch.phase = .failed ∨ dispatch.claimedAt + config.pendingStale < now

/-- So many dispatches as are permitted were claimed, and all have ended. -/
structure Exhausted (config : Config) (world : World) : Prop where
  claimed : config.maxAttempts ≤ world.dispatches.length
  ended : ∀ dispatch ∈ world.dispatches, dispatch.Ended config world.clock

/-- A row that is to be blocked was claimed before the window, as it and the clock tell before the
call, or its last dispatch has failed; one that is to be forgiven an attempt has a last dispatch
that was the one that failed.
-/
def Timely (config : Config) (key : Key) (world : World) : Query → Prop
  | .markBlocked head maxAttempts =>
      ∀ row,
        world.cursor key = some row
        → row.pendingSha = some head
        → maxAttempts ≤ row.attempts
        → row.state = .dispatching
        → row.updatedAt + config.pendingStale < world.clock
          ∨ ∀ latest ∈ world.dispatches.head?, latest.phase = .failed
  | .forgiveTransient head =>
      ∀ row,
        world.cursor key = some row
        → row.pendingSha = some head
        → row.state = .dispatching ∨ row.state = .blocked
        → ∀ latest ∈ world.dispatches.head?, latest.phase = .failed
  | _ => True

/-- The row of the ref agrees with the dispatches of its pending head. -/
structure Sound (config : Config) (key : Key) (world : World) : Prop where
  unique : Unique Cursor.key world.rows
  counted
    : ∀ row,
        world.cursor key = some row
        → row.pendingSha.isSome = true
        → row.attempts ≤ world.dispatches.length
  ended : ∀ dispatch ∈ world.dispatches.tail, dispatch.Ended config world.clock
  fresh
    : ∀ row,
        world.cursor key = some row
        → row.state = .dispatching
        → ∀ latest ∈ world.dispatches.head?,
            latest.phase = .failed ∨ row.updatedAt = latest.claimedAt
  held
    : ∀ row,
        world.cursor key = some row
        → row.pendingSha.isSome = true
        → row.state = .dispatching ∨ row.state = .blocked
  blocked
    : ∀ row, world.cursor key = some row → row.state = .blocked → Exhausted config world

/-- A claim names as stale what is older than the window, no dispatch is released that has started,
and the ceiling is that of the configuration.
-/
def Allowed (config : Config) (world : World) : Query → Prop
  | .markBlocked _ maxAttempts => maxAttempts = config.maxAttempts
  | .claimDispatch _ staleBefore => staleBefore ≤ world.clock - config.pendingStale
  | .releaseDispatch _ => ∀ latest ∈ world.dispatches.head?, latest.phase ≠ .started
  | _ => True

/-- The world in which heads are blocked in time. -/
def timely (config : Config) (git : Git) (key : Key) : Setting Query Answer World where
  interferes := Elapses key
  answers := fun query before answer after =>
    after = before.after key query answer
    ∧ Truthful git key before query answer
    ∧ Timely config key before query
  permits := fun world query => Sound config key world ∧ Allowed config world query
  interferes_refl := Elapses.refl
  interferes_trans := Elapses.trans

variable {query : Query}

section Steps

variable {config : Config} {git : Git} {key : Key} {world before after : World} {now next : Time}
  {dispatch : Dispatch} {dispatches : List Dispatch}

theorem Dispatch.Ended.later (ended : dispatch.Ended config now) (past : now ≤ next)
    : dispatch.Ended config next :=
  ended.imp_right fun passed => Int.lt_of_lt_of_le passed past

theorem Dispatch.Ended.lasts {other : Dispatch} (ended : dispatch.Ended config now)
    (lasts : dispatch.Lasts other)
    : other.Ended config now := by
  rcases lasts with rfl | rfl
  · exact ended
  · exact .inl rfl

/-- What has ended stays so, by induction on the dispatches. -/
theorem ended_lasts {others : List Dispatch}
    (lasts : List.Forall₂ Dispatch.Lasts dispatches others)
    (ended : ∀ dispatch ∈ dispatches, dispatch.Ended config now)
    : ∀ dispatch ∈ others, dispatch.Ended config now := by
  induction lasts with
  | nil => exact nofun
  | cons head _ ih =>
      intro dispatch mem
      rcases List.mem_cons.mp mem with rfl | mem
      · exact (ended _ List.mem_cons_self).lasts head
      · exact ih (fun other isTail => ended other (List.mem_cons_of_mem _ isTail)) dispatch mem

theorem lasts_tail {others : List Dispatch} (lasts : List.Forall₂ Dispatch.Lasts dispatches others)
    : List.Forall₂ Dispatch.Lasts dispatches.tail others.tail := by
  cases lasts with
  | nil => exact .nil
  | cons head tail => exact tail

theorem lasts_head {others : List Dispatch} (lasts : List.Forall₂ Dispatch.Lasts dispatches others)
    : ∀ other ∈ others.head?, ∃ dispatch ∈ dispatches.head?, dispatch.Lasts other := by
  cases lasts with
  | nil => exact nofun
  | @cons dispatch other _ _ head tail =>
      intro latest isLatest
      cases isLatest
      exact ⟨dispatch, rfl, head⟩

/-- Exhausted attempts stay so. -/
theorem Exhausted.elapses (exhausted : Exhausted config before) (elapses : Elapses key before after)
    : Exhausted config after where
  claimed := elapses.dispatches.length_eq ▸ exhausted.claimed
  ended := ended_lasts elapses.dispatches fun dispatch mem =>
    (exhausted.ended dispatch mem).later elapses.clock

/-- Time passes, and workers go on. -/
theorem Sound.elapses (sound : Sound config key before) (elapses : Elapses key before after)
    : Sound config key after := by
  have lasts := elapses.dispatches
  constructor
  · exact elapses.unique sound.unique
  · intro row isRow pending
    exact lasts.length_eq ▸ sound.counted row (elapses.cursor ▸ isRow) pending
  · exact ended_lasts (lasts_tail lasts) fun dispatch mem =>
      (sound.ended dispatch mem).later elapses.clock
  · intro row isRow dispatching other isLatest
    obtain ⟨latest, wasLatest, lasts⟩ := lasts_head lasts other isLatest
    rcases lasts with rfl | rfl
    · exact sound.fresh row (elapses.cursor ▸ isRow) dispatching _ wasLatest
    · exact .inl rfl
  · intro row isRow pending
    exact sound.held row (elapses.cursor ▸ isRow) pending
  · intro row isRow blocked
    exact (sound.blocked row (elapses.cursor ▸ isRow) blocked).elapses elapses

/-- Where the row, the clock and the dispatches are the same, nothing has changed. -/
theorem Sound.same (sound : Sound config key before) (rows : after.rows = before.rows)
    (clock : after.clock = before.clock) (dispatches : after.dispatches = before.dispatches)
    : Sound config key after := by
  have cursor : after.cursor key = before.cursor key := congrArg (getCursor key) rows
  constructor
  · exact rows ▸ sound.unique
  · exact cursor ▸ dispatches ▸ sound.counted
  · exact dispatches ▸ clock ▸ sound.ended
  · exact cursor ▸ dispatches ▸ sound.fresh
  · exact cursor ▸ sound.held
  · intro row isRow blocked
    have exhausted := sound.blocked row (cursor ▸ isRow) blocked
    exact ⟨dispatches ▸ exhausted.claimed, dispatches ▸ clock ▸ exhausted.ended⟩

/-- A row that was moved agrees with the dispatches. -/
theorem Sound.moved {row : Cursor} (unique : Unique Cursor.key after.rows)
    (found : after.cursor key = some row)
    (counted : row.pendingSha.isSome = true → row.attempts ≤ after.dispatches.length)
    (ended : ∀ dispatch ∈ after.dispatches.tail, dispatch.Ended config after.clock)
    (fresh
      : row.state = .dispatching
        → ∀ latest ∈ after.dispatches.head?,
            latest.phase = .failed ∨ row.updatedAt = latest.claimedAt)
    (held : row.pendingSha.isSome = true → row.state = .dispatching ∨ row.state = .blocked)
    (blocked : row.state = .blocked → Exhausted config after)
    : Sound config key after := by
  constructor
  · exact unique
  · intro other isRow
    cases found.symm.trans isRow
    exact counted
  · exact ended
  · intro other isRow
    cases found.symm.trans isRow
    exact fresh
  · intro other isRow
    cases found.symm.trans isRow
    exact held
  · intro other isRow
    cases found.symm.trans isRow
    exact blocked

/-- Only a claimed dispatch comes to another phase. -/
theorem Dispatch.comesTo_cases (phase : Phase) (dispatch : Dispatch)
    : dispatch.comesTo phase = dispatch ∧ dispatch.phase ≠ .claimed
      ∨ dispatch.comesTo phase = { dispatch with phase } ∧ dispatch.phase = .claimed := by
  unfold Dispatch.comesTo
  split
  · rename_i claimed
    exact .inr ⟨rfl, claimed⟩
  · rename_i notClaimed
    exact .inl ⟨rfl, notClaimed⟩

/-- A dispatch that is released has failed, if it had not started. -/
theorem Dispatch.comesTo_failed (notStarted : dispatch.phase ≠ .started)
    : (dispatch.comesTo .failed).phase = .failed := by
  rcases dispatch.comesTo_cases .failed with ⟨same, notClaimed⟩ | ⟨failed, _⟩
  · rw [same]
    cases phase : dispatch.phase with
    | claimed => exact absurd phase notClaimed
    | started => exact absurd phase notStarted
    | failed => rfl
  · rw [failed]

theorem Dispatch.Ended.comesTo (ended : dispatch.Ended config now)
    : (dispatch.comesTo .started).Ended config now := by
  rcases dispatch.comesTo_cases .started with ⟨same, _⟩ | ⟨started, claimed⟩
  · rw [same]
    exact ended
  · rw [started]
    exact .inr (ended.resolve_left fun failed => nomatch claimed.symm.trans failed)

/-- The start of a dispatch changes nothing that counts. -/
theorem Sound.starts (sound : Sound config key before) (rows : after.rows = before.rows)
    (clock : after.clock = before.clock)
    (dispatches : after.dispatches = before.dispatches.modifyHead (Dispatch.comesTo .started))
    : Sound config key after := by
  have cursor : after.cursor key = before.cursor key := congrArg (getCursor key) rows
  have length : after.dispatches.length = before.dispatches.length := by
    rw [dispatches, List.length_modifyHead]
  have tail : after.dispatches.tail = before.dispatches.tail := by
    rw [dispatches, List.tail_modifyHead]
  constructor
  · exact rows ▸ sound.unique
  · exact cursor ▸ length ▸ sound.counted
  · exact tail ▸ clock ▸ sound.ended
  · intro row isRow dispatching latest isLatest
    rw [dispatches, List.head?_modifyHead] at isLatest
    obtain ⟨dispatch, wasLatest, rfl⟩ := Option.map_eq_some_iff.mp isLatest
    have fresh := sound.fresh row (cursor ▸ isRow) dispatching dispatch wasLatest
    rcases dispatch.comesTo_cases .started with ⟨same, _⟩ | ⟨started, claimed⟩
    · rw [same]
      exact fresh
    · rw [started]
      exact .inr (fresh.resolve_left fun failed => nomatch claimed.symm.trans failed)
  · exact cursor ▸ sound.held
  · intro row isRow blocked
    have exhausted := sound.blocked row (cursor ▸ isRow) blocked
    refine ⟨length ▸ exhausted.claimed, ?_⟩
    rw [dispatches, clock]
    have ended := exhausted.ended
    cases known : before.dispatches with
    | nil => exact nofun
    | cons latest earlier =>
        rw [known] at ended
        intro dispatch mem
        rcases List.mem_cons.mp mem with rfl | mem
        · exact (ended latest List.mem_cons_self).comesTo
        · exact ended dispatch (List.mem_cons_of_mem _ mem)

/-- A claim of the pending head: all dispatches before it have ended. -/
theorem Sound.claims {head : Sha} {staleBefore : Time} {row : Cursor}
    (sound : Sound config key world) (isRow : world.cursor key = some row)
    (allowed : staleBefore ≤ world.clock - config.pendingStale)
    (pending : row.pendingSha = some head)
    (unblocked : ¬(row.state = .blocked ∧ (row.pendingSha = none ∨ row.pendingSha = some head)))
    (free : row.pendingSha = none ∨ row.state = .blocked ∨ row.updatedAt < staleBefore)
    : ∀ dispatch ∈ world.dispatches, dispatch.Ended config world.clock := by
  have notBlocked : row.state ≠ .blocked := fun blocked => unblocked ⟨blocked, .inr pending⟩
  have isSome : row.pendingSha.isSome = true := pending ▸ rfl
  have dispatching := (sound.held row isRow isSome).resolve_right notBlocked
  have stale : row.updatedAt < staleBefore := by
    rcases free with unset | blocked | stale
    · exact nomatch unset.symm.trans pending
    · exact absurd blocked notBlocked
    · exact stale
  have fresh := sound.fresh row isRow dispatching
  have ended := sound.ended
  cases known : world.dispatches with
  | nil => exact nofun
  | cons latest earlier =>
      rw [known] at fresh ended
      intro dispatch mem
      rcases List.mem_cons.mp mem with rfl | mem
      · refine (fresh dispatch rfl).imp_right fun sameTime => ?_
        rw [sameTime] at stale
        exact Int.add_lt_of_lt_sub_right (Int.lt_of_lt_of_le stale allowed)
      · exact ended dispatch mem

/-- The last dispatch of a row that is blocked in time has ended. -/
theorem Sound.latestEnded {row : Cursor} (sound : Sound config key world)
    (isRow : world.cursor key = some row) (dispatching : row.state = .dispatching)
    (timely
      : row.updatedAt + config.pendingStale < world.clock
        ∨ ∀ latest ∈ world.dispatches.head?, latest.phase = .failed)
    : ∀ latest ∈ world.dispatches.head?, latest.Ended config world.clock := by
  intro latest isLatest
  rcases timely with passed | failed
  · rcases sound.fresh row isRow dispatching latest isLatest with failed | claimed
    · exact .inl failed
    · exact .inr (claimed ▸ passed)
  · exact .inl (failed latest isLatest)

/-- A statement that is lost changes nothing, and one that is won moves the row. -/
theorem Sound.verb (sound : Sound config key world) {answer : Answer query} {verb : Verb}
    {won : Bool} (runs : verbOf world.clock query = some verb)
    (truthful : won = (verb.call key world.rows).1)
    (lost : won = false → (world.after key query answer).dispatches = world.dispatches)
    (moved
      : ∀ row,
          won = true
          → (world.after key query answer).cursor key = some row
          → Moves key verb (world.cursor key) row
          → Sound config key (world.after key query answer))
    : Sound config key (world.after key query answer) := by
  have rows : (world.after key query answer).rows = (verb.call key world.rows).2 := by
    unfold World.after
    rw [runs]
  rcases @Verb.called key world verb sound.unique with
    ⟨isLost, unchanged⟩ | ⟨isWon, row, found, moves⟩
  · exact sound.same (rows.trans unchanged) rfl (lost (truthful.trans isLost))
  · exact moved row (truthful.trans isWon) (by rw [World.cursor, rows]; exact found) moves

/-- Every call keeps the row in agreement with the dispatches. -/
theorem Sound.called (sound : Sound config key world) {answer : Answer query}
    (truthful : Truthful git key world query answer) (timely : Timely config key world query)
    (allowed : Allowed config world query)
    : Sound config key (world.after key query answer) := by
  have unique : Unique Cursor.key (world.after key query answer).rows :=
    World.after_unique sound.unique query answer
  cases query with
  | upsertBaseline head =>
      refine sound.verb rfl truthful (fun _ => rfl) fun row won found moves => ?_
      have ended := sound.ended
      generalize world.cursor key = before at moves
      cases moves
      exact .moved unique found nofun ended nofun nofun nofun
  | claimDispatch head staleBefore =>
      refine sound.verb rfl truthful (fun lost => by rw [lost]; rfl) fun after won found moves => ?_
      obtain rfl : answer = true := won
      cases isRow : world.cursor key with
      | none =>
          rw [isRow] at moves
          cases moves
      | some row =>
          rw [isRow] at moves
          let latest : Dispatch := { claimedAt := world.clock, phase := .claimed }
          have dispatches
              : (world.after key (.claimDispatch head staleBefore) true).dispatches
                = if row.pendingSha = some head then latest :: world.dispatches else [latest] := by
            rw [World.after, isRow]
            rfl
          cases moves with
          | claimDispatch _ unreviewed unblocked free =>
              refine .moved unique found ?_ ?_ ?_ (fun _ => .inl rfl) nofun
              · intro _
                rw [dispatches]
                by_cases again : row.pendingSha = some head
                · rw [if_pos again]
                  have counted := sound.counted row isRow (again ▸ rfl)
                  simpa [again] using counted
                · rw [if_neg again]
                  simp [again]
              · rw [dispatches]
                by_cases again : row.pendingSha = some head
                · rw [if_pos again]
                  exact sound.claims isRow allowed again unblocked free
                · rw [if_neg again]
                  exact nofun
              · rw [dispatches]
                intro _ dispatch isLatest
                split at isLatest <;> cases isLatest <;> exact .inr rfl
  | releaseDispatch head =>
      refine sound.verb rfl truthful (fun lost => by rw [lost]; rfl) fun after won found moves => ?_
      obtain rfl : answer = true := won
      cases isRow : world.cursor key with
      | none =>
          rw [isRow] at moves
          cases moves
      | some row =>
          rw [isRow] at moves
          have dispatches
              : (world.after key (.releaseDispatch head) true).dispatches
                = world.dispatches.modifyHead (Dispatch.comesTo .failed) :=
            rfl
          have counted := sound.counted row isRow
          cases moves with
          | releaseDispatch pending dispatching =>
              refine .moved unique found ?_ ?_ ?_ (fun _ => .inl dispatching) ?_
              · intro isSome
                rw [dispatches, List.length_modifyHead]
                exact counted isSome
              · rw [dispatches, List.tail_modifyHead]
                exact sound.ended
              · rw [dispatches, List.head?_modifyHead]
                intro _ dispatch isLatest
                obtain ⟨latest, wasLatest, rfl⟩ := Option.map_eq_some_iff.mp isLatest
                exact .inl (Dispatch.comesTo_failed (allowed latest wasLatest))
              · exact fun blocked => nomatch dispatching.symm.trans blocked
  | forgiveTransient head =>
      refine sound.verb rfl truthful (fun lost => rfl) fun after won found moves => ?_
      cases isRow : world.cursor key with
      | none =>
          rw [isRow] at moves
          cases moves
      | some row =>
          rw [isRow] at moves
          have counted := sound.counted row isRow
          cases moves with
          | forgiveTransient pending held =>
              refine .moved unique found ?_ sound.ended ?_ (fun _ => .inl rfl) nofun
              · exact fun isSome => Nat.le_trans (Nat.sub_le _ _) (counted isSome)
              · exact fun _ latest isLatest => .inl (timely row isRow pending held latest isLatest)
  | advanceCursor head =>
      refine sound.verb rfl truthful (fun lost => by rw [lost]; rfl) fun after won found moves => ?_
      obtain rfl : answer = true := won
      generalize world.cursor key = before at moves
      cases moves
      exact .moved unique found nofun nofun nofun nofun nofun
  | skipTo head =>
      refine sound.verb rfl truthful (fun lost => by rw [lost]; rfl) fun after won found moves => ?_
      obtain rfl : answer = true := won
      generalize world.cursor key = before at moves
      cases moves
      exact .moved unique found nofun nofun nofun nofun nofun
  | markBlocked head maxAttempts =>
      refine sound.verb rfl truthful (fun lost => rfl) fun after won found moves => ?_
      obtain rfl : maxAttempts = config.maxAttempts := allowed
      cases isRow : world.cursor key with
      | none =>
          rw [isRow] at moves
          cases moves
      | some row =>
          rw [isRow] at moves
          have counted := sound.counted row isRow
          have ended := sound.ended
          cases moves with
          | markBlocked _ pending exhausted dispatching =>
              refine .moved unique found counted ended nofun (fun _ => .inr rfl) fun _ => ?_
              have attempts : config.maxAttempts ≤ row.attempts := Int.ofNat_le.mp exhausted
              have latestEnded :=
                sound.latestEnded isRow dispatching (timely row isRow pending attempts dispatching)
              refine ⟨Nat.le_trans attempts (counted (pending ▸ rfl)), ?_⟩
              change ∀ dispatch ∈ world.dispatches, dispatch.Ended config world.clock
              cases known : world.dispatches with
              | nil => exact nofun
              | cons latest earlier =>
                  rw [known] at ended latestEnded
                  intro dispatch mem
                  rcases List.mem_cons.mp mem with rfl | mem
                  · exact latestEnded dispatch rfl
                  · exact ended dispatch mem
  | recordDispatch base head => exact sound.starts rfl rfl rfl
  | playReview base head =>
      match answer with
      | some 0 => exact sound.starts rfl rfl rfl
      | none => exact sound.same rfl rfl rfl
      | some (.ofNat (rc + 1)) => exact sound.same rfl rfl rfl
      | some (.negSucc rc) => exact sound.same rfl rfl rfl
  | _ => exact sound.same rfl rfl rfl

end Steps

-- The looks

/-- The calls that are allowed at any time. -/
def Unhurried : Query → Prop
  | .claimDispatch _ _ | .releaseDispatch _ | .markBlocked _ _ => False
  | _ => True

section Looks

variable {config : Config} {git : Git} {key : Key} {world : World}

theorem Unhurried.allowed (unhurried : Unhurried query)
    : Allowed config world query := by
  cases query <;> first | exact unhurried.elim | trivial

theorem Neutral.unhurried (neutral : Neutral query) : Unhurried query := by
  cases query <;> first | exact neutral.elim | trivial

theorem Probing.unhurried (isProbe : Probing query) : Unhurried query := by
  cases query <;> first | exact isProbe.elim | trivial

/-- Calls that do not block or forgive keep the world sound. -/
theorem sound_lasts : Steady (timely config git key) Unhurried (Sound config key) where
  stable := fun sound elapses => sound.elapses elapses
  permits := fun unhurried sound => ⟨sound, unhurried.allowed⟩
  step := by
    rintro query before answer after unhurried sound ⟨rfl, truthful, timely⟩
    exact sound.called truthful timely unhurried.allowed

/-- The latest dispatch has not started. -/
def Open (world : World) : Prop :=
  ∀ latest ∈ world.dispatches.head?, latest.phase ≠ .started

/-- The calls that start no dispatch and are not about a cursor. -/
def Idle : Query → Prop
  | .pin _ _ | .trustedScript => True
  | _ => False

theorem Open.elapses {after : World} (isOpen : Open world) (elapses : Elapses key world after)
    : Open after := by
  intro other isLatest
  obtain ⟨latest, wasLatest, rfl | rfl⟩ := lasts_head elapses.dispatches other isLatest
  · exact isOpen _ wasLatest
  · exact nofun

/-- An open dispatch stays open through idle calls. -/
theorem open_lasts
    : Steady (timely config git key) Idle (fun world => Sound config key world ∧ Open world) where
  stable := fun here elapses => ⟨here.1.elapses elapses, here.2.elapses elapses⟩
  permits := by
    intro world query idle here
    cases query <;> first | exact idle.elim | exact ⟨here.1, trivial⟩
  step := by
    rintro query before answer after idle ⟨sound, isOpen⟩ ⟨rfl, truthful, timely⟩
    cases query <;>
      first
      | exact idle.elim
      | exact ⟨sound.called truthful timely trivial, isOpen⟩

/-- A dispatch that was just claimed has not started. -/
theorem open_claimed {head : Sha} {staleBefore : Time}
    : Open (world.after key (.claimDispatch head staleBefore) true) := by
  intro latest isLatest
  unfold World.after dispatchesAfter at isLatest
  dsimp only at isLatest
  split at isLatest <;> cases isLatest <;> exact nofun

/-- A review that was not triggered leaves its dispatch open. -/
theorem triggerReview_sound {base target : Sha} (start : Sound config key world ∧ Open world)
    : (triggerReview config base target).Ensures (timely config git key)
        (fun triggered later => Sound config key later ∧ (triggered = false → Open later))
        world := by
  have ends {world : World} (start : Sound config key world ∧ Open world)
      : (pure false : Run Bool).Ensures (timely config git key)
          (fun triggered later => Sound config key later ∧ (triggered = false → Open later))
          world :=
    open_lasts.ends start fun _ here => ⟨here.1, fun _ => here.2⟩
  unfold triggerReview
  split
  · refine sound_lasts.asks trivial start.1 fun _ after sound => ?_
    exact sound_lasts.ends sound fun _ sound => ⟨sound, nofun⟩
  · split
    · exact ends start
    · refine open_lasts.asks trivial start fun trusted after start => ?_
      split
      · refine open_lasts.calls start (fun _ here => ⟨here.1, trivial⟩) ?_
        rintro rc before after here ⟨rfl, truthful, timely⟩
        have sound : Sound config key (before.after key (.playReview base target) rc) :=
          here.1.called truthful timely trivial
        match rc with
        | none => exact ends ⟨sound, here.2⟩
        | some 0 => exact sound_lasts.ends sound fun _ sound => ⟨sound, nofun⟩
        | some (.ofNat (rc + 1)) => exact ends ⟨sound, here.2⟩
        | some (.negSucc rc) => exact ends ⟨sound, here.2⟩
      · exact ends start

/-- An attempt is forgiven in time. -/
theorem tryForgiveTransient_sound {target : Sha} (start : Sound config key world)
    : (tryForgiveTransient config target).Ensures (timely config git key)
        (fun _ later => Sound config key later) world := by
  have asks : Asks Unhurried (tryForgiveTransient config target) :=
    tryForgiveTransient_asks Neutral.unhurried trivial trivial trivial
  exact (sound_lasts.runs asks start).weaken fun _ _ here => here.2

/-- An answer to a call that is allowed at any time. -/
theorem sound_answered {before after : World} {answer : Answer query}
    (sound : Sound config key before)
    (answered : (timely config git key).answers query before answer after)
    (unhurried : Unhurried query)
    : Sound config key after :=
  sound_lasts.step unhurried sound answered

theorem log_answered {before after : World} {answer : Answer query} (isProbe : Probing query)
    (answered : (timely config git key).answers query before answer after)
    : after.log = before.log ++ [⟨query, answer⟩] := by
  rw [answered.1]
  refine World.after_log query answer fun same => ?_
  cases same
  exact isProbe

/-- A target is claimed with the time that it is, and released only if it was not started. -/
theorem dispatchStep_sound {base target : Sha} {budget : Nat} (start : Sound config key world)
    : (dispatchStep config base target budget).Ensures (timely config git key)
        (fun _ later => Sound config key later) world := by
  have ends {budget : Nat} {world : World} (start : Sound config key world)
      : (pure budget : Run Nat).Ensures (timely config git key)
          (fun _ later => Sound config key later) world :=
    sound_lasts.ends start fun _ here => here
  have releases {world : World} (start : Sound config key world ∧ Open world)
      : (do
          let _ ← ask (.releaseDispatch target)
          pure budget : Run Nat).Ensures (timely config git key)
            (fun _ later => Sound config key later) world := by
    refine open_lasts.calls start (fun _ here => here) ?_
    rintro won before after here ⟨rfl, truthful, timely⟩
    exact ends (here.1.called truthful timely here.2)
  refine sound_lasts.calls start (fun _ here => ⟨here, trivial⟩) ?_
  rintro now before after here ⟨rfl, isNow, timely⟩
  have past
      : Steady (Controller.timely config git key) (fun _ => False)
          (fun world => Sound config key world ∧ now ≤ world.clock) :=
    { stable := fun here elapses =>
        ⟨here.1.elapses elapses, Int.le_trans here.2 elapses.clock⟩
      permits := fun never => never.elim
      step := fun never => never.elim }
  have sound : Sound config key (before.after key .now now) := here.called isNow timely trivial
  refine past.calls ⟨sound, Int.le_of_eq isNow⟩ ?_ ?_
  · exact fun _ here => ⟨here.1, Int.sub_le_sub_right here.2 _⟩
  · rintro won before after here ⟨rfl, truthful, timely⟩
    have sound := here.1.called truthful timely (Int.sub_le_sub_right here.2 _)
    cases won with
    | false => exact ends sound
    | true =>
        refine open_lasts.asks trivial ⟨sound, open_claimed⟩ fun pinned after start => ?_
        split
        · refine Ensures.bind (triggerReview_sound start) fun triggered later here => ?_
          cases triggered with
          | false => exact releases ⟨here.1, here.2 rfl⟩
          | true =>
              refine Ensures.bind ((sound_lasts.fewer Neutral.unhurried).runs chargeDay_asks here.1)
                fun _ _ here => ?_
              exact ends here.2
        · exact releases start

/-- What is known at each stage is that the row and the dispatches agree. -/
def waiting (config : Config) (key : Key) : Stages World where
  between := Sound config key
  known := fun _ => Sound config key
  delivered := fun _ _ => Sound config key
  observed := fun _ _ => Sound config key
  chosen := fun _ _ _ => Sound config key
  passable := fun _ _ => Sound config key

/-- The stages are kept. -/
theorem waiting_kept : (waiting config key).Kept (timely config git key) config where
  betweenLasts := sound_lasts.fewer Neutral.unhurried
  knownLasts := sound_lasts.fewer Neutral.unhurried
  deliveredLasts := sound_lasts.fewer Neutral.unhurried
  observedLasts := sound_lasts.fewer Neutral.unhurried
  chosenLasts := sound_lasts.fewer Neutral.unhurried
  passableLasts := sound_lasts.fewer Neutral.unhurried
  knownEnds := id
  deliveredKnown := id
  observedEnds := id
  chosenEnds := id
  passableEnds := id
  reads := fun sound => ⟨⟨sound, trivial⟩, fun answered => sound_answered sound answered trivial⟩
  finds := by
    intro cursor pending world sound _
    refine ⟨⟨sound, trivial⟩, fun answered => ?_⟩
    split <;> exact sound_answered sound answered trivial
  advances := fun sound => ⟨⟨sound, trivial⟩, fun answered => sound_answered sound answered trivial⟩
  forgives := by
    intro cursor pending world sound _
    refine (tryForgiveTransient_sound sound).weaken fun forgiven later sound => ?_
    split <;> exact sound
  observes := by
    intro cursor world sound
    refine ⟨⟨sound, trivial⟩, fun answered => ?_⟩
    have sound := sound_answered sound answered trivial
    exact ⟨sound, fun _ _ => sound⟩
  seeds := fun sound => ⟨⟨sound, trivial⟩, fun answered => sound_answered sound answered trivial⟩
  compares := by
    intro cursor head world sound _
    refine ⟨⟨sound, trivial⟩, fun answered => ?_⟩
    split <;> exact sound_answered sound answered trivial
  chooses := by
    intro cursor head world sound
    have found := chooseReviewTarget_finds config cursor.reviewedSha head world.log
    have probes : Steady (timely config git key) Probing (Sound config key) :=
      sound_lasts.fewer Probing.unhurried
    have kept := probes.logs World.log (fun elapses => elapses.log) log_answered found sound
    exact kept.weaken fun _ _ here => here.2
  passes := fun sound _ _ => sound
  flags := by
    intro cursor head choice world sound _
    refine ⟨⟨sound, trivial⟩, fun answered => ?_⟩
    split <;> exact sound_answered sound answered trivial
  skips := fun sound => ⟨⟨sound, trivial⟩, fun answered => sound_answered sound answered trivial⟩
  pardons := fun sound _ => tryForgiveTransient_sound sound
  blocks := by
    intro cursor head choice world sound _
    refine ⟨⟨sound, rfl⟩, ?_⟩
    rintro won after ⟨rfl, truthful, timely⟩
    exact sound.called truthful timely rfl
  dispatches := fun sound _ => dispatchStep_sound sound

/-- The world before the first look. -/
structure World.Starts (world : World) : Prop where
  rows : world.rows = []
  dispatches : world.dispatches = []

/-- A world starts sound. -/
theorem Sound.starts_ (starts : world.Starts) : Sound config key world := by
  have absent {row : Cursor} (isRow : world.cursor key = some row) : False := by
    rw [World.cursor, starts.rows] at isRow
    cases isRow
  constructor
  · exact starts.rows ▸ List.nodup_nil
  · exact fun row isRow => (absent isRow).elim
  · rw [starts.dispatches]
    exact nofun
  · exact fun row isRow => (absent isRow).elim
  · exact fun row isRow => (absent isRow).elim
  · exact fun row isRow => (absent isRow).elim

/-- In every schedule in which heads are blocked in time, a blocked head has as many claimed
dispatches as are permitted, and each of them has ended: no dispatch of it is in flight.
-/
theorem blocked_exhausted {start : World} (starts : start.Starts)
    (ticks : Ticks (timely config git key) config start world)
    : ∀ row, world.cursor key = some row → row.state = .blocked → Exhausted config world := by
  have sound : Sound config key world :=
    ticks.invariant (.starts_ starts) (fun _ _ sound => waiting_kept.looks sound)
      fun _ _ permitted => permitted.1
  exact sound.blocked

end Looks

-- Samples

/-- The world as it is: heads are blocked at any time. -/
def freely (git : Git) (key : Key) : Setting Query Answer World where
  interferes := Elapses key
  answers := fun query before answer after =>
    after = before.after key query answer ∧ Truthful git key before query answer
  permits := fun _ _ => True
  interferes_refl := Elapses.refl
  interferes_trans := Elapses.trans

/-- One dispatch is permitted. -/
def ceilingConfig : Config :=
  { sampleConfig with maxAttempts := 1 }

def ceilingGit : Git where
  lines := fun _ _ => 1
  bytes := fun _ _ => 1

def ceilingAnswers (head : Sha) : (query : Query) → Answer query
  | .revParse => some head
  | .diffNumstat _ _ => some [(some 1, some 0)]
  | .diff _ _ => some [65]
  | query => sampleAnswers query

def emptyWorld : World where
  rows := []
  clock := 0
  dispatches := []
  done := []
  delivered := []
  flags := []
  moves := []
  log := []

def until_ (time : Time) (world : World) : World :=
  { world with clock := max world.clock time }

theorem until_elapses (key : Key) (time : Time) (world : World)
    : Elapses key world (until_ time world) :=
  { Elapses.refl world with clock := Int.le_max_left _ _ }

theorem ceilingAnswers_truthful (head : Sha) (key : Key) (query : Query) (world : World)
    : Truthful ceilingGit key world query (scripted key (ceilingAnswers head) world query) := by
  refine scripted_truthful ?_ ?_ ?_ query
  · intro base commit columns same
    cases same
    rfl
  · intro base commit bytes same
    cases same
    rfl
  · exact nofun

/-- The first look seeds the cursor, the second dispatches the new head, and a later one blocks it.
-/
def ceilingLooks (later : Time) : List ((World → World) × ((query : Query) → Answer query)) :=
  [
    (until_ 1, ceilingAnswers (sampleSha 'a')),
    (until_ 10000, ceilingAnswers (sampleSha 'b')),
    (until_ later, ceilingAnswers (sampleSha 'b'))
  ]

/-- Time passes between these looks, and they are answered as the world is. -/
theorem ceilingLooks_happen (later : Time) (key : Key)
    : ∀ look ∈ ceilingLooks later,
        ∀ world,
          Elapses key world (look.1 world)
          ∧ ∀ query, Truthful ceilingGit key world query (scripted key look.2 world query) := by
  intro look mem world
  rcases List.mem_cons.mp mem with rfl | mem
  · exact ⟨until_elapses key 1 world, fun query => ceilingAnswers_truthful _ key query world⟩
  · rcases List.mem_cons.mp mem with rfl | mem
    · exact ⟨until_elapses key 10000 world, fun query => ceilingAnswers_truthful _ key query world⟩
    · cases List.mem_singleton.mp mem
      exact ⟨until_elapses key later world, fun query => ceilingAnswers_truthful _ key query world⟩

def endsBlocked (now : Time) (world : World) : Bool :=
  decide ((world.cursor sampleCursor.key).map Cursor.state = some .blocked)
  && decide (world.dispatches = [{ claimedAt := 10000, phase := .started }])
  && decide (world.clock = now)

def timelyCheck (config : Config) (world : World) : (query : Query) → Answer query → Bool
  | .markBlocked _ _, _ =>
      (world.cursor sampleCursor.key).all fun row =>
        decide (row.updatedAt + config.pendingStale < world.clock)
  | .forgiveTransient _, _ => false
  | _, _ => true

theorem timelyCheck_timely {config : Config} {world : World} {answer : Answer query}
    (checked : timelyCheck config world query answer = true)
    : Timely config sampleCursor.key world query := by
  cases query with
  | markBlocked head maxAttempts =>
      intro row isRow _ _ _
      rw [timelyCheck, isRow] at checked
      exact .inl (of_decide_eq_true checked)
  | forgiveTransient head => cases checked
  | _ => trivial

/-- Three hours after it was started the permitted dispatch has ended, and its head is blocked. -/
theorem blocked_exhausted_sample
    : ∃ world,
        (world.cursor sampleCursor.key).map Cursor.state = some .blocked
        ∧ Exhausted ceilingConfig world := by
  have ran
      : endsWith (endsBlocked 20800)
          (lookAll ceilingConfig sampleCursor.key (timelyCheck ceilingConfig) (ceilingLooks 20800)
            emptyWorld)
        = true := by
    decide +kernel
  have answers
      : ∀ look ∈ ceilingLooks 20800,
          ∀ query world,
            let answer := scripted sampleCursor.key look.2 world query
            timelyCheck ceilingConfig world query answer = true
            → (timely ceilingConfig ceilingGit sampleCursor.key).answers query world answer
                (world.after sampleCursor.key query answer) := by
    intro look mem query world answer checked
    have truthful := (ceilingLooks_happen 20800 sampleCursor.key look mem world).2 query
    exact ⟨rfl, truthful, timelyCheck_timely checked⟩
  have happens := ceilingLooks_happen 20800 sampleCursor.key
  obtain ⟨world, ticks, checked⟩ :=
    Ticks.scripted .start (fun look mem world => (happens look mem world).1) answers ran
  obtain ⟨blocked, _⟩ := Bool.and_eq_true_iff.mp checked
  have isBlocked := of_decide_eq_true (Bool.and_eq_true_iff.mp blocked).1
  obtain ⟨row, isRow, state⟩ := Option.map_eq_some_iff.mp isBlocked
  exact ⟨world, isBlocked, blocked_exhausted ⟨rfl, rfl⟩ ticks row isRow state⟩

/-- An hour after the only permitted dispatch was started, while it is in flight, the head is
blocked.
-/
theorem blocked_in_flight
    : ∃ world,
        Ticks (freely ceilingGit sampleCursor.key) ceilingConfig emptyWorld world
        ∧ (world.cursor sampleCursor.key).map Cursor.state = some .blocked
        ∧ ¬Exhausted ceilingConfig world := by
  have ran
      : endsWith (endsBlocked 13600)
          (lookAll ceilingConfig sampleCursor.key (fun _ _ _ => true)
          (ceilingLooks 13600) emptyWorld)
        = true := by
    decide +kernel
  have answers
      : ∀ look ∈ ceilingLooks 13600,
          ∀ query world,
            let answer := scripted sampleCursor.key look.2 world query
            true = true
            → (freely ceilingGit sampleCursor.key).answers query world answer
                (world.after sampleCursor.key query answer) := by
    intro look mem query world answer _
    exact ⟨rfl, (ceilingLooks_happen 13600 sampleCursor.key look mem world).2 query⟩
  have happens := ceilingLooks_happen 13600 sampleCursor.key
  obtain ⟨world, ticks, checked⟩ :=
    Ticks.scripted .start (fun look mem world => (happens look mem world).1) answers ran
  obtain ⟨blocked, isNow⟩ := Bool.and_eq_true_iff.mp checked
  obtain ⟨isBlocked, dispatches⟩ := Bool.and_eq_true_iff.mp blocked
  refine ⟨world, ticks, of_decide_eq_true isBlocked, fun exhausted => ?_⟩
  have ended := exhausted.ended
  rw [of_decide_eq_true dispatches, of_decide_eq_true isNow] at ended
  rcases ended _ List.mem_cons_self with failed | passed
  · cases failed
  · exact absurd passed (by decide)

end Controller

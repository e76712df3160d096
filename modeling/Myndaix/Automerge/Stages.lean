import Myndaix.Automerge.Gate
import Myndaix.Interaction.Steady

/-! The stages of a tick: an assertion that holds between two pull requests, one while a pull
request is looked at, and one when its decision is to be recorded. What each stage needs from the
calls is enough for the tick as a whole.
-/

namespace Automerge

open Interaction Interaction.Program Text

/-- The calls of a tick before it lists the pull requests. -/
def Starting : Query → Prop
  | .loadRepo | .enabledFlag | .rateLimit | .acquireLock | .connect => True
  | _ => False

/-- The calls of the gate before its bounds. -/
def Preliminary : Query → Prop
  | .mergeQueueRules | .fetch _ | .revParsePr _ | .revParseMain | .mergeBase _ _ | .diffRaw _ _
  | .diffContent _ _ | .diffNumstat _ _ | .checkRuns _ => True
  | _ => False

variable {State : Type} {setting : Setting Query Answer State} {config : Config}

-- The calls of the parts

section Parts

variable {permits : Query → Prop}

/-- A program asks only such queries. -/
abbrev Asks {Result : Type} (permits : Query → Prop) (program : Run Result) : Prop :=
  program.Ensures (anywhere permits) (fun _ _ => True) ()

theorem ciGreen_asks (checks : ∀ head, permits (.checkRuns head)) (head : Str)
    : Asks permits (ciGreen head) := by
  refine .asks (checks head) fun answer => ?_
  match answer with
  | none => exact .returns trivial
  | some [] => exact .returns trivial
  | some (run :: runs) => exact .returns trivial

theorem mergeQueue_asks (rules : permits .mergeQueueRules) : Asks permits mergeQueue := by
  refine .asks rules fun answer => ?_
  match answer with
  | none => exact .returns trivial
  | some rules => exact .returns trivial

theorem bumpAttempt_asks {number : Nat} {head : Str} (makes : permits .mkdirState)
    (reads : permits (.readCounter (.attempts number head)))
    (writes : ∀ value, permits (.writeCounter (.attempts number head) value))
    : Asks permits (bumpAttempt number head) := by
  refine .asks makes fun made => ?_
  split
  · refine .asks reads fun count => .asks (writes _) fun written => ?_
    split
    · exact .returns trivial
    · exact .returns trivial
  · exact .returns trivial

theorem reviewPass_asks {base head : Str} (tokens : permits .tokenHex) (makes : permits .mkdtemp)
    (reviews : ∀ runId, permits (.playReview base head runId)) (reads : permits .readVerdict)
    : Asks permits (reviewPass config base head) := by
  unfold reviewPass
  split
  · exact .returns trivial
  · refine .asks tokens fun runId => .asks makes fun made => ?_
    split
    · refine .asks (reviews runId) fun rc => ?_
      match rc with
      | none => exact .returns trivial
      | some rc =>
          refine .asks reads fun verdict => ?_
          match verdict with
          | none => exact .returns trivial
          | some verdict =>
              dsimp only
              split
              · exact .returns trivial
              · split
                · exact .returns trivial
                · exact .returns trivial
    · exact .returns trivial

end Parts

-- Up to the bounds

section Gate

variable {pr : PullRequest} {budget : Nat} {opened : State → Prop}
  {post : Evaluated → State → Prop} {state : State}

/-- What a call of the gate ensures when it ends before its bounds, and from its bounds on. -/
structure Opens (setting : Setting Query Answer State) (config : Config) (pr : PullRequest)
    (budget : Nat) (opened : State → Prop) (post : Evaluated → State → Prop)
    : Prop where
  steady : Steady setting Preliminary opened
  ends : ∀ decision state, opened state → post { decision, budget } state
  bounds
    : ∀ base state,
        opened state → (boundsStep config pr base budget).Ensures setting post state

theorem Opens.stops (opens : Opens setting config pr budget opened post)
    {decision : Option Decision} (start : opened state)
    : (pure { decision, budget } : Run Evaluated).Ensures setting post state :=
  opens.steady.ends start fun later here => opens.ends decision later here

theorem Opens.sizes (opens : Opens setting config pr budget opened post) {base : Str}
    (start : opened state)
    : (sizeStep config pr base budget).Ensures setting post state := by
  refine opens.steady.asks trivial start fun content after start => ?_
  match content with
  | none => exact opens.stops start
  | some content =>
      dsimp only
      split
      · exact opens.stops start
      · refine opens.steady.asks trivial start fun numstat after start => ?_
        match numstat with
        | none => exact opens.stops start
        | some numstat =>
            dsimp only
            split
            · exact opens.stops start
            · refine Ensures.bind (opens.steady.runs (ciGreen_asks (fun _ => trivial) _) start)
                fun green later start => ?_
              match green with
              | none => exact opens.stops start.2
              | some false => exact opens.stops start.2
              | some true => exact opens.bounds base later start.2

theorem Opens.diffs (opens : Opens setting config pr budget opened post) {base : Str}
    (start : opened state)
    : (diffStep config pr base budget).Ensures setting post state := by
  refine opens.steady.asks trivial start fun out after start => ?_
  match out with
  | none => exact opens.stops start
  | some out =>
      dsimp only
      split
      · exact opens.stops start
      · split
        · exact opens.stops start
        · exact opens.sizes start

theorem Opens.pins (opens : Opens setting config pr budget opened post) (start : opened state)
    : (pinStep config pr budget).Ensures setting post state := by
  refine opens.steady.asks trivial start fun fetched after start => ?_
  split
  · refine opens.steady.asks trivial start fun pinned after start =>
      opens.steady.asks trivial start fun main after start => ?_
    split
    · exact opens.stops start
    · split
      · exact opens.stops start
      · refine opens.steady.asks trivial start fun base after start => ?_
        match base with
        | none => exact opens.stops start
        | some base =>
            dsimp only
            split
            · exact opens.diffs start
            · exact opens.stops start
  · exact opens.stops start

theorem Opens.evaluates (opens : Opens setting config pr budget opened post)
    (start : opened state)
    : (evaluatePr config pr budget).Ensures setting post state := by
  unfold evaluatePr
  split
  · exact opens.stops start
  · split
    · exact opens.stops start
    · split
      · exact opens.stops start
      · split
        · exact opens.stops start
        · split
          · exact opens.stops start
          · refine Ensures.bind (opens.steady.runs (mergeQueue_asks trivial) start)
              fun queued later start => ?_
            split
            · exact opens.stops start.2
            · exact opens.pins start.2

end Gate

-- The whole tick

/-- Assertions for the stages of a tick, given the pull requests that it has listed. -/
structure Stages (State : Type) where
  sound : List PullRequest → State → Prop
  opened : List PullRequest → PullRequest → State → Prop
  judged : List PullRequest → PullRequest → Evaluated → State → Prop

/-- What the calls have to keep for the stages to follow one another. -/
structure Stages.Kept (stages : Stages State) (setting : Setting Query Answer State)
    (config : Config) (repo : Repo)
    : Prop where
  starts : Steady setting Starting (stages.sound [])
  loads
    : ∀ {before loaded after},
        stages.sound [] before → setting.answers .loadRepo before (some loaded) after
          → loaded = repo
  between : ∀ {prs}, Steady setting (fun _ => False) (stages.sound prs)
  judges : ∀ {prs pr evaluated}, Steady setting (fun _ => False) (stages.judged prs pr evaluated)
  lists
    : ∀ {state},
        stages.sound [] state
        → setting.permits state .prList
          ∧ ∀ {listed after},
              setting.answers .prList state listed after → stages.sound (listed.getD []) after
  looks
    : ∀ {prs pr state},
        pr ∈ prs
        → stages.sound prs state
        → setting.permits state (.automergeDecision repo.repoId pr.number pr.headRefOid)
          ∧ ∀ {prior after},
              setting.answers (.automergeDecision repo.repoId pr.number pr.headRefOid)
                state prior after
              → if prior = none then stages.opened prs pr after else stages.sound prs after
  opens
    : ∀ {prs pr budget},
        pr ∈ prs
        → Opens setting config pr budget (stages.opened prs pr) (stages.judged prs pr)
  defers
    : ∀ {prs pr evaluated state},
        stages.judged prs pr evaluated state → evaluated.decision = none → stages.sound prs state
  records
    : ∀ {prs pr evaluated decision state},
        stages.judged prs pr evaluated state
        → evaluated.decision = some decision
        → setting.permits state
            (.recordAutomerge repo.repoId pr.number pr.headRefOid decision)
          ∧ ∀ {answer after},
              setting.answers (.recordAutomerge repo.repoId pr.number pr.headRefOid decision) state
                answer after
              → stages.sound prs after
  ends : ∀ {prs state}, stages.sound prs state → stages.sound [] state

namespace Stages.Kept

variable {stages : Stages State} {repo : Repo} {state : State}

/-- By induction on the pull requests that are left. -/
theorem evaluatesAll (kept : stages.Kept setting config repo) {prs rest : List PullRequest}
    {budget : Nat} (among : ∀ pr ∈ rest, pr ∈ prs) (start : stages.sound prs state)
    : (evaluateAll config repo budget rest).Ensures setting (fun _ later => stages.sound [] later)
        state := by
  have ends {result : Nat} {state : State} (start : stages.sound prs state)
      : (pure result : Run Nat).Ensures setting (fun _ later => stages.sound [] later) state :=
    kept.between.ends start fun _ here => kept.ends here
  induction rest generalizing budget state with
  | nil => exact ends start
  | cons pr rest ih =>
      have isListed := among pr List.mem_cons_self
      have others : ∀ pr ∈ rest, pr ∈ prs :=
        fun other mem => among other (List.mem_cons_of_mem _ mem)
      unfold evaluateAll
      split
      · exact ih others start
      · refine kept.between.calls start (fun _ here => (kept.looks isListed here).1)
          fun prior before after here answered => ?_
        have looked := (kept.looks isListed here).2 answered
        split
        · rename_i isDecided
          rw [if_neg isDecided] at looked
          exact ih others looked
        · rename_i undecided
          rw [if_pos (not_not.mp undecided)] at looked
          refine Ensures.bind ((kept.opens isListed).evaluates looked)
            fun evaluated later judged => ?_
          split
          · rename_i decision isDecided
            refine kept.judges.calls judged (fun _ here => (kept.records here isDecided).1)
              fun _ before after here answered => ?_
            have recorded := (kept.records here isDecided).2 answered
            split
            · exact ends recorded
            · exact ih others recorded
          · rename_i undecided
            have deferred := kept.defers judged undecided
            split
            · exact ends deferred
            · exact ih others deferred

/-- A tick keeps what holds between two pull requests. -/
theorem ticks (kept : stages.Kept setting config repo) (start : stages.sound [] state)
    : (tick config).Ensures setting (fun _ later => stages.sound [] later) state := by
  have ends {result : Nat} {state : State} (start : stages.sound [] state)
      : (pure result : Run Nat).Ensures setting (fun _ later => stages.sound [] later) state :=
    kept.between.ends start fun _ here => here
  refine kept.starts.calls start
    (fun _ here => kept.starts.permits (show Starting .loadRepo from trivial) here)
    fun loaded before after here answered => ?_
  have start := kept.starts.step (show Starting .loadRepo from trivial) here answered
  match loaded with
  | none => exact ends start
  | some loaded =>
      obtain rfl := kept.loads here answered
      refine kept.starts.asks trivial start fun enabled after start => ?_
      split
      · refine kept.starts.asks trivial start fun remaining after start => ?_
        match remaining with
        | none => exact ends start
        | some remaining =>
            dsimp only
            split
            · exact ends start
            · refine kept.starts.asks trivial start fun acquired after start => ?_
              split
              · refine kept.starts.asks trivial start fun _ after start => ?_
                refine kept.starts.calls start (fun _ here => (kept.lists here).1)
                  fun prs before after here answered => ?_
                have listed := (kept.lists here).2 answered
                match prs with
                | none => exact ends (kept.ends listed)
                | some prs => exact kept.evaluatesAll (fun _ mem => mem) listed
              · exact ends start
      · exact ends start

end Stages.Kept

end Automerge

import Myndaix.Automerge.Merge
import Myndaix.Automerge.Stages

/-! The paid review panels of a head, over any number of ticks: each is to end in a recorded
decision, in a shadow mark, or in a counted attempt, or else the next tick pays for the same panel.
-/

namespace Automerge

open Interaction Interaction.Program Text

-- What outlives a tick

/-- A review panel that was started. -/
structure Panel where
  base : Str
  head : Str
  runId : Str
  rc : Option Int
deriving DecidableEq

/-- The verdict file is the one of this panel, which passed. -/
def Panel.passes (panel : Panel) (verdict : Verdict) : Prop :=
  panel.rc = some 0
  ∧ verdict
    = { runId := panel.runId, base := panel.base, head := panel.head, verdict := "PASS".toList }

/-- The attempt counters, the decisions and the shadow marks of a repository, the panels that were
paid for, and where the tick is: what it listed, which pull request it looks at, and the panel that
it has paid for and not yet accounted for. A panel is booked if a decision or a counter was written
because of it.
-/
structure Desk where
  attempts : Nat → Str → Contents
  seen : Nat → Str → Bool
  marked : Nat → Str → Bool
  listed : List PullRequest
  current : Nat
  paid : Option Panel
  panels : List (Nat × Str × Str)
  booked : List (Nat × Str)
  merges : List Nat

namespace Desk

/-- The panels of a head of a pull request, against any base. -/
def panelsOf (desk : Desk) (number : Nat) (head : Str) : Nat :=
  desk.panels.countP (fun panel => panel.1 = number ∧ panel.2.1 = head)

/-- Something is written that outlives the tick. -/
def book (desk : Desk) : Desk :=
  match desk.paid with
  | some panel => { desk with booked := (desk.current, panel.head) :: desk.booked }
  | none => desk

/-- The next pull request is looked up. -/
def turn (desk : Desk) (number : Nat) : Desk :=
  { desk with current := number, paid := none }

def pay (desk : Desk) (base head runId : Str) (rc : Option Int) : Desk :=
  {
    desk with
    paid := some { base, head, runId, rc }
    panels := (desk.current, head, base) :: desk.panels
  }

def count (desk : Desk) (number : Nat) (head : Str) (left : Contents) : Desk :=
  { desk with attempts := Function.update desk.attempts number
                (Function.update (desk.attempts number) head left) }

/-- A panel is accounted for. -/
def settle (desk : Desk) : Desk :=
  { desk with paid := none }

def record (desk : Desk) (number : Nat) (head : Str) : Desk :=
  { desk with seen := Function.update desk.seen number
                (Function.update (desk.seen number) head true) }

def mark (desk : Desk) (number : Nat) (head : Str) : Desk :=
  { desk with marked := Function.update desk.marked number
                (Function.update (desk.marked number) head true) }

end Desk

/-- What a query can be answered, and what it does. Shadow marks can be made only where the
directory is that their name, with the slash of the repository in it, leads to. A file may be
unreadable for once, and a write that fails leaves no negative number behind.
-/
def serves (config : Config) (repo : Repo) (markable : Bool)
    : (query : Query) → Desk → Answer query → Desk → Prop
  | .loadRepo, before, loaded, after =>
      (∀ other, loaded = some other → other = repo) ∧ after = before
  | .prList, before, listed, after => after = { before with listed := listed.getD [] }
  | .automergeDecision _ number head, before, prior, after =>
      (prior = none ↔ before.seen number head = false) ∧ after = before.turn number
  | .shadowExists number head, before, marked, after =>
      marked = before.marked number head ∧ after = before
  | .shadowTouch number head, before, _, after =>
      markable = true ∧ after = (before.mark number head).settle
  | .playReview base head runId, before, rc, after => after = before.pay base head runId rc
  | .readCounter (.attempts number head), before, contents, after =>
      (contents = before.attempts number head ∨ contents = .unreadable) ∧ after = before
  | .writeCounter (.attempts number head) value, before, written, after =>
      ∃ left,
        0 ≤ countOf left
        ∧ (written = true → left = .number value)
        ∧ after
          = if written = true ∧ value < config.maxReviewAttempts then
              (before.book.count number head left).settle
            else before.book.count number head left
  | .writeCounter _ _, before, _, after => after = before.book
  | .recordAutomerge _ number head _, before, _, after =>
      after = (before.book.record number head).settle
  | .recordOverride number _ _, before, _, after
  | .mergePut number _, before, _, after =>
      after = { before with merges := number :: before.merges }
  | _, before, _, after => after = before

/-- The ticks on one repository are alone with its state. -/
def panelWorld (config : Config) (repo : Repo) (markable : Bool)
    (concludes : (query : Query) → Desk → Answer query → Prop) (permits : Desk → Prop)
    : Setting Query Answer Desk where
  interferes := fun before after => after = before
  answers := fun query before answer after =>
    serves config repo markable query before answer after ∧ concludes query before answer
  permits := fun desk _ => permits desk
  interferes_refl := fun _ => rfl
  interferes_trans := fun first second => second.trans first

-- Calls that change little

/-- A call after which the same panels are paid, counted, recorded and marked as before. -/
def Calm : Query → Prop
  | .prList | .automergeDecision _ _ _ | .shadowTouch _ _ | .playReview _ _ _
  | .writeCounter (.attempts _ _) _ | .recordAutomerge _ _ _ _ => False
  | _ => True

variable {query : Query} {booked : List (Nat × Str)} {merges : List Nat} {number : Nat} {head : Str}

section Calm

variable {config : Config} {repo : Repo} {markable : Bool}
  {concludes : (query : Query) → Desk → Answer query → Prop} {permits holds : Desk → Prop}

theorem Desk.book_eq (desk : Desk)
    : ∃ booked, desk.book = { desk with booked } ∧ (desk.paid = none → booked = desk.booked) := by
  unfold Desk.book
  split
  · rename_i panel paid
    exact ⟨_, rfl, fun settled => by rw [settled] at paid; cases paid⟩
  · exact ⟨desk.booked, rfl, fun _ => rfl⟩

/-- Without a panel to account for, a calm call books nothing. -/
theorem Calm.serves (calm : Calm query) {before after : Desk} {answer : Answer query}
    (served : serves config repo markable query before answer after)
    : ∃ booked merges,
        after = { before with booked, merges } ∧ (before.paid = none → booked = before.booked) := by
  have unchanged (same : after = before)
      : ∃ booked merges,
          after = { before with booked, merges } ∧ (before.paid = none → booked = before.booked) :=
    ⟨before.booked, before.merges, same, fun _ => rfl⟩
  cases query with
  | loadRepo => exact unchanged served.2
  | shadowExists => exact unchanged served.2
  | prList | automergeDecision | shadowTouch | playReview | recordAutomerge => exact calm.elim
  | mergePut number head => exact ⟨_, _, served, fun _ => rfl⟩
  | recordOverride number head base => exact ⟨_, _, served, fun _ => rfl⟩
  | readCounter counter =>
      cases counter with
      | attempts number head => exact unchanged served.2
      | day | author => exact unchanged served
  | writeCounter counter value =>
      cases counter with
      | attempts number head => exact calm.elim
      | day | author =>
          obtain ⟨booked, same, unbooked⟩ := before.book_eq
          exact ⟨booked, before.merges, served.trans same, unbooked⟩
  | _ => exact unchanged served

/-- An assertion that says nothing about what was booked for a panel, or merged, survives calm
calls.
-/
theorem calm_steady
    (ignores
      : ∀ {desk booked merges},
          (desk.paid = none → booked = desk.booked) → holds desk
          → holds { desk with booked, merges })
    (allowed : ∀ {desk}, holds desk → permits desk)
    : Steady (panelWorld config repo markable concludes permits) Calm holds where
  stable := fun here same => same ▸ here
  permits := fun _ here => allowed here
  step := by
    intro query before after later calm here answered
    obtain ⟨booked, merges, rfl, unbooked⟩ := calm.serves answered.1
    exact ignores unbooked here

theorem Preliminary.calm (preliminary : Preliminary query) : Calm query := by
  cases query <;> first | exact preliminary.elim | trivial

theorem Starting.calm (starting : Starting query) : Calm query := by
  cases query <;> first | exact starting.elim | trivial

/-- The bounds, and then the review of a head that has no shadow mark. -/
theorem boundsStep_reviews {pr : PullRequest} {base : Str} {budget : Nat} {desk : Desk}
    {post : Evaluated → Desk → Prop}
    (steady : Steady (panelWorld config repo markable concludes permits) Calm holds)
    (ends : ∀ desk, holds desk → post (deferred budget) desk)
    (reviews
      : ∀ desk,
          holds desk
          → (config.shadowCode = true → desk.marked pr.number (pr.headRefOid.take 16) = false)
          → (reviewStep config pr base budget).Ensures
              (panelWorld config repo markable concludes permits) post desk)
    (start : holds desk)
    : (boundsStep config pr base budget).Ensures
        (panelWorld config repo markable concludes permits) post desk := by
  have stops {desk : Desk} (here : holds desk)
      : (pure (deferred budget) : Run Evaluated).Ensures
          (panelWorld config repo markable concludes permits) post desk :=
    steady.ends here ends
  unfold boundsStep
  split
  · exact stops start
  · split
    · split
      · refine steady.calls start (fun _ here => steady.permits trivial here)
          fun marked before after here answered => ?_
        have there := steady.step (show Calm (.shadowExists _ _) from trivial) here answered
        obtain ⟨⟨isMarked, rfl⟩, _⟩ := answered
        split
        · exact stops there
        · rename_i unmarked
          refine reviews after there fun _ => ?_
          rw [← isMarked]
          simpa using unmarked
      · rename_i unshadowed
        exact reviews desk start fun shadow => absurd shadow unshadowed
    · rename_i live
      refine steady.asks trivial start fun day after start =>
        steady.asks trivial start fun count after start => ?_
      split
      · exact stops start
      · refine steady.asks trivial start fun day after start =>
          steady.asks trivial start fun count after start => ?_
        split
        · exact stops start
        · exact reviews after start fun shadow => absurd (config.shadowIsDry shadow) live

end Calm

-- Panels within the limit

/-- The panel that was paid for last, and is not accounted for, is one of this head. -/
def Desk.Owes (desk : Desk) (number : Nat) (head : Str) : Prop :=
  desk.current = number ∧ ∃ panel, desk.paid = some panel ∧ panel.head = head

/-- Nothing keeps the next tick from reviewing the head. -/
def Unsettled (config : Config) (desk : Desk) (number : Nat) (head : Str) : Prop :=
  desk.seen number head = false
  ∧ (config.shadowCode = true → desk.marked number (head.take 16) = false)

/-- No head has had more panels than the limit allows, and one that can be reviewed again has its
panels counted, below the limit.
-/
structure Billed (config : Config) (desk : Desk) : Prop where
  counters : ∀ number head, 0 ≤ countOf (desk.attempts number head)
  bounded : ∀ number head, desk.panelsOf number head ≤ max 1 config.maxReviewAttempts
  counted
    : ∀ number head,
        Unsettled config desk number head
        → ¬desk.Owes number head
        → (desk.panelsOf number head : Int) ≤ countOf (desk.attempts number head)
          ∧ (desk.panelsOf number head = 0
            ∨ desk.panelsOf number head < config.maxReviewAttempts)

/-- What follows a panel comes out well: a pass leads to a confirmed merge or to a shadow mark, and
an attempt is counted, or the decision not to try again is due.
-/
def Concludes (config : Config) : (query : Query) → Desk → Answer query → Prop
  | .readVerdict, desk, answer =>
      ∀ panel verdict,
        desk.paid = some panel
        → answer = some verdict
        → panel.passes verdict
        → config.dryRun = true
        → config.shadowCode = true
  | .prView number, desk, answer =>
      desk.paid.isSome = true
      → ∃ view,
          answer = some view
          ∧ view.state = "OPEN".toList
          ∧ view.mergeStateStatus ∈ clean
          ∧ ∀ pr ∈ desk.listed,
              pr.number = number
              → view.headRefOid = pr.headRefOid ∧ view.baseRefOid = pr.baseRefOid
  | .mergeQueueRules, desk, answer =>
      desk.paid.isSome = true → ∃ rules, answer = some rules ∧ some "merge_queue".toList ∉ rules
  | .checkRuns _, desk, answer =>
      desk.paid.isSome = true
      → ∃ run runs, answer = some (run :: runs) ∧ ciOf (run :: runs) = some true
  | .mergePut _ _, desk, answer =>
      desk.paid.isSome = true → ∃ merge, answer = some merge ∧ merge.merged = true
  | .mkdirState, _, made => made = true ∨ (config.maxReviewAttempts : Int) ≤ overCap
  | .readCounter (.attempts number head), desk, contents =>
      contents = desk.attempts number head ∨ (config.maxReviewAttempts : Int) ≤ overCap
  | .writeCounter (.attempts _ _) _, desk, written =>
      written = true
      ∨ desk.paid.isSome = true ∧ (config.maxReviewAttempts : Int) ≤ overCap
  | _, _, _ => True

/-- The panels of a head of a pull request that was listed. -/
structure At (config : Config) (prs : List PullRequest) (pr : PullRequest)
    (desk : Desk) : Prop where
  billed : Billed config desk
  listed : ∀ pr ∈ prs, pr ∈ desk.listed
  current : desk.current = pr.number

/-- The panel that is not accounted for, if any, is one of this head, and would lead to a merge or
to a shadow mark.
-/
structure Merging (config : Config) (prs : List PullRequest) (pr : PullRequest) (desk : Desk)
    : Prop where
  at_ : At config prs pr desk
  paid
    : ∀ panel,
        desk.paid = some panel
        → panel.head = pr.headRefOid ∧ (config.dryRun = true → config.shadowCode = true)

section Billing

variable {config : Config} {repo : Repo} {markable : Bool} {prs : List PullRequest}
  {pr : PullRequest} {base : Str} {budget : Nat} {desk : Desk}

/-- The world of the ticks in which every panel is concluded. -/
abbrev concluding (config : Config) (repo : Repo) (markable : Bool) : Setting Query Answer Desk :=
  panelWorld config repo markable (Concludes config) (Billed config)

theorem Billed.ignores (billed : Billed config desk)
    : Billed config { desk with booked, merges } :=
  ⟨billed.counters, billed.bounded, billed.counted⟩

theorem At.ignores (at_ : At config prs pr desk)
    : At config prs pr { desk with booked, merges } :=
  ⟨at_.billed.ignores, at_.listed, at_.current⟩

/-- Without a panel that is not accounted for, every head that can be reviewed is counted. -/
theorem Billed.settled (billed : Billed config desk) (settled : desk.paid = none)
    (unsettled : Unsettled config desk number head)
    : (desk.panelsOf number head : Int) ≤ countOf (desk.attempts number head)
      ∧ (desk.panelsOf number head = 0 ∨ desk.panelsOf number head < config.maxReviewAttempts) := by
  refine billed.counted number head unsettled ?_
  intro owes
  obtain ⟨_, panel, paid, _⟩ := owes
  rw [settled] at paid
  cases paid

theorem Desk.panelsOf_pay (runId : Str) (rc : Option Int) (number : Nat) (head other : Str)
    : (desk.pay base head runId rc).panelsOf number other
      = desk.panelsOf number other + if desk.current = number ∧ head = other then 1 else 0 := by
  simp [Desk.panelsOf, Desk.pay, List.countP_cons]

/-- A panel of the head was paid for, which its counter does not have yet. -/
structure Charged (config : Config) (prs : List PullRequest) (pr : PullRequest) (panel : Panel)
    (desk : Desk)
    : Prop where
  at_ : At config prs pr desk
  paid : desk.paid = some panel
  head : panel.head = pr.headRefOid
  lacks
    : (desk.panelsOf pr.number pr.headRefOid : Int)
      ≤ countOf (desk.attempts pr.number pr.headRefOid) + 1

theorem Charged.ignores {panel : Panel} (charged : Charged config prs pr panel desk)
    : Charged config prs pr panel { desk with booked, merges } :=
  ⟨charged.at_.ignores, charged.paid, charged.head, charged.lacks⟩

/-- The panel that is not accounted for, if one was paid for, is one of this head. -/
structure Due (config : Config) (prs : List PullRequest) (pr : PullRequest)
    (desk : Desk) : Prop where
  at_ : At config prs pr desk
  charged : ∀ panel, desk.paid = some panel → Charged config prs pr panel desk

theorem Due.ignores (due : Due config prs pr desk)
    : Due config prs pr { desk with booked, merges } :=
  ⟨due.at_.ignores, fun panel paid => (due.charged panel paid).ignores⟩

/-- The state before the review of a head that has no decision and no shadow mark. -/
structure Reviewable (config : Config) (prs : List PullRequest) (pr : PullRequest) (desk : Desk)
    : Prop where
  at_ : At config prs pr desk
  settled : desk.paid = none
  unsettled : Unsettled config desk pr.number pr.headRefOid

/-- Paying for a panel of a head that can be reviewed stays within the limit. -/
theorem Reviewable.pay (reviewable : Reviewable config prs pr desk) (runId : Str)
    (rc : Option Int)
    : Charged config prs pr { base, head := pr.headRefOid, runId, rc }
        (desk.pay base pr.headRefOid runId rc) := by
  obtain ⟨at_, settled, unsettled⟩ := reviewable
  have billed := at_.billed
  have counted := billed.settled settled unsettled
  have nonneg := billed.counters pr.number pr.headRefOid
  have one (number : Nat) (head : Str)
      : (desk.pay base pr.headRefOid runId rc).panelsOf number head
        = desk.panelsOf number head
          + if pr.number = number ∧ pr.headRefOid = head then 1 else 0 := by
    rw [Desk.panelsOf_pay, at_.current]
  refine { at_ := { billed := ?_, listed := at_.listed, current := at_.current }, paid := rfl,
           head := rfl, lacks := ?_ }
  · refine { counters := billed.counters, bounded := ?_, counted := ?_ }
    · intro number head
      rw [one]
      split
      · rename_i same
        obtain ⟨rfl, rfl⟩ := same
        omega
      · exact billed.bounded number head
    · intro number head canReview notOwed
      have other : ¬(pr.number = number ∧ pr.headRefOid = head) := by
        intro same
        exact notOwed ⟨at_.current.trans same.1, _, rfl, same.2⟩
      rw [one, if_neg other, Nat.add_zero]
      exact billed.settled settled canReview
  · rw [one, if_pos ⟨rfl, rfl⟩]
    change _ ≤ countOf (desk.attempts pr.number pr.headRefOid) + 1
    omega

/-- Writing a counter, as far as the other heads go. -/
theorem Desk.attempts_count {left : Contents} (other : Nat) (some_ : Str)
    : (desk.count number head left).attempts other some_
      = if other = number ∧ some_ = head then left else desk.attempts other some_ := by
  unfold Desk.count
  by_cases same : other = number
  · subst same
    by_cases sameHead : some_ = head
    · subst sameHead
      simp
    · simp [sameHead]
  · simp [same]

/-- A head whose counter is written stays within the limit if it owes a panel, or if the counter
grows beyond its panels.
-/
theorem Billed.count {left : Contents} (billed : Billed config desk) (nonneg : 0 ≤ countOf left)
    (enough
      : desk.Owes number head
        ∨ (Unsettled config desk number head
          → (desk.panelsOf number head : Int) ≤ countOf left
            ∧ (desk.panelsOf number head = 0
              ∨ desk.panelsOf number head < config.maxReviewAttempts)))
    : Billed config (desk.count number head left) := by
  refine { counters := ?_, bounded := billed.bounded, counted := ?_ }
  · intro other some_
    rw [Desk.attempts_count]
    split
    · exact nonneg
    · exact billed.counters other some_
  · intro other some_ unsettled notOwed
    rw [Desk.attempts_count]
    split
    · rename_i same
      obtain ⟨rfl, rfl⟩ := same
      rcases enough with owed | grown
      · exact absurd owed notOwed
      · exact grown unsettled
    · exact billed.counted other some_ unsettled notOwed

/-- A panel may be taken as accounted for when its head is within the limit. -/
theorem Billed.settle (billed : Billed config desk)
    (counted
      : ∀ number head,
          desk.Owes number head
          → Unsettled config desk number head
          → (desk.panelsOf number head : Int) ≤ countOf (desk.attempts number head)
            ∧ (desk.panelsOf number head = 0
              ∨ desk.panelsOf number head < config.maxReviewAttempts))
    : Billed config desk.settle := by
  refine { counters := billed.counters, bounded := billed.bounded, counted := ?_ }
  intro number head unsettled _
  by_cases owed : desk.Owes number head
  · exact counted number head owed unsettled
  · exact billed.counted number head unsettled owed

/-- After a counter is written: either nothing is owed any more, or no further attempt is due. -/
structure Bumped (config : Config) (prs : List PullRequest) (pr : PullRequest) (attempts : Int)
    (desk : Desk)
    : Prop where
  at_ : At config prs pr desk
  paid
    : ∀ panel,
        desk.paid = some panel
        → panel.head = pr.headRefOid ∧ (config.maxReviewAttempts : Int) ≤ attempts

/-- Before the counter is written, with the number that was read. -/
structure Counting (config : Config) (prs : List PullRequest) (pr : PullRequest) (count : Int)
    (desk : Desk)
    : Prop where
  due : Due config prs pr desk
  read
    : count = countOf (desk.attempts pr.number pr.headRefOid)
      ∨ count = overCap ∧ (config.maxReviewAttempts : Int) ≤ overCap

theorem Due.owes {panel : Panel} (due : Due config prs pr desk) (paid : desk.paid = some panel)
    : desk.Owes pr.number pr.headRefOid :=
  ⟨due.at_.current, panel, paid, (due.charged panel paid).head⟩

/-- An attempt that is not the last one is enough for the panel. -/
theorem Counting.settled {count : Int} (counting : Counting config prs pr count desk)
    (below : count + 1 < config.maxReviewAttempts)
    : Bumped config prs pr (count + 1)
        (desk.count pr.number pr.headRefOid (.number (count + 1))).settle := by
  obtain ⟨due, read⟩ := counting
  have billed := due.at_.billed
  have counted : count = countOf (desk.attempts pr.number pr.headRefOid) := by
    rcases read with same | ⟨isOver, limit⟩
    · exact same
    · omega
  have nonneg := billed.counters pr.number pr.headRefOid
  have nonneg' : 0 ≤ count + 1 := by omega
  have enough (unsettled : Unsettled config desk pr.number pr.headRefOid)
      : (desk.panelsOf pr.number pr.headRefOid : Int) ≤ count + 1
        ∧ (desk.panelsOf pr.number pr.headRefOid = 0
          ∨ desk.panelsOf pr.number pr.headRefOid < config.maxReviewAttempts) := by
    cases paid : desk.paid with
    | none =>
        have within := billed.settled paid unsettled
        exact ⟨by omega, within.2⟩
    | some panel =>
        have lacks := (due.charged panel paid).lacks
        exact ⟨by omega, .inr (by omega)⟩
  refine { at_ := { billed := ?_, listed := due.at_.listed, current := due.at_.current },
           paid := nofun }
  have written
      : Billed config (desk.count pr.number pr.headRefOid (.number (count + 1))) :=
    billed.count (show 0 ≤ countOf (.number (count + 1)) from nonneg') (.inr enough)
  refine written.settle fun number head owes unsettled => ?_
  obtain ⟨isCurrent, panel, paid, rfl⟩ := owes
  obtain rfl : number = pr.number := isCurrent.symm.trans due.at_.current
  have sameHead := (due.charged panel paid).head
  rw [Desk.attempts_count, if_pos ⟨rfl, sameHead⟩, sameHead]
  exact enough (sameHead ▸ unsettled)

/-- After the last attempt, nothing more is due. -/
theorem Counting.bumped {count : Int} (counting : Counting config prs pr count desk)
    (atLimit : config.maxReviewAttempts ≤ count + 1)
    : Bumped config prs pr (count + 1)
        (desk.count pr.number pr.headRefOid (.number (count + 1))) := by
  obtain ⟨due, read⟩ := counting
  have billed := due.at_.billed
  have nonneg := billed.counters pr.number pr.headRefOid
  have positive : 0 ≤ countOf (.number (count + 1)) := by
    change 0 ≤ count + 1
    rcases read with same | ⟨isOver, _⟩
    · omega
    · rw [isOver, overCap]
      omega
  refine
    {
      at_ := { billed := billed.count positive ?_, listed := due.at_.listed,
               current := due.at_.current }
      paid := fun panel paid => ⟨(due.charged panel paid).head, atLimit⟩
    }
  cases paid : desk.paid with
  | some panel => exact .inl (due.owes paid)
  | none =>
      refine .inr fun unsettled => ?_
      have within := billed.settled paid unsettled
      refine ⟨?_, within.2⟩
      change _ ≤ count + 1
      omega

/-- The result, once a panel was paid for, is this one. -/
abbrev Comes {Result : Type} (config : Config) (repo : Repo) (markable : Bool)
    (prs : List PullRequest) (pr : PullRequest) (program : Run Result) (expected : Result)
    (desk : Desk)
    : Prop :=
  program.Ensures (concluding config repo markable)
    (fun result later =>
      Merging config prs pr later ∧ (later.paid.isSome = true → result = expected))
    desk

theorem Comes.ends {Result : Type} {result expected : Result}
    (merging : Merging config prs pr desk) (comes : desk.paid.isSome = true → result = expected)
    : Comes config repo markable prs pr (pure result) expected desk :=
  Ensures.done fun _ same => same ▸ ⟨merging, comes⟩

theorem Billed.turn (billed : Billed config desk) (settled : desk.paid = none) (number : Nat)
    : Billed config (desk.turn number) where
  counters := billed.counters
  bounded := billed.bounded
  counted := fun _ _ unsettled _ => billed.settled settled unsettled

/-- Recording a decision accounts for the panel. -/
theorem Billed.record (billed : Billed config desk) (current : desk.current = number)
    (paid : ∀ panel, desk.paid = some panel → panel.head = head)
    : Billed config (desk.record number head).settle where
  counters := billed.counters
  bounded := billed.bounded
  counted := by
    intro other some_ unsettled _
    obtain ⟨unseen, unmarked⟩ := unsettled
    have different : ¬(other = number ∧ some_ = head) := by
      intro same
      simp [Desk.record, Desk.settle, same] at unseen
    refine billed.counted other some_ ⟨?_, unmarked⟩ ?_
    · by_cases sameNumber : other = number
      · subst sameNumber
        have otherHead : some_ ≠ head := fun same => different ⟨rfl, same⟩
        simpa [Desk.record, Desk.settle, otherHead] using unseen
      · simpa [Desk.record, Desk.settle, sameNumber] using unseen
    · intro owes
      obtain ⟨isCurrent, panel, isPaid, rfl⟩ := owes
      exact different ⟨isCurrent.symm.trans current, paid panel isPaid⟩

end Billing

-- Runs of ticks

/-- No panel was paid for yet, and no counter is negative. -/
structure Desk.Fresh (desk : Desk) : Prop where
  panels : desk.panels = []
  booked : desk.booked = []
  merges : desk.merges = []
  paid : desk.paid = none
  positive : ∀ number head, 0 ≤ countOf (desk.attempts number head)

theorem Desk.Fresh.billed {desk : Desk} (fresh : desk.Fresh) (config : Config)
    : Billed config desk where
  counters := fresh.positive
  bounded := fun number head => by simp [Desk.panelsOf, fresh.panels]
  counted := fun number head _ _ => by
    simpa [Desk.panelsOf, fresh.panels] using fresh.positive number head

section Samples

/-- What an event changes as far as panels go. -/
inductive Move where
  | list (prs : List PullRequest)
  | turn (number : Nat)
  | pay (base head runId : Str) (rc : Option Int)
deriving DecidableEq

def Desk.move (desk : Desk) : Move → Desk
  | .list prs => { desk with listed := prs }
  | .turn number => desk.turn number
  | .pay base head runId rc => desk.pay base head runId rc

def sampleRepo : Repo where
  nwo := "o/r".toList
  repoId := "o/r".toList

/-- The moves of an event, if it leaves nothing behind and finds nothing. -/
def moves : Event Query Answer → Option (List Move)
  | ⟨.loadRepo, loaded⟩ => if loaded = some sampleRepo then some [] else none
  | ⟨.prList, listed⟩ => some [.list (listed.getD [])]
  | ⟨.automergeDecision _ number _, prior⟩ => if prior = none then some [.turn number] else none
  | ⟨.playReview base head runId, rc⟩ => some [.pay base head runId rc]
  | ⟨.shadowExists _ _, marked⟩ => if marked = true then none else some []
  | ⟨.shadowTouch _ _, _⟩ | ⟨.readCounter (.attempts _ _), _⟩ | ⟨.writeCounter _ _, _⟩
  | ⟨.recordAutomerge _ _ _ _, _⟩ | ⟨.recordOverride _ _ _, _⟩ | ⟨.mergePut _ _, _⟩ => none
  | _ => some []

/-- Nothing was decided or marked. -/
def Desk.Blank (desk : Desk) : Prop :=
  (∀ number head, desk.seen number head = false) ∧ ∀ number head, desk.marked number head = false

variable {config : Config} {markable : Bool}

/-- The world of the ticks, whatever is answered. -/
abbrev unsure (config : Config) (markable : Bool) : Setting Query Answer Desk :=
  panelWorld config sampleRepo markable (fun _ _ _ => True) (fun _ => True)

variable {desk : Desk}

theorem moves_serves {event : Event Query Answer} {steps : List Move}
    (moved : moves event = some steps) (blank : desk.Blank)
    : serves config sampleRepo markable event.1 desk event.2 (steps.foldl Desk.move desk)
      ∧ (steps.foldl Desk.move desk).Blank := by
  obtain ⟨query, answer⟩ := event
  cases query
  case loadRepo =>
    simp only [moves, Option.ite_none_right_eq_some, Option.some.injEq] at moved
    obtain ⟨rfl, rfl⟩ := moved
    exact ⟨⟨fun other same => (Option.some.inj same).symm, rfl⟩, blank⟩
  case automergeDecision repoId number head =>
    simp only [moves, Option.ite_none_right_eq_some, Option.some.injEq] at moved
    obtain ⟨rfl, rfl⟩ := moved
    exact ⟨⟨iff_of_true rfl (blank.1 number head), rfl⟩, blank⟩
  case shadowExists number head =>
    simp only [moves, Option.ite_none_left_eq_some, Option.some.injEq] at moved
    obtain ⟨unmarked, rfl⟩ := moved
    exact ⟨⟨(Bool.eq_false_iff.mpr unmarked).trans (blank.2 number head).symm, rfl⟩, blank⟩
  case readCounter counter =>
    cases counter with
    | attempts number head => cases moved
    | day | author =>
        obtain rfl := Option.some.inj moved
        exact ⟨rfl, blank⟩
  case shadowTouch | writeCounter | recordAutomerge | recordOverride | mergePut => cases moved
  all_goals
    obtain rfl := Option.some.inj moved
    exact ⟨rfl, blank⟩

/-- The part of a tick in which every event is a move. -/
theorem executes_moves (answers : (query : Query) → Answer query) (calls : Nat)
    (tame
      : ((tick config).log answers |>.take calls).all (fun event => (moves event).isSome) = true)
    (blank : desk.Blank)
    : ∃ after : Desk,
        (tick config).Executes (unsure config markable) desk none after
        ∧ after.Blank
        ∧ after
          = (((tick config).log answers |>.take calls).flatMap
              (fun event => (moves event).getD [])).foldl Desk.move desk := by
  let effect (desk : Desk) (event : Event Query Answer) : Desk :=
    ((moves event).getD []).foldl Desk.move desk
  have step (event : Event Query Answer) (mem : event ∈ ((tick config).log answers).take calls)
      (desk : Desk) (blank : desk.Blank)
      : (unsure config markable).answers event.1 desk event.2 (effect desk event)
        ∧ (effect desk event).Blank := by
    obtain ⟨steps, moved⟩ := Option.isSome_iff_exists.mp (List.all_eq_true.mp tame event mem)
    have served
        : serves config sampleRepo markable event.1 desk event.2 (steps.foldl Desk.move desk)
        ∧ (steps.foldl Desk.move desk).Blank :=
      moves_serves moved blank
    simp only [effect, moved]
    exact ⟨⟨served.1, trivial⟩, served.2⟩
  have executes := executes_log (tick config) calls step blank
  refine ⟨_, executes.1, executes.2, ?_⟩
  rw [List.foldl_flatMap]

/-- Nothing has happened yet. -/
def sampleDesk : Desk where
  attempts := fun _ _ => .absent
  seen := fun _ _ => false
  marked := fun _ _ => false
  listed := []
  current := 0
  paid := none
  panels := []
  booked := []
  merges := []

theorem sampleDesk_fresh : sampleDesk.Fresh where
  panels := rfl
  booked := rfl
  merges := rfl
  paid := rfl
  positive := fun _ _ => Int.le_refl 0

/-- What such a part of a tick does, if it is a panel for the sample. -/
def samplePanel : List Move :=
  [.list [samplePr], .turn 7, .pay sampleBase sampleHead "am-1".toList (some 0)]

/-- If nothing of a tick lasts but the panel that it paid for, any number of ticks pay for it again,
by induction on that number.
-/
theorem panels_repeat (answers : (query : Query) → Answer query) (calls : Nat)
    (tame
      : ((tick config).log answers |>.take calls).all (fun event => (moves event).isSome) = true)
    (pays
      : ((tick config).log answers |>.take calls).flatMap (fun event => (moves event).getD [])
        = samplePanel)
    (ticks : Nat)
    : ∃ desk,
        Repeats (unsure config markable) (tick config) (fun _ => True) sampleDesk desk
        ∧ desk.Blank
        ∧ desk.panels = List.replicate ticks (7, sampleHead, sampleBase) := by
  induction ticks with
  | zero => exact ⟨sampleDesk, .start, ⟨fun _ _ => rfl, fun _ _ => rfl⟩, rfl⟩
  | succ ticks ih =>
      obtain ⟨desk, repeats, blank, panels⟩ := ih
      obtain ⟨after, executes, still, rfl⟩ := executes_moves answers calls tame blank
      refine ⟨_, repeats.again executes fun _ => trivial, still, ?_⟩
      rw [pays, List.replicate_succ, ← panels]
      rfl

/-- Everything is answered in favour of the merge, as long as the panel and the list are those of
the sample.
-/
def sampleServes : (query : Query) → Desk → Except Unit (Answer query × Desk)
  | .loadRepo, desk => .ok (some sampleRepo, desk)
  | .prList, desk => .ok (some [samplePr], { desk with listed := [samplePr] })
  | .automergeDecision _ number head, desk =>
      .ok (if desk.seen number head then some "seen".toList else none, desk.turn number)
  | .shadowExists number head, desk => .ok (desk.marked number head, desk)
  | .shadowTouch number head, desk => .ok ((), (desk.mark number head).settle)
  | .playReview base head runId, desk => .ok (some 0, desk.pay base head runId (some 0))
  | .readVerdict, desk =>
      match desk.paid with
      | some panel =>
          if panel.rc = some 0 then
            .ok (some { runId := panel.runId, base := panel.base, head := panel.head,
                        verdict := "PASS".toList }, desk)
          else .error ()
      | none => .ok (none, desk)
  | .readCounter (.attempts number head), desk => .ok (desk.attempts number head, desk)
  | .writeCounter (.attempts _ _) _, _ => .error ()
  | .writeCounter (.day _) _, desk | .writeCounter (.author _ _) _, desk => .ok (true, desk.book)
  | .recordAutomerge _ number head _, desk => .ok ((), (desk.book.record number head).settle)
  | .mergePut number _, desk =>
      .ok (some { merged := true, sha := sampleHead },
        { desk with merges := number :: desk.merges })
  | .recordOverride number _ _, desk => .ok ((), { desk with merges := number :: desk.merges })
  | .prView number, desk =>
      if desk.listed.all (fun pr =>
          pr.number ≠ number || pr.headRefOid = sampleHead && pr.baseRefOid = sampleBase) then
        .ok (some { headRefOid := sampleHead, baseRefOid := sampleBase,
                    mergeStateStatus := "CLEAN".toList, state := "OPEN".toList }, desk)
      else .error ()
  | query, desk => .ok (sampleAnswers query, desk)

theorem sampleServes_serves {answered : Answer query × Desk}
    (same : sampleServes query desk = .ok answered)
    : serves config sampleRepo true query desk answered.1 answered.2 := by
  cases query
  case loadRepo =>
    cases same
    exact ⟨fun other isSome => (Option.some.inj isSome).symm, rfl⟩
  case automergeDecision repoId number head =>
    cases same
    refine ⟨?_, rfl⟩
    cases desk.seen number head <;> simp
  case shadowExists | shadowTouch =>
    cases same
    exact ⟨rfl, rfl⟩
  case readCounter counter =>
    cases counter with
    | attempts number head =>
        cases same
        exact ⟨.inl rfl, rfl⟩
    | day | author =>
        cases same
        rfl
  case writeCounter counter value => cases counter <;> cases same <;> rfl
  case readVerdict =>
    simp only [sampleServes] at same
    split at same
    · split at same
      · cases same
        rfl
      · cases same
    · cases same
      rfl
  case prView number =>
    simp only [sampleServes] at same
    split at same
    · cases same
      rfl
    · cases same
  all_goals
    cases same
    rfl

/-- Where a tick comes to that is answered by the sample. -/
theorem sample_during {setting : Setting Query Answer Desk} {cuttable : Desk → Prop}
    (answers
      : ∀ {query desk answered},
          sampleServes query desk = .ok answered
          → setting.answers query desk answered.1 answered.2)
    {last : Nat × Desk} (ended : (tick config).run sampleServes sampleDesk = .ok last)
    : During setting (tick config) cuttable sampleDesk last.2 :=
  ⟨sampleDesk, some last.1, .start, Executes.of_run answers ended⟩

end Samples

end Automerge

import Myndaix.Automerge.Gate
import Myndaix.Interaction.Traces

/-! A merge is asked for only through the gate: what stands in the history of the call whenever it
asks GitHub to merge.
-/

namespace Automerge

open Interaction Interaction.Program Text

abbrev History : Type :=
  List (Event Query Answer)

-- What the history shows

/-- The head was pinned, and the diff from its merge base with main is one of documents. -/
structure DocsRange (pr : PullRequest) (base : Str) (history : History) : Prop where
  pinned : ⟨.revParsePr pr.number, pr.headRefOid⟩ ∈ history
  range
    : ∃ main, ⟨.revParseMain, main⟩ ∈ history
        ∧ ⟨.mergeBase main pr.headRefOid, some base⟩ ∈ history
  docs : ∃ out, ⟨.diffRaw base pr.headRefOid, some out⟩ ∈ history ∧ acceptsDiff out = true

/-- All required checks of the head were green when they were asked for. -/
def GreenIn (head : Str) (history : History) : Prop :=
  ∃ run runs, ⟨.checkRuns head, some (run :: runs)⟩ ∈ history ∧ ciOf (run :: runs) = some true

/-- The counters of the day and of the author were below their caps. -/
structure UnderCaps (config : Config) (pr : PullRequest) (history : History) : Prop where
  day
    : ∃ day count, ⟨.utcDay, day⟩ ∈ history ∧ ⟨.readCounter (.day day), count⟩ ∈ history
        ∧ countOf count < config.maxPerDay
  author
    : ∃ day count, ⟨.utcDay, day⟩ ∈ history
        ∧ ⟨.readCounter (.author day pr.author), count⟩ ∈ history
        ∧ countOf count < config.maxPerAuthorDay

/-- A panel started with a token of its own ended with PASS for exactly this range. -/
def FreshPass (base head : Str) (history : History) : Prop :=
  ∃ runId,
    ⟨.tokenHex, runId⟩ ∈ history ∧ ⟨.playReview base head runId, some 0⟩ ∈ history
    ∧ ⟨.readVerdict,
        some { runId := runId, base := base, head := head, verdict := "PASS".toList }⟩ ∈ history

/-- The last look: the pull request is open at the same head and base, no merge queue is there, and
the checks are green.
-/
def Rechecked (pr : PullRequest) (history : History) : Prop :=
  ∃ view rules run runs,
    history = [⟨.prView pr.number, some view⟩, ⟨.mergeQueueRules, some rules⟩,
      ⟨.checkRuns pr.headRefOid, some (run :: runs)⟩]
    ∧ view.state = "OPEN".toList ∧ view.headRefOid = pr.headRefOid
    ∧ view.baseRefOid = pr.baseRefOid ∧ view.mergeStateStatus ∈ clean
    ∧ some "merge_queue".toList ∉ rules ∧ ciOf (run :: runs) = some true

/-- The pull request may be merged here at all, whatever its diff and its checks. -/
structure InScope (config : Config) (pr : PullRequest) : Prop where
  sameRepository : pr.isCrossRepository = false
  notDraft : pr.isDraft = false
  allowed : pr.author ∈ config.authorAllowlist
  heads : isSha pr.headRefOid = true ∧ isSha pr.baseRefOid = true

/-- Everything the gate requires, in its order: the range, the checks and the caps, then the review,
then the last look.
-/
structure Gated (config : Config) (pr : PullRequest) (budget : Nat) (history : History)
    : Prop where
  live : config.dryRun = false ∧ config.shadowCode = false
  scope : InScope config pr
  belowTick : budget < config.maxPerTick
  phases
    : ∃ base before panel after,
        history = before ++ panel ++ after ∧ DocsRange pr base before
        ∧ GreenIn pr.headRefOid before ∧ UnderCaps config pr before
        ∧ FreshPass base pr.headRefOid panel ∧ Rechecked pr after

/-- The call may ask for a merge of its own pull request at its head, when the gate is passed. -/
def mayMerge (config : Config) (pr : PullRequest) (budget : Nat) (history : History)
    (query : Query)
    : Prop :=
  ∀ number head,
    query = .mergePut number head
    → number = pr.number ∧ head = pr.headRefOid ∧ Gated config pr budget history

-- Facts stay in the history

section Histories

variable {config : Config} {pr : PullRequest} {base head : Str} {history : History}

theorem DocsRange.append (range : DocsRange pr base history) (more : History)
    : DocsRange pr base (history ++ more) := by
  obtain ⟨main, parsed, merged⟩ := range.range
  obtain ⟨out, diffed, docs⟩ := range.docs
  exact
    { pinned := List.mem_append_left _ range.pinned
      range := ⟨main, List.mem_append_left _ parsed, List.mem_append_left _ merged⟩
      docs := ⟨out, List.mem_append_left _ diffed, docs⟩ }

theorem GreenIn.append (green : GreenIn head history) (more : History)
    : GreenIn head (history ++ more) := by
  obtain ⟨run, runs, asked, isGreen⟩ := green
  exact ⟨run, runs, List.mem_append_left _ asked, isGreen⟩

end Histories

-- The steps of a call

section Steps

variable {config : Config} {pr : PullRequest} {base : Str} {budget : Nat} {history : History}

/-- The program asks for a merge only through the gate. -/
abbrev Guarded {Result : Type} (config : Config) (pr : PullRequest) (budget : Nat)
    (program : Run Result) (post : Result → History → Prop) (history : History)
    : Prop :=
  program.Ensures (recording (mayMerge config pr budget)) post history

/-- A call that is no merge is always allowed. -/
theorem Guarded.asks {First : Type} {query : Query} {next : Answer query → Run First}
    {post : First → History → Prop} (other : ∀ number head, query ≠ .mergePut number head)
    (continues
      : ∀ answer, Guarded config pr budget (next answer) post (history ++ [⟨query, answer⟩]))
    : Guarded config pr budget (ask query >>= next) post history :=
  Ensures.records (fun number head same => absurd same (other number head)) continues

theorem Guarded.ends {First : Type} {result : First} {post : First → History → Prop}
    (holds : post result history)
    : Guarded config pr budget (pure result) post history :=
  Ensures.recorded holds

end Steps

-- The ticks

/-- The tick found the flag and lists the pull request. -/
structure Listed (pr : PullRequest) (start : History) : Prop where
  enabled : ⟨.enabledFlag, true⟩ ∈ start
  among : ∃ prs, ⟨.prList, some prs⟩ ∈ start ∧ pr ∈ prs

section Ticks

variable {config : Config} {pr : PullRequest} {history : History}

theorem Listed.append (listed : Listed pr history) (more : History)
    : Listed pr (history ++ more) := by
  obtain ⟨prs, asked, mem⟩ := listed.among
  exact
    { enabled := List.mem_append_left _ listed.enabled
      among := ⟨prs, List.mem_append_left _ asked, mem⟩ }

end Ticks

/-- A process with the usual caps. -/
def sampleConfig (testMode : Bool) : Config where
  maxPerTick := 1
  maxPerDay := 3
  maxPerAuthorDay := 1
  authorAllowlist := ["redeyefit".toList]
  reviewMaxDiff := 262144
  reviewMaxDiffLines := 2000
  maxReviewAttempts := 3
  rateFloor := 100
  dryRun := false
  shadowCode := false
  testMode
  mergeOverride := false
  fakeVerdict := "pass".toList
  texts := { repr := fun text => '\'' :: text ++ ['\''], valueError := fun _ => [] }
  shadowIsDry := nofun

def sampleHead : Str :=
  List.replicate 40 'a'

def sampleBase : Str :=
  List.replicate 40 'b'

def samplePr : PullRequest where
  number := 7
  headRefOid := sampleHead
  baseRefOid := sampleBase
  author := "redeyefit".toList
  isDraft := false
  isCrossRepository := false
  mergeStateStatus := "CLEAN".toList

/-- Everything is answered in favour of the merge. -/
def sampleAnswers : (query : Query) → Answer query
  | .mergeQueueRules => some []
  | .fetch _ | .mkdirState | .writeCounter _ _ | .mkdtemp => true
  | .shadowExists _ _ => false
  | .revParsePr _ => sampleHead
  | .revParseMain => sampleBase
  | .tokenHex => "am-1".toList
  | .mergeBase _ _ => some sampleBase
  | .diffRaw _ _ =>
      some (ascii ":100644 100644 1111111 2222222 M" ++ [0] ++ ascii "notes.md" ++ [0])
  | .diffContent _ _ => some []
  | .diffNumstat _ _ => some []
  | .checkRuns _ =>
      some [some { status := "completed".toList, conclusion := some "success".toList }]
  | .utcDay => 20260101
  | .readCounter _ => .absent
  | .shadowTouch _ _ | .connect | .recordOverride _ _ _ | .recordAutomerge _ _ _ _ => ()
  | .playReview _ _ _ => some 0
  | .readVerdict =>
      some { runId := "am-1".toList, base := sampleBase, head := sampleHead,
             verdict := "PASS".toList }
  | .prView _ =>
      some { headRefOid := sampleHead, baseRefOid := sampleBase, mergeStateStatus := "CLEAN".toList,
             state := "OPEN".toList }
  | .mergePut _ _ => some { merged := true, sha := sampleHead }
  | .loadRepo => some { nwo := "o/r".toList, repoId := "o/r".toList }
  | .enabledFlag | .acquireLock => true
  | .rateLimit => some 5000
  | .prList => some [samplePr]
  | .automergeDecision _ _ _ => none

theorem exists_of_map_ok {Error Before After : Type} {outcome : Except Error Before}
    {wrap : Before → After} {value : After} (same : outcome.map wrap = .ok value)
    : ∃ first, outcome = .ok first ∧ wrap first = value := by
  cases outcome with
  | error error => cases same
  | ok first => exact ⟨first, rfl, Except.ok.inj same⟩

/-- A tick reads the flag once, before it lists anything: one that is removed while the panel runs
stops no merge of the tick.
-/
example
    : let asked := ((tick (sampleConfig false)).log sampleAnswers).map Sigma.fst
      asked.take 2 = [.loadRepo, .enabledFlag]
      ∧ .enabledFlag ∉ asked.drop 2
      ∧ .mergePut 7 sampleHead ∈ asked := by
  decide +kernel

end Automerge

import Mathlib.Algebra.GroupWithZero.Nat
import Myndaix.Automerge.RawDiff
import Myndaix.Interaction.Program

/-! The gate that one pull request goes through, and the tick that takes the open ones through it.
Whatever git, GitHub, the review panel and the state files answer is the answer of a query; an
exception that nothing catches is a run that is cut off.
-/

namespace Automerge

open Interaction Patterns Text

-- Configuration and data

/-- The configuration of a process. Shadow mode forces a dry run. -/
structure Config where
  maxPerTick : Nat
  maxPerDay : Nat
  maxPerAuthorDay : Nat
  authorAllowlist : List Str
  reviewMaxDiff : Nat
  reviewMaxDiffLines : Nat
  maxReviewAttempts : Nat
  rateFloor : Int
  dryRun : Bool
  shadowCode : Bool
  testMode : Bool
  mergeOverride : Bool
  fakeVerdict : Str
  texts : Texts
  shadowIsDry : shadowCode = true → dryRun = true

structure Repo where
  nwo : Str
  repoId : Str
deriving Repr, DecidableEq

/-- A pull request as the list of the open ones has it. -/
structure PullRequest where
  number : Nat
  headRefOid : Str
  baseRefOid : Str
  author : Str
  isDraft : Bool
  isCrossRepository : Bool
  mergeStateStatus : Str
deriving Repr, DecidableEq

/-- A pull request as the look right before the merge has it. -/
structure PullRequestView where
  headRefOid : Str
  baseRefOid : Str
  mergeStateStatus : Str
  state : Str
deriving Repr, DecidableEq

structure CheckRun where
  status : Str
  conclusion : Option Str
deriving Repr, DecidableEq

/-- The verdict file of a review panel. -/
structure Verdict where
  runId : Str
  base : Str
  head : Str
  verdict : Str
deriving Repr, DecidableEq

structure MergeAnswer where
  merged : Bool
  sha : Str
deriving Repr, DecidableEq

/-- What is recorded for a head, with the reason. -/
structure Decision where
  decision : Str
  reason : Str
deriving Repr, DecidableEq

/-- The counters in the state directory. -/
inductive Counter where
  | day (day : Nat)
  | author (day : Nat) (author : Str)
  | attempts (number : Nat) (head : Str)
deriving Repr, DecidableEq

/-- What a counter file is found to hold. -/
inductive Contents where
  | absent
  | number (value : Int)
  | unreadable
deriving Repr, DecidableEq

-- Queries

inductive Query where
  | mergeQueueRules
  | fetch (number : Nat)
  | revParsePr (number : Nat)
  | revParseMain
  | mergeBase (main head : Str)
  | diffRaw (base head : Str)
  | diffContent (base head : Str)
  | diffNumstat (base head : Str)
  | checkRuns (head : Str)
  | utcDay
  | mkdirState
  | readCounter (counter : Counter)
  | writeCounter (counter : Counter) (value : Int)
  | shadowExists (number : Nat) (head : Str)
  | shadowTouch (number : Nat) (head : Str)
  | tokenHex
  | mkdtemp
  | playReview (base head runId : Str)
  | readVerdict
  | prView (number : Nat)
  | mergePut (number : Nat) (head : Str)
  | recordOverride (number : Nat) (head base : Str)
  | loadRepo
  | enabledFlag
  | rateLimit
  | acquireLock
  | connect
  | prList
  | automergeDecision (repoId : Str) (number : Nat) (head : Str)
  | recordAutomerge (repoId : Str) (number : Nat) (head : Str) (decision : Decision)
deriving Repr, DecidableEq

/-- A command that failed, or whose output is not what was asked for, answers `none` or `false`. -/
abbrev Answer : Query → Type
  | .mergeQueueRules => Option (List (Option Str))
  | .fetch _ | .mkdirState | .writeCounter _ _ | .mkdtemp | .shadowExists _ _ => Bool
  | .revParsePr _ | .revParseMain | .tokenHex => Str
  | .mergeBase _ _ => Option Str
  | .diffRaw _ _ | .diffContent _ _ => Option Bytes
  | .diffNumstat _ _ => Option (List (List Str))
  | .checkRuns _ => Option (List (Option CheckRun))
  | .utcDay => Nat
  | .readCounter _ => Contents
  | .shadowTouch _ _ | .connect | .recordOverride _ _ _ | .recordAutomerge _ _ _ _ => Unit
  | .playReview _ _ _ => Option Int
  | .readVerdict => Option Verdict
  | .prView _ => Option PullRequestView
  | .mergePut _ _ => Option MergeAnswer
  | .loadRepo => Option Repo
  | .enabledFlag | .acquireLock => Bool
  | .rateLimit => Option Int
  | .prList => Option (List PullRequest)
  | .automergeDecision _ _ _ => Option Str

abbrev Run (Result : Type) : Type :=
  Program Query Answer Result

abbrev ask (query : Query) : Run (Answer query) :=
  Program.ask query

-- Counters

/-- More than every cap. -/
def overCap : Int :=
  1073741824

/-- `_count`: a counter that cannot be read counts as over every cap. -/
def countOf : Contents → Int
  | .absent => 0
  | .number value => value
  | .unreadable => overCap

/-- `_charge`: count a merge for the day and for its author; what cannot be written is left. -/
def charge (author : Str) : Run Unit := do
  if ← ask .mkdirState then
    let day ← ask .utcDay
    let countedDay ← ask .utcDay
    let count ← ask (.readCounter (.day countedDay))
    if ← ask (.writeCounter (.day day) (countOf count + 1)) then
      let day ← ask .utcDay
      let count ← ask (.readCounter (.author day author))
      let _ ← ask (.writeCounter (.author day author) (countOf count + 1))
      pure ()
    else pure ()
  else pure ()

/-- `_bump_attempt`. -/
def bumpAttempt (number : Nat) (head : Str) : Run Int := do
  if ← ask .mkdirState then
    let count ← ask (.readCounter (.attempts number head))
    if ← ask (.writeCounter (.attempts number head) (countOf count + 1)) then
      pure (countOf count + 1)
    else pure overCap
  else pure overCap

-- The gates

/-- `^[0-9a-f]{40}$`; the dollar sign also stands before a newline at the end. -/
def isSha (text : Str) : Bool :=
  let core := if text.getLast? = some '\n' then text.dropLast else text
  core.length == 40 && core.all (fun char => "0123456789abcdef".toList.contains char)

def clean : List Str :=
  ["CLEAN".toList, "BEHIND".toList]

/-- The state of the required checks: green, failed, or not known yet. -/
def ciOf : List (Option CheckRun) → Option Bool
  | [] => some true
  | none :: _ => none
  | some run :: rest =>
      if run.status ≠ "completed".toList then none
      else if run.conclusion ≠ some "success".toList then some false
      else ciOf rest

/-- `_ci_green`. -/
def ciGreen (head : Str) : Run (Option Bool) := do
  match ← ask (.checkRuns head) with
  | none => pure none
  | some [] => pure none
  | some (run :: runs) => pure (ciOf (run :: runs))

/-- `_review_pass`. In test mode the verdict comes from the environment. -/
def reviewPass (config : Config) (base head : Str) : Run Str := do
  if config.testMode then pure config.fakeVerdict
  else
    let runId ← ask .tokenHex
    if ← ask .mkdtemp then
      match ← ask (.playReview base head runId) with
      | none => pure "transient".toList
      | some rc =>
          match ← ask .readVerdict with
          | none => pure "transient".toList
          | some verdict =>
              let fresh := verdict.runId = runId ∧ verdict.base = base ∧ verdict.head = head
              if rc = 0 ∧ fresh ∧ verdict.verdict = "PASS".toList then pure "pass".toList
              else if rc = 1 ∧ fresh ∧ verdict.verdict = "NEEDS-FIX".toList then
                pure "needs_fix".toList
              else pure "transient".toList
    else pure "transient".toList

/-- `_merge_queue`: whether main is behind a merge queue, or that it is not known. -/
def mergeQueue : Run (Option Bool) := do
  match ← ask .mergeQueueRules with
  | none => pure none
  | some rules => pure (some (rules.any (fun type => decide (type = some "merge_queue".toList))))

local instance lawfulStr : LawfulBEq Str :=
  inferInstance

/-- `_recheck`. -/
def recheck (number : Nat) (head base : Str) : Run Bool := do
  match ← ask (.prView number) with
  | none => pure false
  | some view =>
      if view.state ≠ "OPEN".toList ∨ view.headRefOid ≠ head ∨ view.baseRefOid ≠ base then
        pure false
      else if view.mergeStateStatus ∉ clean then pure false
      else if (← mergeQueue) ≠ some false then pure false
      else
        let ci ← ciGreen head
        pure (decide (ci = some true))

/-- The changed lines of a numstat: its first two columns where they are numbers. -/
def changedLines (numstat : List (List Str)) : Nat :=
  (numstat.map (fun parts =>
    if 3 ≤ parts.length then
      ((parts.take 2).map (fun part =>
        if part ≠ [] ∧ part.all Char.isDigit then (String.ofList part).toNat?.getD 0 else 0)).sum
    else 0)).sum

/-- What a call comes to: a decision to record or none, with the merges of the tick so far. -/
structure Evaluated where
  decision : Option Decision
  budget : Nat

def decided (decision reason : String) (budget : Nat) : Evaluated :=
  { decision := some { decision := decision.toList, reason := reason.toList }, budget }

def deferred (budget : Nat) : Evaluated :=
  { decision := none, budget }

/-- Merge at the head, unless the last look finds that something moved. -/
def mergeStep (config : Config) (pr : PullRequest) (base : Str) (budget : Nat) : Run Evaluated := do
  let number := pr.number
  let head := pr.headRefOid
  if config.dryRun then
    if config.shadowCode then
      let _ ← ask (.shadowTouch number (head.take 16))
      pure (deferred budget)
    else pure (deferred budget)
  else if config.testMode ∧ config.mergeOverride then
    let _ ← ask (.recordOverride number head base)
    let _ ← charge pr.author
    pure (decided "merged" "TEST SEAM recorded merge" (budget + 1))
  else if ← recheck number head pr.baseRefOid then
    match ← ask (.mergePut number head) with
    | some answer =>
        if answer.merged then
          let _ ← charge pr.author
          let sha := String.ofList (answer.sha.take 8)
          pure (decided "merged" s!"merge sha {sha}" (budget + 1))
        else pure (deferred budget)
    | none => pure (deferred budget)
  else pure (deferred budget)

/-- The paid review, and what its verdict leads to. -/
def reviewStep (config : Config) (pr : PullRequest) (base : Str) (budget : Nat)
    : Run Evaluated := do
  let verdict ← reviewPass config base pr.headRefOid
  if verdict = "transient".toList then
    let attempts ← bumpAttempt pr.number pr.headRefOid
    if config.maxReviewAttempts ≤ attempts then
      pure (decided "skipped" s!"review transient x{attempts} (infra/persistent abort) — human"
        budget)
    else pure (deferred budget)
  else if verdict = "needs_fix".toList then
    pure (decided "needs_fix" "review did not PASS — human" budget)
  else mergeStep config pr base budget

/-- The caps of the tick, the day and the author, and the one shadow review of a head. -/
def boundsStep (config : Config) (pr : PullRequest) (base : Str) (budget : Nat)
    : Run Evaluated := do
  if config.maxPerTick ≤ budget then pure (deferred budget)
  else if config.dryRun then
    if config.shadowCode then
      if ← ask (.shadowExists pr.number (pr.headRefOid.take 16)) then pure (deferred budget)
      else reviewStep config pr base budget
    else reviewStep config pr base budget
  else
    let day ← ask .utcDay
    let count ← ask (.readCounter (.day day))
    if config.maxPerDay ≤ countOf count then pure (deferred budget)
    else
      let day ← ask .utcDay
      let count ← ask (.readCounter (.author day pr.author))
      if config.maxPerAuthorDay ≤ countOf count then pure (deferred budget)
      else reviewStep config pr base budget

/-- The sizes that the review takes, and the checks of the head. -/
def sizeStep (config : Config) (pr : PullRequest) (base : Str) (budget : Nat)
    : Run Evaluated := do
  let head := pr.headRefOid
  match ← ask (.diffContent base head) with
  | none => pure (deferred budget)
  | some content =>
      let bytes := (content.reverse.dropWhile (fun byte => byte == 10)).length
      if config.reviewMaxDiff < bytes then
        pure (decided "skipped"
          s!"docs diff {bytes}B over the {config.reviewMaxDiff}B review cap — human" budget)
      else
        match ← ask (.diffNumstat base head) with
        | none => pure (deferred budget)
        | some numstat =>
            let lines := changedLines numstat
            let cap := config.reviewMaxDiffLines
            if cap < lines then
              pure (decided "skipped"
                s!"docs diff {lines} changed lines over the {cap}-line review cap — human" budget)
            else
              match ← ciGreen head with
              | none => pure (deferred budget)
              | some false => pure (decided "skipped" "CI failed for this head — human" budget)
              | some true => boundsStep config pr base budget

/-- The class of the diff between the merge base and the head. -/
def diffStep (config : Config) (pr : PullRequest) (base : Str) (budget : Nat)
    : Run Evaluated := do
  match ← ask (.diffRaw base pr.headRefOid) with
  | none => pure (deferred budget)
  | some out =>
      match parseRawZ out with
      | .error error =>
          let ex := String.ofList (config.texts.valueError error)
          pure (decided "skipped" s!"unparseable diff ({ex}) — human" budget)
      | .ok entries =>
          if classifyDiff entries ≠ none ∧ config.shadowCode = false then
            let why := String.ofList ((classifyDiff entries).elim [] (Rejection.text config.texts))
            pure (decided "skipped" s!"not docs-only: {why} — human" budget)
          else sizeStep config pr base budget

/-- Pin the head and main, and find the range between them. -/
def pinStep (config : Config) (pr : PullRequest) (budget : Nat) : Run Evaluated := do
  let head := pr.headRefOid
  if ← ask (.fetch pr.number) then
    let pinned ← ask (.revParsePr pr.number)
    let main ← ask .revParseMain
    if pinned ≠ head then pure (deferred budget)
    else if isSha main = false then pure (deferred budget)
    else
      match ← ask (.mergeBase main head) with
      | none => pure (deferred budget)
      | some base =>
          if isSha base then diffStep config pr base budget else pure (deferred budget)
  else pure (deferred budget)

/-- `evaluate_pr`. -/
def evaluatePr (config : Config) (pr : PullRequest) (budget : Nat) : Run Evaluated := do
  if isSha pr.headRefOid = false ∨ isSha pr.baseRefOid = false then pure (deferred budget)
  else if pr.isDraft then pure (deferred budget)
  else if pr.isCrossRepository then
    pure (decided "skipped" "fork PR (cross-repo) — human" budget)
  else if pr.author ∉ config.authorAllowlist then
    let author := String.ofList (config.texts.repr pr.author)
    pure (decided "skipped" s!"author {author} not in allowlist — human" budget)
  else if pr.mergeStateStatus ∉ clean then pure (deferred budget)
  else if (← mergeQueue) ≠ some false then pure (deferred budget)
  else pinStep config pr budget

-- The tick

/-- Go through the open pull requests until the tick has merged enough. -/
def evaluateAll (config : Config) (repo : Repo) (budget : Nat) : List PullRequest → Run Nat
  | [] => pure budget
  | pr :: rest => do
      if isSha pr.headRefOid = false then evaluateAll config repo budget rest
      else
        let prior ← ask (.automergeDecision repo.repoId pr.number pr.headRefOid)
        if prior ≠ none then evaluateAll config repo budget rest
        else
          let evaluated ← evaluatePr config pr budget
          match evaluated.decision with
          | some decision =>
              let _ ← ask (.recordAutomerge repo.repoId pr.number pr.headRefOid decision)
              if config.maxPerTick ≤ evaluated.budget then pure evaluated.budget
              else evaluateAll config repo evaluated.budget rest
          | none =>
              if config.maxPerTick ≤ evaluated.budget then pure evaluated.budget
              else evaluateAll config repo evaluated.budget rest

/-- `tick`, up to the lock: the merges it made. -/
def tick (config : Config) : Run Nat := do
  match ← ask .loadRepo with
  | none => pure 0
  | some repo =>
      if ← ask .enabledFlag then
        match ← ask .rateLimit with
        | none => pure 0
        | some remaining =>
            if remaining < config.rateFloor then pure 0
            else if ← ask .acquireLock then
              let _ ← ask .connect
              match ← ask .prList with
              | none => pure 0
              | some prs => evaluateAll config repo 0 prs
            else pure 0
      else pure 0

end Automerge

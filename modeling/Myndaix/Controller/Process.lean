import Mathlib.Algebra.GroupWithZero.Nat
import Myndaix.Controller.Cursor
import Myndaix.Interaction.Program
import Myndaix.Text.Bytes

/-! One look at a watched ref: advance its cursor over what was reviewed, and dispatch a review of
what is new. Whatever git, the ledger, the state files and play-review answer is the answer of a
query; an exception that nothing catches is a run that is cut off.
-/

namespace Controller

open Interaction Text

-- Configuration and data

/-- The configuration of a process. The budgets of a review are clamped to be positive. -/
structure Config where
  maxDispatchPerTick : Nat
  maxDispatchPerDay : Nat
  maxAttempts : Nat
  transientAlertStreak : Nat
  deferAlertStreak : Nat
  pendingStale : Nat
  maxReviewLines : Nat
  maxReviewBytes : Nat
  chunkWalkCap : Nat
  dryRun : Bool
  testMode : Bool
  dispatchOverride : Bool
  positiveLines : 0 < maxReviewLines
  positiveBytes : 0 < maxReviewBytes
  positiveWalk : 0 < chunkWalkCap

/-- What a transient marker is found to hold. -/
inductive Marker where
  | absent
  | unreadable
  | text (raw : String)
deriving Repr, DecidableEq

/-- The refs of the controller that keep a commit from being collected. -/
inductive Anchor where
  | reviewed
  | pending
deriving Repr, DecidableEq

/-- The counters of ticks in a row. -/
inductive Streak where
  | transient
  | defer
deriving Repr, DecidableEq

/-- The alerts to the human inbox, with what they tell. -/
inductive Alert where
  | transientAborts (streak : Nat) (cause : String)
  | cannotSize (base target : Sha) (streak : Nat)
  | rangeTooLarge (base target : Sha) (lines bytes : Int)
  | blocked (base target : Sha) (attempts : Nat)
deriving Repr, DecidableEq

-- Queries

inductive Query where
  | getCursor
  | upsertBaseline (head : Sha)
  | claimDispatch (head : Sha) (staleBefore : Time)
  | releaseDispatch (head : Sha)
  | forgiveTransient (head : Sha)
  | advanceCursor (head : Sha)
  | skipTo (head : Sha)
  | markBlocked (head : Sha) (maxAttempts : Nat)
  | doneExists (sha : Sha)
  | readTransient (sha : Sha)
  | unlinkTransient (sha : Sha)
  | readStreak (streak : Streak)
  | writeStreak (streak : Streak) (count : Int)
  | unlinkStreak (streak : Streak)
  | utcDay
  | readDay (day : Nat)
  | writeDay (day : Nat) (count : Int)
  | alertJefe (alert : Alert)
  | now
  | remoteUrl
  | fetch
  | revParse
  | indexSkills
  | pin (anchor : Anchor) (sha : Sha)
  | catFile (sha : Sha)
  | diffQuiet (base head : Sha)
  | diffNumstat (base head : Sha)
  | diff (base head : Sha)
  | revList (base head : Sha)
  | recordDispatch (base head : Sha)
  | trustedScript
  | playReview (base head : Sha)
deriving Repr, DecidableEq

/-- A command that failed, or whose output is not what was asked for, answers `none` or `false`. In
a numstat a binary file has no numbers.
-/
abbrev Answer : Query → Type
  | .getCursor => Option Cursor
  | .upsertBaseline _ | .claimDispatch _ _ | .releaseDispatch _ | .forgiveTransient _
  | .advanceCursor _ | .skipTo _ | .markBlocked _ _ => Bool
  | .doneExists _ | .unlinkTransient _ | .alertJefe _ | .fetch | .pin _ _ | .catFile _
  | .diffQuiet _ _ | .trustedScript => Bool
  | .readTransient _ => Marker
  | .readStreak _ | .readDay _ => Option Int
  | .writeStreak _ _ | .unlinkStreak _ | .writeDay _ _ | .indexSkills | .recordDispatch _ _ => Unit
  | .utcDay => Nat
  | .now => Time
  | .remoteUrl | .revParse => Option String
  | .diffNumstat _ _ => Option (List (Option Nat × Option Nat))
  | .diff _ _ => Option Bytes
  | .revList _ _ => Option (List String)
  | .playReview _ _ => Option Int

abbrev Run (Result : Type) : Type :=
  Program Query Answer Result

abbrev ask (query : Query) : Run (Answer query) :=
  Program.ask query

-- Sizes

/-- `^[0-9a-f]{40}$`, for a text without white space. -/
def isSha (text : String) : Bool :=
  text.length == 40 && text.toList.all (fun char => "0123456789abcdef".toList.contains char)

/-- `_diff_lines`: the added and the deleted lines. -/
def diffLines (numstat : List (Option Nat × Option Nat)) : Nat :=
  (numstat.map (fun columns => columns.1.getD 0 + columns.2.getD 0)).sum

/-- `_diff_bytes`: the length without the newlines at the end. -/
def diffBytes (patch : Bytes) : Nat :=
  (patch.reverse.dropWhile (fun byte => byte == 10)).length

/-- The sizes that were found in this tick; a failure is not kept. -/
structure Memo where
  lines : Sha → Option Nat
  bytes : Sha → Option Nat

def Memo.empty : Memo where
  lines := fun _ => none
  bytes := fun _ => none

def Memo.addLines (memo : Memo) (commit : Sha) (lines : Nat) : Memo :=
  { memo with lines := fun other => if other = commit then some lines else memo.lines other }

def Memo.addBytes (memo : Memo) (commit : Sha) (bytes : Nat) : Memo :=
  { memo with bytes := fun other => if other = commit then some bytes else memo.bytes other }

/-- `dl`. -/
def sizeLines (base commit : Sha) (memo : Memo) : Run (Option Nat × Memo) := do
  match memo.lines commit with
  | some lines => pure (some lines, memo)
  | none =>
      match ← ask (.diffNumstat base commit) with
      | some numstat =>
          pure (some (diffLines numstat), memo.addLines commit (diffLines numstat))
      | none => pure (none, memo)

/-- `db`. -/
def sizeBytes (base commit : Sha) (memo : Memo) : Run (Option Nat × Memo) := do
  match memo.bytes commit with
  | some bytes => pure (some bytes, memo)
  | none =>
      match ← ask (.diff base commit) with
      | some patch => pure (some (diffBytes patch), memo.addBytes commit (diffBytes patch))
      | none => pure (none, memo)

-- The chunker

inductive Mode where
  | dispatch
  | advance
  | defer
deriving Repr, DecidableEq

/-- What to do with which commit, and its size, where -1 is unknown. -/
structure Choice where
  mode : Mode
  sha : Sha
  lines : Int
  bytes : Int
deriving Repr, DecidableEq

/-- A commit whose diff was sized. -/
structure Sized where
  sha : Sha
  lines : Nat
  bytes : Nat
deriving Repr, DecidableEq

/-- The commit if it was sized and its diff is not empty and within both budgets. -/
def candidate (config : Config) (base commit : Sha) (memo : Memo) : Run (Option Sized × Memo) := do
  let (lines, memo) ← sizeLines base commit memo
  match lines with
  | none => pure (none, memo)
  | some lines =>
      if config.maxReviewLines < lines then pure (none, memo)
      else
        let (bytes, memo) ← sizeBytes base commit memo
        match bytes with
        | none => pure (none, memo)
        | some bytes =>
            if bytes = 0 ∨ config.maxReviewBytes < bytes then pure (none, memo)
            else pure (some { sha := commit, lines, bytes }, memo)

/-- The last candidate of the commits; that the whole range is none is known. -/
def walk (config : Config) (base head : Sha)
    : List Sha → Option Sized → Memo → Run (Option Sized × Memo)
  | [], best, memo => pure (best, memo)
  | commit :: commits, best, memo => do
      if commit = head then walk config base head commits best memo
      else
        let (found, memo) ← candidate config base commit memo
        walk config base head commits (found.or best) memo

/-- No commit is a candidate: leave the first one behind, if its size is known. -/
def firstCommit (base first : Sha) (memo : Memo) : Run Choice := do
  let (lines, memo) ← sizeLines base first memo
  let (bytes, _) ← sizeBytes base first memo
  match lines, bytes with
  | some lines, some bytes =>
      if bytes = 0 then pure { mode := .advance, sha := first, lines := 0, bytes := 0 }
      else pure { mode := .advance, sha := first, lines, bytes }
  | _, _ => pure { mode := .defer, sha := first, lines := -1, bytes := -1 }

/-- The range is over a budget: choose among its first-parent commits. -/
def chooseCommit (config : Config) (base head : Sha) (totalLines totalBytes : Int) (memo : Memo)
    : Run Choice := do
  match ← ask (.revList base head) with
  | none => pure { mode := .defer, sha := head, lines := -1, bytes := -1 }
  | some tokens =>
      match tokens.filter isSha with
      | [] => pure { mode := .advance, sha := head, lines := totalLines, bytes := totalBytes }
      | first :: commits =>
          let (best, memo) ←
            walk config base head ((first :: commits).take config.chunkWalkCap) none memo
          match best with
          | some found =>
              pure { mode := .dispatch, sha := found.sha, lines := found.lines,
                     bytes := found.bytes }
          | none => firstCommit base first memo

def chooseReviewTarget (config : Config) (base head : Sha) : Run Choice := do
  let (lines, memo) ← sizeLines base head .empty
  match lines with
  | none => pure { mode := .defer, sha := head, lines := -1, bytes := -1 }
  | some lines =>
      let (bytes, memo) ← sizeBytes base head memo
      match bytes with
      | some bytes =>
          if lines ≤ config.maxReviewLines ∧ bytes ≤ config.maxReviewBytes then
            pure { mode := .dispatch, sha := head, lines, bytes }
          else chooseCommit config base head lines bytes memo
      | none =>
          if lines ≤ config.maxReviewLines then
            pure { mode := .defer, sha := head, lines, bytes := -1 }
          else chooseCommit config base head lines (-1) memo

-- State files

/-- `_bump_transient_streak` and `_bump_defer_streak`. -/
def bumpStreak (streak : Streak) : Run Int := do
  let count ← ask (.readStreak streak)
  let _ ← ask (.writeStreak streak (count.getD 0 + 1))
  pure (count.getD 0 + 1)

def dayCount : Run Int := do
  let day ← ask .utcDay
  let count ← ask (.readDay day)
  pure (count.getD 0)

/-- `_charge_day`: the count is read from the file of the day that it is then. -/
def chargeDay : Run Unit := do
  let day ← ask .utcDay
  let count ← dayCount
  ask (.writeDay day (count + 1))

/-- The label of the worker, as far as its characters are those of one. -/
def causeOf : Marker → String
  | .text raw =>
      let known (char : Char) : Bool := char.isAlphanum || " ():,.?-".toList.contains char
      let label := (raw.toList.filter known).take 80
      let isSpace (char : Char) : Bool := char == ' '
      String.ofList ((label.dropWhile isSpace).reverse.dropWhile isSpace).reverse
  | _ => ""

/-- `_try_forgive_transient`: whether an attempt was forgiven. -/
def tryForgiveTransient (config : Config) (sha : Sha) : Run Bool := do
  match ← ask (.readTransient sha) with
  | .absent => pure false
  | marker =>
      if ← ask (.unlinkTransient sha) then
        if ← ask (.forgiveTransient sha) then
          let streak ← bumpStreak .transient
          if streak = config.transientAlertStreak then
            let _ ← ask (.alertJefe (.transientAborts config.transientAlertStreak (causeOf marker)))
            pure true
          else pure true
        else pure false
      else pure false

-- The passes

/-- A pending head whose review was delivered becomes the reviewed one. -/
def advancePass (cursor : Option Cursor) : Run (Option Cursor) := do
  match cursor.bind Cursor.pendingSha with
  | none => pure cursor
  | some pending =>
      if ← ask (.doneExists pending) then
        if ← ask (.pin .reviewed pending) then
          if ← ask (.advanceCursor pending) then
            ask (.unlinkStreak .transient)
            ask .getCursor
          else ask .getCursor
        else ask .getCursor
      else pure cursor

/-- A pending head whose review was aborted on the way is forgiven the attempt. -/
def transientPass (config : Config) (cursor : Option Cursor) : Run (Option Cursor) := do
  match cursor.bind Cursor.pendingSha with
  | none => pure cursor
  | some pending =>
      if ← ask (.doneExists pending) then pure cursor
      else if ← tryForgiveTransient config pending then ask .getCursor
      else pure cursor

/-- `remote_url`: only transports that run nothing. -/
def acceptedUrl (url : String) : Bool :=
  !url.toList.tails.any (fun rest => "::".toList.isPrefixOf rest)
  && ["https://", "ssh://", "file://", "git@"].any
    (fun transport => transport.toList.isPrefixOf url.toList)

/-- The head of the watched ref, fetched into a ref of the controller. -/
def observe : Run (Option Sha) := do
  match ← ask .remoteUrl with
  | none => pure none
  | some url =>
      if acceptedUrl url then
        if ← ask .fetch then
          match ← ask .revParse with
          | none => pure none
          | some head => if isSha head then pure (some head) else pure none
        else pure none
      else pure none

/-- `trigger_review`: whether the review was started. -/
def triggerReview (config : Config) (base head : Sha) : Run Bool := do
  if config.testMode ∧ config.dispatchOverride then
    ask (.recordDispatch base head)
    pure true
  else if config.dispatchOverride then pure false
  else if ← ask .trustedScript then
    match ← ask (.playReview base head) with
    | none => pure false
    | some rc => pure (decide (rc = 0))
  else pure false

/-- Claim the target, and start its review. -/
def dispatchStep (config : Config) (base target : Sha) (budget : Nat) : Run Nat := do
  let now ← ask .now
  if ← ask (.claimDispatch target (now - config.pendingStale)) then
    if ← ask (.pin .pending target) then
      if ← triggerReview config base target then
        chargeDay
        pure (budget + 1)
      else
        let _ ← ask (.releaseDispatch target)
        pure budget
    else
      let _ ← ask (.releaseDispatch target)
      pure budget
  else pure budget

/-- The caps on the dispatches of the tick and of the day. -/
def budgetStep (config : Config) (base target : Sha) (budget : Nat) : Run Nat := do
  if config.maxDispatchPerTick ≤ budget then pure budget
  else if config.dryRun then pure budget
  else if config.maxDispatchPerDay ≤ (← dayCount) then pure budget
  else dispatchStep config base target budget

/-- A target that was dispatched too often is blocked, unless its last abort was transient. -/
def ceilingStep (config : Config) (cursor : Cursor) (base target : Sha) (budget : Nat)
    : Run Nat := do
  if cursor.pendingSha = some target ∧ config.maxAttempts ≤ cursor.attempts
      ∧ cursor.state ≠ .blocked then
    if ← tryForgiveTransient config target then budgetStep config base target budget
    else if ← ask (.markBlocked target config.maxAttempts) then
      if config.dryRun then pure budget
      else
        let _ ← ask (.alertJefe (.blocked base target cursor.attempts))
        pure budget
    else pure budget
  else budgetStep config base target budget

/-- `oversized`. -/
def Choice.oversized (config : Config) (choice : Choice) : Bool :=
  decide (choice.lines > config.maxReviewLines ∨ choice.bytes > config.maxReviewBytes
    ∨ choice.bytes < 0)

/-- Leave the target behind without a review, flagged before if it is over a budget. -/
def advanceStep (config : Config) (base : Sha) (choice : Choice) : Run Unit := do
  let skip : Run Unit := do
    if ← ask (.pin .reviewed choice.sha) then
      let _ ← ask (.skipTo choice.sha)
      pure ()
    else pure ()
  if config.dryRun then pure ()
  else if choice.oversized config then
    if ← ask (.alertJefe (.rangeTooLarge base choice.sha choice.lines choice.bytes)) then skip
    else pure ()
  else skip

/-- Do what the chunker chose. -/
def useChoice (config : Config) (cursor : Cursor) (base : Sha) (choice : Choice) (budget : Nat)
    : Run Nat := do
  match choice.mode with
  | .defer =>
      let streak ← bumpStreak .defer
      if streak = config.deferAlertStreak ∧ !config.dryRun then
        let _ ← ask (.alertJefe (.cannotSize base choice.sha config.deferAlertStreak))
        pure budget
      else pure budget
  | .advance =>
      ask (.unlinkStreak .defer)
      advanceStep config base choice
      pure budget
  | .dispatch =>
      ask (.unlinkStreak .defer)
      ceilingStep config cursor base choice.sha budget

/-- A head that is not the reviewed one. -/
def reviewStep (config : Config) (cursor : Cursor) (head : Sha) (budget : Nat) : Run Nat := do
  let base := cursor.reviewedSha
  if ← ask (.catFile head) then
    if ← ask (.catFile base) then
      if ← ask (.diffQuiet base head) then
        if config.dryRun then pure budget
        else if ← ask (.pin .reviewed head) then
          let _ ← ask (.skipTo head)
          pure budget
        else pure budget
      else
        let choice ← chooseReviewTarget config base head
        useChoice config cursor base choice budget
    else pure budget
  else pure budget

/-- At first sight the head becomes the baseline. -/
def decideStep (config : Config) (cursor : Option Cursor) (head : Sha)
    (budget : Nat) : Run Nat := do
  match cursor with
  | none =>
      if config.dryRun then pure budget
      else if ← ask (.pin .reviewed head) then
        let _ ← ask (.upsertBaseline head)
        pure budget
      else pure budget
  | some cursor =>
      if head = cursor.reviewedSha then pure budget
      else reviewStep config cursor head budget

/-- One look at a watched ref; the result is how many reviews the tick has dispatched so far. -/
def processRepo (config : Config) (budget : Nat) : Run Nat := do
  let cursor ← ask .getCursor
  let cursor ← advancePass cursor
  let cursor ← transientPass config cursor
  match ← observe with
  | none => pure budget
  | some head =>
      ask .indexSkills
      decideStep config cursor head budget

end Controller

import Mathlib.Data.Char
import Mathlib.Data.List.Dedup
import Mathlib.Data.List.Lex
import Mathlib.Data.List.Sort
import Myndaix.Automerge.RawDiff
import Myndaix.Inbox.Fence
import Myndaix.Text.Occurrences
import Myndaix.Text.Trim

/-! The board of a tick: every pulled thread with its class, the labels and drafts made for them,
and the brief that is delivered.
-/

namespace Inbox

open Outcomes (isSpace strip)
open Patterns Text

-- Classes

inductive Category where
  | jobReply
  | waitingOnMe
  | needsYou
  | fyi
  | noise
  | suspicious
  | unclassified
deriving DecidableEq, Repr

def CATEGORIES : List Category :=
  [.jobReply, .waitingOnMe, .needsYou, .fyi, .noise]

def DRAFT_CATEGORIES : List Category :=
  [.jobReply, .needsYou]

/-- A validated row of the classifier's answer. -/
structure Row where
  category : Category
  known : category ∈ CATEGORIES
  reason : Str
  draftWorthy : Bool
  draftHint : Str
deriving DecidableEq, Repr

/-- A thread on the board: its class, and the draft created for it if there is one. -/
structure BoardItem extends Item where
  category : Category
  reason : Str
  draftWorthy : Bool
  draftId : Str
deriving DecidableEq, Repr

def BoardItem.plain (thread : ThreadSummary) (category : Category) (reason : Str) : BoardItem :=
  {
    thread := thread
    draftHint := []
    category := category
    reason := reason
    draftWorthy := false
    draftId := []
  }

def BoardItem.answered (thread : ThreadSummary) (row : Row) : BoardItem :=
  {
    thread := thread
    draftHint := row.draftHint
    category := row.category
    reason := row.reason
    draftWorthy := row.draftWorthy
    draftId := []
  }

/-- What the classifier made of a chunk: a row for each thread id that it did not skip, or none if
its answer was unusable.
-/
abbrev Classification : Type :=
  Option (Str → Option Row)

/-- The items of a chunk. -/
def chunkItems (chunk : List ThreadSummary) : Classification → List BoardItem
  | none => chunk.map (fun thread => .plain thread .unclassified [])
  | some rows =>
      chunk.map (fun thread =>
        match rows thread.threadId with
        | none => .plain thread .unclassified []
        | some row => .answered thread row)

/-- Every thread's item, and whether no chunk was left without an answer. The classifier answers the
chunks by their number.
-/
def classify (unicode : Unicode) (nonce : Str) (answers : Nat → Classification)
    (threads : List ThreadSummary)
    : List BoardItem × Bool :=
  let dropped := threads.filter (suspicious unicode nonce)
  let candidates := threads.filter (fun thread => !suspicious unicode nonce thread)
  let excess := candidates.drop (MAX_CLASSIFY * MAX_CLASSIFY_CALLS)
  let chunks := (classifyChunks unicode threads nonce).zipIdx
  let flag :=
    "SUSPICIOUS: fence marker inside content (breakout attempt) — open with care".toList
  let budget := "over per-run classify budget — act from this list".toList
  (dropped.map (fun thread => .plain thread .suspicious flag)
      ++ excess.map (fun thread => .plain thread .unclassified budget)
      ++ chunks.flatMap (fun (chunk, i) => chunkItems chunk (answers i)),
    chunks.all (fun (_, i) => (answers i).isSome))

-- Actions

/-- What a tick knows of an account. The client is there exactly if the pull was fine. -/
structure AccountRun where
  account : Str
  status : Str
  ok : Bool
  threads : List ThreadSummary
  newHistoryId : Str
  prevHistoryId : Option Str
  actionFailed : Bool
deriving DecidableEq, Repr

/-- `by_account[account]`: the last run of the account. -/
def byAccount (account : Str) (runs : List AccountRun) : Option AccountRun :=
  runs.reverse.find? (fun run => run.account = account)

/-- `by_account[account].action_failed = True`. -/
def failAction (account : Str) : List AccountRun → List AccountRun
  | [] => []
  | run :: rest =>
      if run.account = account && !rest.any (fun later => later.account = account) then
        { run with actionFailed := true } :: rest
      else run :: failAction account rest

/-- One label for each account and class; `labelled` tells which ones Gmail took. -/
def applyLabels (labelled : Str → Category → Bool) (items : List BoardItem) (runs : List AccountRun)
    : List AccountRun :=
  let grouped :=
    ((items.filter (fun item => item.category ∈ CATEGORIES)).map
      (fun item => (item.thread.account, item.category))).dedup
  grouped.foldl
    (fun runs (account, category) =>
      match byAccount account runs with
      | none => runs
      | some run =>
          if run.ok && !labelled account category then failAction account runs else runs)
    runs

/-- What the services answer about the draft of an item: whether the thread has one already, what
the model composes, and the id that Gmail gives the draft. None is a failure.
-/
structure DraftAnswers where
  exists_ : Option Bool
  composed : Option Str
  created : Str → Option Str

def composeDraft (unicode : Unicode) (item : BoardItem) (composed : Option Str) : Option Str :=
  -- The nonce is drawn after the texts, so whether the draft is skipped does not hang on it.
  match composePrompt unicode item.toItem [], composed with
  | some _, some raw =>
      let text := strip (clean unicode raw)
      if text.isEmpty then none else some text
  | _, _ => none

/-- Drafts for the items from here on, while the budget of attempts lasts; `answers` goes by the
place of an item on the board.
-/
def createDrafts (unicode : Unicode) (answers : Nat → DraftAnswers)
    : Nat → Nat → List BoardItem → List AccountRun → List BoardItem × List AccountRun
  | _, _, [], runs => ([], runs)
  | budget, place, item :: rest, runs =>
      let skip (budget : Nat) (runs : List AccountRun) :=
        let (items, runs) := createDrafts unicode answers budget (place + 1) rest runs
        (item :: items, runs)
      if !(item.draftWorthy && item.category ∈ DRAFT_CATEGORIES) then skip budget runs
      else
        match byAccount item.thread.account runs with
        | none => skip budget runs
        | some run =>
            if !run.ok then skip budget runs
            else
              match budget with
              | 0 => (item :: rest, runs)
              | left + 1 =>
                  match (answers place).exists_ with
                  | some true => skip budget runs
                  | none => skip budget (failAction run.account runs)
                  | some false =>
                      match composeDraft unicode item (answers place).composed with
                      | none => skip left runs
                      | some body =>
                          match (answers place).created body with
                          | none => skip left (failAction run.account runs)
                          | some draftId =>
                              let (items, runs) :=
                                createDrafts unicode answers left (place + 1) rest runs
                              ({ item with draftId := draftId } :: items, runs)

def MAX_DRAFTS : Nat := 5

-- The brief

/-- `re.sub` with a fixed text, for an expression that reads at least one symbol. -/
def replaced {Symbol : Type} (regex : Regex Symbol) (filler : List Symbol)
    : Nat → Place Symbol → List Symbol
  | 0, place => place.after
  | fuel + 1, place =>
      match (regex.ends place).head?, place.after with
      | some next, _ => filler ++ replaced regex filler fuel next
      | none, symbol :: after =>
          symbol :: replaced regex filler fuel { before := symbol :: place.before, after := after }
      | none, [] => []

/-- `_one_line`. -/
def oneLine (unicode : Unicode) (text : Str) : Str :=
  let cleaned := clean unicode text
  let defanged :=
    replaced (fenceMarker id) "[fence-marker stripped]".toList cleaned.length (.start cleaned)
  strip (squeeze isSpace ' ' defanged)

def PERSONAL_DOMAINS : List Str :=
  ["gmail.com".toList, "googlemail.com".toList]

local instance lawfulStr : LawfulBEq Str :=
  inferInstance

def accountTag (account : Str) : Str :=
  let domain := (account.splitOn '@').getLastD []
  if Automerge.lower domain ∈ PERSONAL_DOMAINS then "personal".toList else "work".toList

/-- A text, or the other one if it is empty. -/
def orElse (text other : Str) : Str :=
  if text.isEmpty then other else text

def itemLine (unicode : Unicode) (item : BoardItem) : Str :=
  let thread := item.thread
  let subject := orElse (oneLine unicode thread.subject) "(no subject)".toList
  let sender := orElse (oneLine unicode thread.sender) "(unknown sender)".toList
  let reason := if item.reason.isEmpty then [] else [item.reason]
  " — ".toList.intercalate
    (["- [".toList ++ accountTag thread.account ++ "] ".toList ++ subject, sender] ++ reason)

def accountLine (valveAccounts : List Str) (run : AccountRun) : Str :=
  let incomplete :=
    if !run.actionFailed then []
    else if run.account ∈ valveAccounts then
      (" — actions incomplete; BOUNDED-LOSS LIMIT reached, advancing "
        ++ "past this slice (labels/drafts NOT applied — ACT FROM THIS BRIEF)").toList
    else " — actions incomplete (cursor held)".toList
  let status :=
    if run.ok then
      "ok — ".toList ++ (toString run.threads.length).toList ++ " thread(s)".toList ++ incomplete
    else run.status
  "- ".toList ++ run.account ++ " [".toList ++ accountTag run.account ++ "]: ".toList ++ status

/-- The line of a brief whose classifier was unavailable: which accounts move on without it. -/
def classifierNotice (valveAccounts : List Str) : Str :=
  if valveAccounts.isEmpty then
    ("Classifier unavailable this run — threads listed unclassified; "
      ++ "cursors held for a clean retry.").toList
  else
    let advancing := ", ".toList.intercalate (valveAccounts.insertionSort (· ≤ ·))
    ("Classifier unavailable this run — threads listed unclassified. "
        ++ "BOUNDED-LOSS LIMIT reached for: ").toList
      ++ advancing
      ++ (" — the assistant is "
        ++ "advancing past this slice, so ACT ON THESE FROM THIS BRIEF. (If the "
        ++ "advance is contended they may resurface next run — don\x27t count on "
        ++ "it.) Any other account still retries.").toList

def section_ (title : String) (lines : List Str) : List Str :=
  if lines.isEmpty then [] else [[], "## ".toList ++ title.toList] ++ lines

def draftLine (unicode : Unicode) (item : BoardItem) : Str :=
  itemLine unicode item ++ " — draft ".toList ++ item.draftId

/-- The lines of `assemble_brief`. -/
def briefLines (unicode : Unicode) (date : Str) (runs : List AccountRun) (items : List BoardItem)
    (classifyOk : Bool) (valveAccounts : List Str)
    : List Str :=
  let undrafted (categories : List Category) :=
    (items.filter (fun item => item.category ∈ categories && item.draftId.isEmpty)).map
      (itemLine unicode)
  let listed (category : Category) :=
    (items.filter (fun item => item.category = category)).map (itemLine unicode)
  let drafted := items.filter (fun item => !item.draftId.isEmpty)
  let noise := items.countP (fun item => item.category = .noise)
  ["# Inbox brief — ".toList ++ date, []]
    ++ runs.map (accountLine valveAccounts)
    ++ (if classifyOk then [] else [[], classifierNotice valveAccounts])
    ++ section_ "NEEDS YOU" (undrafted [.needsYou, .suspicious])
    ++ section_ "DRAFTS WAITING" (drafted.map (draftLine unicode))
    ++ section_ "JOB REPLIES" (undrafted [.jobReply])
    ++ section_ "WAITING ON ME" (undrafted [.waitingOnMe])
    ++ section_ "FYI" (listed .fyi)
    ++ section_ "UNCLASSIFIED" (listed .unclassified)
    ++ (if noise = 0 then []
        else
          [[], "Noise: ".toList ++ (toString noise).toList ++ " thread(s) (counts only)".toList])

/-- `assemble_brief`. -/
def assembleBrief (unicode : Unicode) (date : Str) (runs : List AccountRun) (items : List BoardItem)
    (classifyOk : Bool) (valveAccounts : List Str)
    : Str :=
  ['\n'].intercalate (briefLines unicode date runs items classifyOk valveAccounts) ++ ['\n']

end Inbox

import Myndaix.Inbox.Fence
import Myndaix.Interaction.Contracts

/-! The incremental pull of the Gmail client: the pages of the mailbox history since the cursor, the
threads that their records name, and a summary of each. The mailbox moves on between the requests.
-/

namespace Inbox.Gmail

open Interaction Interaction.Program

-- The history

def INBOX : Str := "INBOX".toList

structure MessageRef where
  id : Str
  threadId : Option Str
deriving DecidableEq, Repr

/-- What happens to a message. -/
inductive Change where
  | messageAdded (message : MessageRef) (labelIds : List Str)
  | messageDeleted (message : MessageRef)
  | labelAdded (message : MessageRef) (labelIds : List Str)
  | labelRemoved (message : MessageRef) (labelIds : List Str)
deriving DecidableEq, Repr

def Change.message : Change → MessageRef
  | .messageAdded message _ | .messageDeleted message | .labelAdded message _
  | .labelRemoved message _ => message

/-- The change's `historyType`. -/
def Change.type : Change → Str
  | .messageAdded .. => "messageAdded".toList
  | .messageDeleted .. => "messageDeleted".toList
  | .labelAdded .. => "labelAdded".toList
  | .labelRemoved .. => "labelRemoved".toList

/-- The message arrives with the label, or gets it back. -/
def Change.Into (label : Str) : Change → Prop
  | .messageAdded _ labelIds | .labelAdded _ labelIds => label ∈ labelIds
  | .messageDeleted _ | .labelRemoved _ _ => False

/-- A record of the history. Its `messages` list every message that it changes, whatever the change,
and its `labelsAdded` the additions of labels.
-/
structure HistoryRecord where
  id : Nat
  changes : List Change
  messages : List MessageRef
  labelsAdded : List (MessageRef × List Str)
  messages_iff : ∀ message, message ∈ messages ↔ ∃ change ∈ changes, change.message = message
  labelsAdded_iff
    : ∀ message labelIds,
        (message, labelIds) ∈ labelsAdded ↔ .labelAdded message labelIds ∈ changes

structure Page where
  historyId : Option Nat
  history : List HistoryRecord
  nextPageToken : Option Str

/-- A thread's message, as `threads.get` shows it. -/
structure Message where
  id : Str
  headers : List (Str × Str)
  snippet : Option Str
deriving DecidableEq, Repr

-- The client

/-- How a request fails for good: the token is revoked, or a status that is not retried. -/
inductive Failure where
  | refresh
  | http (status : Nat)
deriving DecidableEq, Repr

inductive PullError where
  | cursorExpired
  | failed (failure : Failure)
deriving DecidableEq, Repr

inductive Query where
  | historyList (startHistoryId : Nat) (labelId : Str) (historyTypes : List Str)
    (pageToken : Option Str)
  | threadsGet (id : Str) (metadataHeaders : List Str)

abbrev Answer : Query → Type
  | .historyList .. => Except Failure Page
  | .threadsGet .. => Except Failure (List Message)

abbrev Client (Result : Type) : Type :=
  Program Query Answer Result

abbrev ask (query : Query) : Client (Answer query) :=
  Program.ask query

structure Pulled where
  threads : List ThreadSummary
  newHistoryId : Nat
deriving DecidableEq, Repr

/-- `if msg.get("threadId"): thread_ids.setdefault(msg["threadId"], None)`. -/
def remember (threadIds : List Str) (message : MessageRef) : List Str :=
  match message.threadId with
  | none => threadIds
  | some threadId =>
      if threadId = [] ∨ threadId ∈ threadIds then threadIds else threadIds ++ [threadId]

/-- The body of the loop over the records of a page. -/
def collect (threadIds : List Str) (record : HistoryRecord) : List Str :=
  record.labelsAdded.foldl
    (fun threadIds (message, labelIds) =>
      if INBOX ∈ labelIds then remember threadIds message else threadIds)
    (record.messages.foldl remember threadIds)

def historyTypes : List Str :=
  ["messageAdded".toList, "labelAdded".toList]

/-- The new history is that of the first page. -/
def checkpointOf (firstPage : Bool) (page : Page) (newHistoryId : Nat) : Nat :=
  if firstPage then page.historyId.getD newHistoryId else newHistoryId

/-- The loop over the pages, which ends without a result after so many requests. -/
def pullPages (start : Nat)
    : Nat → Bool → Nat → Option Str → List Str → Client (Option (Except PullError (List Str × Nat)))
  | 0, _, _, _, _ => pure none
  | requests + 1, firstPage, newHistoryId, pageToken, threadIds => do
      match ← ask (.historyList start INBOX historyTypes pageToken) with
      | .error failure =>
          pure (some (.error (if failure = .http 404 then .cursorExpired else .failed failure)))
      | .ok page =>
          let newHistoryId := checkpointOf firstPage page newHistoryId
          let threadIds := page.history.foldl collect threadIds
          match page.nextPageToken.filter (· ≠ []) with
          | none => pure (some (.ok (threadIds, newHistoryId)))
          | some token => pullPages start requests false newHistoryId (some token) threadIds

section Summaries

variable (unicode : Unicode) (lower : Str → Str) (account : Str)

/-- `_CTRL_RE`. -/
def isCtrl (char : Char) : Bool :=
  char.toNat ≤ 0x1F || char.toNat = 0x7F

def clean (text : Option Str) : Str :=
  stripInvisibles unicode ((text.getD []).filter (fun char => !isCtrl char))

/-- `_header_map(message).get(name)`: of several headers with one name, the last one counts. -/
def header (message : Message) (name : Str) : Option Str :=
  (message.headers.reverse.find? (fun header => lower header.1 = name)).map Prod.snd

def summary (threadId : Str) (newest : Message) : ThreadSummary where
  account
  threadId
  sender := clean unicode (header lower newest "from".toList)
  subject := clean unicode (header lower newest "subject".toList)
  date := clean unicode (header lower newest "date".toList)
  snippet := clean unicode newest.snippet

def threadSummaries : List Str → List ThreadSummary → Client (Except PullError (List ThreadSummary))
  | [], out => pure (.ok out)
  | threadId :: rest, out => do
      match ← ask (.threadsGet threadId ["From".toList, "Subject".toList, "Date".toList]) with
      | .error failure =>
          if failure = .http 404 then threadSummaries rest out else pure (.error (.failed failure))
      | .ok messages =>
          match messages.getLast? with
          | none => threadSummaries rest out
          | some newest =>
              threadSummaries rest (out ++ [summary unicode lower account threadId newest])

def pullSinceHistory (requests start : Nat) : Client (Option (Except PullError Pulled)) := do
  match ← pullPages start requests true start none [] with
  | none => pure none
  | some (.error error) => pure (some (.error error))
  | some (.ok (threadIds, newHistoryId)) =>
      match ← threadSummaries unicode lower account threadIds [] with
      | .error error => pure (some (.error error))
      | .ok threads => pure (some (.ok { threads, newHistoryId }))

end Summaries

-- The mailbox

/-- The history of a mailbox, with the number it has come to. -/
structure Mailbox where
  records : List HistoryRecord
  latest : Nat
  bounded : ∀ record ∈ records, record.id ≤ latest

/-- The mailbox during a pull: where it was at the first request, what the pages returned so far and
how many they were, and the threads that were found gone.
-/
structure World extends Mailbox where
  checkpoint : Option Nat
  returned : List HistoryRecord
  served : Nat
  gone : List Str

def World.start (mailbox : Mailbox) : World :=
  { mailbox with checkpoint := none, returned := [], served := 0, gone := [] }

/-- A record with a message that comes into the label, by a change of such a type. -/
def Selected (label : Str) (types : List Str) (record : HistoryRecord) : Prop :=
  ∃ change ∈ record.changes, change.Into label ∧ change.type ∈ types

/-- Events arrive between the requests, with higher numbers than the mailbox had come to. -/
structure Moves (before after : World) : Prop where
  kept : ∀ record ∈ before.records, record ∈ after.records
  arrived : ∀ record ∈ after.records, record ∈ before.records ∨ before.latest < record.id
  latest : before.latest ≤ after.latest
  checkpoint : after.checkpoint = before.checkpoint
  returned : after.returned = before.returned
  served : after.served = before.served
  gone : after.gone = before.gone

/-- A page of the history: records since the start that change something of the requested types. The
first page tells where the mailbox is, and the last one is not sent before the pages cover what was
requested up to there.
-/
structure Serves (start : Nat) (labelId : Str) (types : List Str) (page : Page)
    (before after : World)
    : Prop where
  genuine
    : ∀ record ∈ page.history,
        record ∈ before.records ∧ start < record.id
        ∧ ∃ change ∈ record.changes, change.type ∈ types
  first : before.checkpoint = none → page.historyId = some before.latest
  next
    : after = {
        before with
        checkpoint := some (before.checkpoint.getD before.latest)
        returned := before.returned ++ page.history
        served := before.served + 1
      }
  covers
    : page.nextPageToken.filter (· ≠ []) = none
      → ∀ record ∈ before.records,
          start < record.id → record.id ≤ before.checkpoint.getD before.latest
          → Selected labelId types record → record ∈ after.returned

/-- How Gmail answers. -/
def Answers : (query : Query) → World → Answer query → World → Prop
  | .historyList start labelId types _, before, .ok page, after =>
      Serves start labelId types page before after
  | .historyList .., before, .error _, after => after = before
  | .threadsGet threadId _, before, .ok messages, after =>
      after = { before with gone := if messages = [] then threadId :: before.gone else before.gone }
  | .threadsGet threadId _, before, .error failure, after =>
      after = {
        before with gone := if failure = .http 404 then threadId :: before.gone else before.gone
      }

theorem Moves.refl (world : World) : Moves world world :=
  ⟨fun _ => id, fun _ => .inl, le_rfl, rfl, rfl, rfl, rfl⟩

theorem Moves.trans {first second third : World} (early : Moves first second)
    (late : Moves second third)
    : Moves first third where
  kept := fun record mem => late.kept record (early.kept record mem)
  arrived := fun record mem => by
    rcases late.arrived record mem with mem | newer
    · exact early.arrived record mem
    · exact .inr (early.latest.trans_lt newer)
  latest := early.latest.trans late.latest
  checkpoint := late.checkpoint.trans early.checkpoint
  returned := late.returned.trans early.returned
  served := late.served.trans early.served
  gone := late.gone.trans early.gone

def gmail : Setting Query Answer World where
  interferes := Moves
  answers := Answers
  permits := fun _ _ => True
  interferes_refl := Moves.refl
  interferes_trans := Moves.trans

end Inbox.Gmail

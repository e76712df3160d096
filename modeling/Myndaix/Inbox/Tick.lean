import Myndaix.Inbox.Board
import Myndaix.Inbox.Cursor

/-! A tick of the inbox assistant: every account is pulled on its own, the batch is classified and
acted on, the brief goes out, and only then the cursors move.
-/

namespace Inbox

-- Pulls

inductive PullFailure where
  | auth
  | other (error : Str)
deriving DecidableEq, Repr

structure PullResult where
  threads : List ThreadSummary
  newHistoryId : Str
deriving DecidableEq, Repr

/-- What the vault and Gmail answer for an account. -/
structure Mailbox where
  /-- The token is read, and the address of its mailbox is that of the account. -/
  identity : Except PullFailure Bool
  /-- No failure stands for a history that has expired. -/
  pullSinceHistory : Str → Except (Option PullFailure) PullResult
  pullBoundedBackfill : Except PullFailure PullResult

def Mailbox.pull (mailbox : Mailbox) : Option Str → Except PullFailure PullResult
  | none => mailbox.pullBoundedBackfill
  | some historyId =>
      match mailbox.pullSinceHistory historyId with
      | .ok result => .ok result
      | .error none => mailbox.pullBoundedBackfill
      | .error (some failure) => .error failure

def failedRun (account status : Str) (prevHistoryId : Option Str) : AccountRun :=
  {
    account := account
    status := status
    ok := false
    threads := []
    newHistoryId := []
    prevHistoryId := prevHistoryId
    actionFailed := false
  }

def PullFailure.status : PullFailure → Str
  | .auth => "needs re-auth (token revoked — usually a password change)".toList
  | .other error => "pull failed: ".toList ++ error

def PullFailure.state : PullFailure → CursorState
  | .auth => .error
  | .other _ => .stale

/-- A failure is marked on the row that was read, or on whatever row there is. -/
def markPullError (account : Str) (state : CursorState) (cursorRead rowExisted : Bool)
    (prevHistoryId : Option Str) (cursors : Cursors)
    : Cursors :=
  if cursorRead && rowExisted then
    (inboxMarkCursorError account state (.bound prevHistoryId) cursors).2
  else (inboxMarkCursorError account state .unbound cursors).2

def pullAccount (account : Str) (mailbox : Mailbox) (cursors : Cursors) : AccountRun × Cursors :=
  match mailbox.identity with
  | .error failure =>
      (failedRun account failure.status none,
        markPullError account failure.state false false none cursors)
  | .ok false =>
      (failedRun account "token/mailbox mismatch — re-mint for this account".toList none,
        (inboxMarkCursorError account .error .unbound cursors).2)
  | .ok true =>
      let cursor := inboxGetCursor account cursors
      let prevHistoryId := history cursor
      match mailbox.pull prevHistoryId with
      | .error failure =>
          (failedRun account failure.status prevHistoryId,
            markPullError account failure.state true cursor.isSome prevHistoryId cursors)
      | .ok result =>
          let run :=
            {
              account := account
              status := "ok".toList
              ok := true
              threads := result.threads
              newHistoryId := result.newHistoryId
              prevHistoryId := prevHistoryId
              actionFailed := false
            }
          (run, cursors)

/-- The accounts are pulled one after the other. -/
def pullAccounts : List (Str × Mailbox) → Cursors → List AccountRun × Cursors
  | [], cursors => ([], cursors)
  | (account, mailbox) :: rest, cursors =>
      let (run, cursors) := pullAccount account mailbox cursors
      let (runs, cursors) := pullAccounts rest cursors
      (run :: runs, cursors)

-- The valve

def CLASSIFY_HOLD_MAX : Nat := 3

/-- `_is_held`: the pull was fine, but the tick or the account's actions were not. -/
def AccountRun.isHeld (run : AccountRun) (classifyOk : Bool) : Bool :=
  run.ok && !run.newHistoryId.isEmpty && (!classifyOk || run.actionFailed)

/-- The failures counted for each held run whose row still owns its slice. -/
def valveAttempts (runs : List AccountRun) (classifyOk : Bool) (cursors : Cursors)
    : List (Str × Nat) :=
  (runs.filter (fun run => run.isHeld classifyOk)).filterMap (fun run =>
    match inboxGetCursor run.account cursors with
    | none => none
    | some cursor =>
        if cursor.historyId = run.prevHistoryId then some (run.account, cursor.attempts) else none)

/-- The held accounts at the limit. -/
def limited (attempts : List (Str × Nat)) : List Str :=
  ((attempts.filter (fun (_, count) => CLASSIFY_HOLD_MAX ≤ count + 1)).map Prod.fst).dedup

attribute [local instance] lawfulStr

/-- What a delivered tick does to the cursor of a run. -/
def settle (classifyOk : Bool) (valveAccounts : List Str) (cursors : Cursors) (run : AccountRun)
    : Cursors :=
  if !(run.ok && !run.newHistoryId.isEmpty) then cursors
  else if !run.isHeld classifyOk || run.account ∈ valveAccounts then
    (inboxAdvanceCursor run.account run.newHistoryId run.prevHistoryId cursors).2
  else (inboxMarkCursorError run.account .error (.bound run.prevHistoryId) cursors).2

-- The tick

/-- What a tick meets. -/
structure Visit where
  accounts : List (Str × Mailbox)
  /-- Without accounts the assistant is off. -/
  configured : accounts ≠ []
  /-- The OAuth client that all accounts share can be read. -/
  secrets : Bool
  nonce : Str
  answers : Nat → Classification
  labelled : Str → Category → Bool
  drafts : Nat → DraftAnswers
  date : Str
  /-- `deliver_jefe_drop`. -/
  delivered : Bool

/-- What a tick leaves behind. -/
structure Report where
  runs : List AccountRun
  items : List BoardItem
  classifyOk : Bool
  valveAccounts : List Str
  board : Str
  cursors : Cursors
  exitCode : Nat
deriving DecidableEq, Repr

def pullAll (visit : Visit) (cursors : Cursors) : List AccountRun × Cursors :=
  if visit.secrets then pullAccounts visit.accounts cursors
  else
    (visit.accounts.map (fun (account, _) =>
        failedRun account "pull failed: OpReadError".toList none),
      cursors)

/-- `all_threads`. -/
def allThreads (runs : List AccountRun) : List ThreadSummary :=
  (runs.filter AccountRun.ok).flatMap AccountRun.threads

def tick (unicode : Unicode) (visit : Visit) (cursors : Cursors) : Report :=
  let (pulled, cursors) := pullAll visit cursors
  let (classified, classifyOk) := classify unicode visit.nonce visit.answers (allThreads pulled)
  let labelled := applyLabels visit.labelled classified pulled
  let (items, runs) := createDrafts unicode visit.drafts MAX_DRAFTS 0 classified labelled
  let valveAccounts := limited (valveAttempts runs classifyOk cursors)
  {
    runs := runs
    items := items
    classifyOk := classifyOk
    valveAccounts := valveAccounts
    board := assembleBrief unicode visit.date runs items classifyOk valveAccounts
    cursors :=
      if visit.delivered then runs.foldl (settle classifyOk valveAccounts) cursors else cursors
    exitCode := if visit.delivered && runs.any AccountRun.ok then 0 else 1
  }

/-- The cursors after some ticks. -/
def ticks (unicode : Unicode) (visits : List Visit) (cursors : Cursors) : Cursors :=
  visits.foldl (fun cursors visit => (tick unicode visit cursors).cursors) cursors

end Inbox

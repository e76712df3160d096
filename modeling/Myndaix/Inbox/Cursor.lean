import Myndaix.Inbox.Fence
import Myndaix.Relational.Table

/-! The inbox cursor of an account: the mailbox history up to which its mail was processed, and how
many ticks in a row have failed since. Each verb is one statement about one row.
-/

namespace Inbox

open Relational

-- The table

inductive CursorState where
  | active
  | error
  | stale
deriving DecidableEq, Repr

/-- A row of `inbox_cursor`. Without a history it is a seed, which only counts failures. -/
structure Cursor where
  accountId : Str
  historyId : Option Str
  state : CursorState
  attempts : Nat
deriving DecidableEq, Repr

abbrev Cursors : Type :=
  List Cursor

def inboxGetCursor (account : Str) (cursors : Cursors) : Option Cursor :=
  lookup Cursor.accountId account cursors

/-- `UPDATE inbox_cursor SET change WHERE the account and the guard RETURNING`. -/
def updateCursor (guard : Cursor → Bool) (change : Cursor → Cursor) (account : Str)
    (cursors : Cursors)
    : Bool × Cursors :=
  let selected (row : Cursor) := row.accountId = account && guard row
  (cursors.any selected, update selected change cursors)

-- The verbs

/-- The row after its slice has been processed. -/
def processed (account historyId : Str) : Cursor :=
  {
    accountId := account
    historyId := some historyId
    state := .active
    attempts := 0
  }

def advanced (historyId : Str) (row : Cursor) : Cursor :=
  { row with historyId := some historyId, state := .active, attempts := 0 }

/-- Insert the row, or advance it if it still holds the expected history. -/
def inboxAdvanceCursor (account historyId : Str) (expected : Option Str) (cursors : Cursors)
    : Bool × Cursors :=
  match inboxGetCursor account cursors with
  | none => (true, cursors ++ [processed account historyId])
  | some _ =>
      updateCursor (fun row => row.historyId = expected) (advanced historyId) account cursors

/-- What a mark expects: `_UNBOUND`, or the history that the tick has read. -/
inductive Expected where
  | unbound
  | bound (historyId : Option Str)
deriving DecidableEq, Repr

def failedOnce (state : CursorState) (row : Cursor) : Cursor :=
  { row with state := state, attempts := row.attempts + 1 }

/-- Count a failed tick. A tick that has read no history seeds a row, or finds one still unread. -/
def inboxMarkCursorError (account : Str) (state : CursorState) (expected : Expected)
    (cursors : Cursors)
    : Bool × Cursors :=
  match expected with
  | .unbound => updateCursor (fun _ => true) (failedOnce state) account cursors
  | .bound none =>
      match inboxGetCursor account cursors with
      | none =>
          let seed := { accountId := account, historyId := none, state := state, attempts := 1 }
          (true, cursors ++ [seed])
      | some _ =>
          updateCursor (fun row => row.historyId = none) (failedOnce state) account cursors
  | .bound (some historyId) =>
      updateCursor (fun row => row.historyId = some historyId) (failedOnce state) account cursors

-- What a verb does to a row

/-- An advance, as the account's row sees it. -/
def advanceRow (account historyId : Str) (expected : Option Str) : Option Cursor → Option Cursor
  | none => some (processed account historyId)
  | some row => if row.historyId = expected then some (processed account historyId) else some row

/-- A mark, as the account's row sees it. -/
def markRow (account : Str) (state : CursorState) : Expected → Option Cursor → Option Cursor
  | .bound none, none =>
      some { accountId := account, historyId := none, state := state, attempts := 1 }
  | _, none => none
  | .unbound, some row => some (failedOnce state row)
  | .bound expected, some row =>
      if row.historyId = expected then some (failedOnce state row) else some row

section Rows

variable {cursors : Cursors} {account other historyId : Str} {expected : Option Str}
  {state : CursorState} {guard : Cursor → Bool} {change : Cursor → Cursor} {row : Cursor}

theorem getCursor_account (found : inboxGetCursor account cursors = some row)
    : row.accountId = account :=
  lookup_key found

theorem advanced_account (historyId : Str) (row : Cursor)
    : (advanced historyId row).accountId = row.accountId :=
  rfl

theorem failedOnce_account (state : CursorState) (row : Cursor)
    : (failedOnce state row).accountId = row.accountId :=
  rfl

theorem getCursor_update (keeps : ∀ row, (change row).accountId = row.accountId)
    : inboxGetCursor account (updateCursor guard change account cursors).2
      = (inboxGetCursor account cursors).map
        (fun row => if guard row then change row else row) := by
  unfold inboxGetCursor updateCursor
  rw [lookup_update keeps]
  cases found : lookup Cursor.accountId account cursors with
  | none => rfl
  | some row =>
      have own : row.accountId = account := lookup_key found
      simp [own]

theorem getCursor_update_other (keeps : ∀ row, (change row).accountId = row.accountId)
    (different : other ≠ account)
    : inboxGetCursor other (updateCursor guard change account cursors).2
      = inboxGetCursor other cursors := by
  unfold inboxGetCursor updateCursor
  rw [lookup_update keeps]
  cases found : lookup Cursor.accountId other cursors with
  | none => rfl
  | some row =>
      have own : row.accountId = other := lookup_key found
      simp [own, different]

theorem getCursor_append (added : Cursor) (absent : inboxGetCursor added.accountId cursors = none)
    : inboxGetCursor added.accountId (cursors ++ [added]) = some added := by
  unfold inboxGetCursor at *
  rw [lookup_append, absent, if_pos rfl, Option.none_or]

theorem getCursor_append_other (added : Cursor) (different : other ≠ added.accountId)
    : inboxGetCursor other (cursors ++ [added]) = inboxGetCursor other cursors := by
  unfold inboxGetCursor
  rw [lookup_append, if_neg (Ne.symm different), Option.or_none]

theorem getCursor_advance
    : inboxGetCursor account (inboxAdvanceCursor account historyId expected cursors).2
      = advanceRow account historyId expected (inboxGetCursor account cursors) := by
  unfold inboxAdvanceCursor
  cases found : inboxGetCursor account cursors with
  | none => exact getCursor_append (processed account historyId) found
  | some row =>
      dsimp only
      rw [getCursor_update (advanced_account historyId), found]
      obtain rfl := getCursor_account found
      by_cases same : row.historyId = expected <;> simp [advanceRow, advanced, processed, same]

theorem getCursor_advance_other (different : other ≠ account)
    : inboxGetCursor other (inboxAdvanceCursor account historyId expected cursors).2
      = inboxGetCursor other cursors := by
  unfold inboxAdvanceCursor
  cases inboxGetCursor account cursors with
  | none => exact getCursor_append_other _ different
  | some row => exact getCursor_update_other (advanced_account historyId) different

theorem getCursor_mark {expected : Expected}
    : inboxGetCursor account (inboxMarkCursorError account state expected cursors).2
      = markRow account state expected (inboxGetCursor account cursors) := by
  unfold inboxMarkCursorError
  match expected with
  | .unbound =>
      dsimp only
      rw [getCursor_update (failedOnce_account state)]
      cases inboxGetCursor account cursors with
      | none => rfl
      | some row => simp [markRow]
  | .bound none =>
      cases found : inboxGetCursor account cursors with
      | none =>
          exact @getCursor_append cursors
            { accountId := account, historyId := none, state := state, attempts := 1 } found
      | some row =>
          dsimp only
          rw [getCursor_update (failedOnce_account state), found]
          by_cases same : row.historyId = none <;> simp [markRow, same]
  | .bound (some historyId) =>
      dsimp only
      rw [getCursor_update (failedOnce_account state)]
      cases inboxGetCursor account cursors with
      | none => rfl
      | some row => by_cases same : row.historyId = some historyId <;> simp [markRow, same]

theorem getCursor_mark_other {expected : Expected} (different : other ≠ account)
    : inboxGetCursor other (inboxMarkCursorError account state expected cursors).2
      = inboxGetCursor other cursors := by
  unfold inboxMarkCursorError
  match expected with
  | .unbound => exact getCursor_update_other (failedOnce_account state) different
  | .bound none =>
      cases inboxGetCursor account cursors with
      | none => exact getCursor_append_other _ different
      | some row => exact getCursor_update_other (failedOnce_account state) different
  | .bound (some historyId) => exact getCursor_update_other (failedOnce_account state) different

end Rows

-- What a row holds

/-- The history that the next pull starts from; none for no row and for a seed. -/
def history (row : Option Cursor) : Option Str :=
  row.bind Cursor.historyId

/-- The failures counted so far; none for no row. -/
def failures (row : Option Cursor) : Nat :=
  row.elim 0 Cursor.attempts

section Histories

variable {account historyId : Str} {state : CursorState} {row : Option Cursor}

/-- An advance that expects what the row holds moves it. -/
theorem advanceRow_history
    : advanceRow account historyId (history row) row = some (processed account historyId) := by
  cases row with
  | none => rfl
  | some row => exact if_pos rfl

/-- A mark that expects what the row holds keeps the history and counts one more failure. -/
theorem markRow_history
    : ∃ marked,
        markRow account state (.bound (history row)) row = some marked
        ∧ marked.historyId = history row
        ∧ marked.attempts = failures row + 1 := by
  cases row with
  | none => exact ⟨_, rfl, rfl, rfl⟩
  | some row =>
      refine ⟨failedOnce state row, ?_, rfl, rfl⟩
      match same : row.historyId with
      | none => simp [markRow, history, same]
      | some _ => simp [markRow, history, same]

end Histories

end Inbox

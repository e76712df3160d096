import Myndaix.Ledger.Verbs

/-! What the statements do when no other transaction is open: locks are free, and the latest
version of a row is the one that the snapshot has.
-/

namespace Ledger

open Interaction Relational Transactions

variable {Answer : Type} {database : Database} (target : Store Database Key Change)

theorem alone_look (next : Database → Txn Answer)
    : target.alone (look >>= next) database = target.alone (next database) database :=
  rfl

theorem alone_lock (key : Key) (next : Unit → Txn Answer)
    : target.alone (lock key >>= next) database = target.alone (next ()) database :=
  rfl

theorem alone_write (change : Change) (next : Unit → Txn Answer)
    : target.alone (write change >>= next) database
      = target.alone (next ()) (target.apply change database) :=
  rfl

/-- An insert goes through if none of its keys is taken. -/
theorem alone_insert (keys : List Key) (change : Change)
    : target.alone (insert keys change) database
      = if keys.all fun key => !target.present key database then
          .ok (true, target.apply change database)
        else .ok (false, database) :=
  Store.alone_insert target database keys change _

/-- Locking by skipping takes everything, by induction on the keys. -/
theorem alone_tryLocks (keys : List Key)
    : target.alone (tryLocks keys) database = .ok (true, database) := by
  induction keys with
  | nil => rfl
  | cons key keys ih => exact ih

/-- A skipping select finds every row that its condition still accepts, up to the limit, by
induction on the rows.
-/
theorem alone_selectForUpdate {Item : Type} (keys : Item → List Key)
    (condition : Database → Item → Bool) (limit : Nat) (items : List Item)
    : target.alone (selectForUpdate keys condition limit items) database
      = .ok ((items.filter (condition database)).take limit, database) := by
  have general (selected : List Item)
      : target.alone (Program.fold (selectRow keys condition limit) selected items) database
        = .ok
            (selected ++ (items.filter (condition database)).take (limit - selected.length),
              database) := by
    induction items generalizing selected with
    | nil => simp [Program.fold]
    | cons item items ih =>
        have row
            : target.alone (selectRow keys condition limit selected item) database
              = .ok
                  (if selected.length < limit ∧ condition database item = true then
                    selected ++ [item]
                  else selected, database) := by
          unfold selectRow
          by_cases room : selected.length < limit
          · simp only [room, if_true, true_and]
            rw [Store.alone_then (alone_tryLocks target (keys item))]
            simp only [if_true, alone_look]
            split <;> rfl
          · simp only [room, if_false, false_and]
            rfl
        rw [Program.fold, Store.alone_then row, ih]
        by_cases room : selected.length < limit
        · by_cases passes : condition database item = true
          · have left : limit - selected.length = limit - (selected.length + 1) + 1 := by omega
            simp [room, passes, left]
          · simp [passes]
        · have full : limit - selected.length = 0 := by omega
          simp [room, full]
  simpa [selectForUpdate] using general []

/-- So it does within a statement that read an earlier snapshot. -/
theorem alone_updateSince (snapshot : Database) (key : Key) (condition : Database → Bool)
    (change : Change)
    : target.alone (updateFrom snapshot key condition change) database
      = if condition snapshot = true ∧ condition database = true then
          .ok (true, target.apply change database)
        else .ok (false, database) := by
  unfold updateFrom
  by_cases before : condition snapshot = true
  · by_cases holds : condition database = true
    · simp only [before, holds, if_true, alone_lock, alone_look, alone_write, and_self]
      rfl
    · simp only [before, holds, if_true, alone_lock, alone_look]
      rfl
  · simp only [before]
    rfl

end Ledger

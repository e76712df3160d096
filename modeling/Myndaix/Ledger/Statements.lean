import Mathlib.Data.List.Sort
import Myndaix.Ledger.Schema
import Myndaix.Transactions.Serial

/-! The kinds of SQL statements that the verbs are made of. Each statement reads a snapshot,
waits for the locks of the rows it found there, and checks its conditions again on the latest
version of what it locked.
-/

namespace Ledger

open Interaction Transactions

inductive LedgerError : Type where
  | lostLease (message : String)
  | valueError (message : String)
  | typeError
  | uniqueViolation
  | foreignKeyViolation
  | notNullViolation
deriving DecidableEq, Repr

abbrev Txn (Answer : Type) : Type :=
  Transaction Database Key Change LedgerError Answer

def look : Txn Database :=
  .call .look .done

def lock (key : Key) : Txn Unit :=
  .call (.lock key) .done

def tryLock (key : Key) : Txn Bool :=
  .call (.tryLock key) .done

def insert (keys : List Key) (change : Change) : Txn Bool :=
  .call (.insert keys change) .done

def write (change : Change) : Txn Unit :=
  .call (.write change) .done

def unlock : Txn Unit :=
  .call .unlock .done

/-- `INSERT` without `ON CONFLICT`: a taken key is an error of the statement. -/
def insertNew (keys : List Key) (change : Change) : Txn Unit := do
  if ← insert keys change then pure () else raise .uniqueViolation

/-- `UPDATE ... WHERE` on one row, within a statement that read `snapshot`. The row is found by
the snapshot, locked, and changed if the condition holds of its latest version too; tables that
are only joined are read from the snapshot both times.
-/
def updateFrom (snapshot : Database) (key : Key) (condition : Database → Bool)
    (change : Change)
    : Txn Bool := do
  if condition snapshot then
    lock key
    let latest ← look
    if condition latest then
      write change
      pure true
    else pure false
  else pure false

/-- `UPDATE ... WHERE` on one row as a statement of its own; `condition` gets the snapshot and
the version to check.
-/
def update (key : Key) (condition : Database → Database → Bool) (change : Change)
    : Txn Bool := do
  let snapshot ← look
  updateFrom snapshot key (condition snapshot) change

/-- Lock one row after the other, skipping out at the first that another transaction holds. -/
def tryLocks : List Key → Txn Bool
  | [] => pure true
  | key :: keys => do
      if ← tryLock key then tryLocks keys else pure false

/-- One row of a skipping select: a row that is locked elsewhere, or whose latest version fails
the condition, is skipped.
-/
def selectRow {Item : Type} (keys : Item → List Key) (condition : Database → Item → Bool)
    (limit : Nat) (selected : List Item) (item : Item)
    : Txn (List Item) := do
  if selected.length < limit then
    if ← tryLocks (keys item) then
      let latest ← look
      if condition latest item then pure (selected ++ [item]) else pure selected
    else pure selected
  else pure selected

/-- `SELECT ... FOR UPDATE SKIP LOCKED LIMIT limit` over the rows found in the snapshot, in
order.
-/
def selectForUpdate {Item : Type} (keys : Item → List Key)
    (condition : Database → Item → Bool) (limit : Nat) (items : List Item)
    : Txn (List Item) :=
  Program.fold (selectRow keys condition limit) [] items

/-- `SELECT ... WHERE repo_id = $1 FOR UPDATE`: a row that does not exist is not locked. -/
def lockRepo (repo : String) : Txn Unit := do
  let snapshot ← look
  if (snapshot.repo? repo).isSome then lock (.repo repo) else pure ()

/-- `UPDATE repo_concurrency SET ... WHERE repo_id = $1`. -/
def updateRepo (repo : String) (change : Change) : Txn Bool :=
  update (.repo repo) (fun _ latest => (latest.repo? repo).isSome) change

end Ledger

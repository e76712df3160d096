import Mathlib.Logic.Relation
import Myndaix.Transactions.Semantics

/-! Deadlock freedom by lock order. A transaction waits for another when its next call needs a
key that the other holds; if every transaction only ever waits for keys that rank above all the
keys it holds, the wait-for graph has no cycle.
-/

namespace Transactions

open Interaction

variable {Database Key Change Error Verb Client Result Rank : Type}

/-- The keys a call takes and may have to wait for; `tryLock` never waits. -/
def Action.wants : Action Key Change Error → List Key
  | .lock key => [key]
  | .insert keys _ => keys
  | _ => []

/-- Whether a call waits when this key is busy: an insert that already sees a conflict is
answered at once.
-/
def Store.blocks (store : Store Database Key Change) (database : Database)
    : Action Key Change Error → Key → Prop
  | .lock wanted, key => key = wanted
  | .insert keys _, key => key ∈ keys ∧ keys.all fun wanted => !store.present wanted database
  | _, _ => False

/-- `client` cannot make its next call because `other` holds `key`. -/
def System.WaitsFor (store : Store Database Key Change)
    (system : System Database Key Change Error Verb Result Client) (client : Client)
    (key : Key) (other : Client)
    : Prop :=
  ∃ session action next holder,
    system.sessions client = some session
    ∧ session.program = .call action next
    ∧ store.blocks (store.viewAt (system.place session)) action key
    ∧ other ≠ client
    ∧ system.sessions other = some holder
    ∧ key ∈ holder.locks

/-- The wait-for graph of a system. -/
def System.Waits (store : Store Database Key Change)
    (system : System Database Key Change Error Verb Result Client) (client other : Client)
    : Prop :=
  ∃ key, system.WaitsFor store client key other

/-- A cycle in the wait-for graph. -/
def System.Deadlocked (store : Store Database Key Change)
    (system : System Database Key Change Error Verb Result Client)
    : Prop :=
  ∃ client, Relation.TransGen (system.Waits store) client client

/-- Every transaction that waits holds only keys that rank below the one it waits for. -/
def System.Ranked [Preorder Rank] (store : Store Database Key Change) (rank : Key → Rank)
    (system : System Database Key Change Error Verb Result Client)
    : Prop :=
  ∀ client session key other,
    system.sessions client = some session
    → system.WaitsFor store client key other
    → ∀ held ∈ session.locks, rank held < rank key

section Ranked

variable [Preorder Rank] {store : Store Database Key Change} {rank : Key → Rank}
  {system : System Database Key Change Error Verb Result Client}

/-- Along a path of the wait-for graph the ranks only grow: the last transaction holds a key
that ranks at least as high as the key the first one waits for. Witness: induction on the path.
-/
theorem System.Ranked.path (ranked : system.Ranked store rank) {first last : Client}
    (path : Relation.TransGen (system.Waits store) first last)
    : ∃ key next session held,
        system.WaitsFor store first key next
        ∧ system.sessions last = some session
        ∧ held ∈ session.locks
        ∧ rank key ≤ rank held := by
  induction path with
  | single waits =>
      obtain ⟨key, waits⟩ := waits
      have witness := waits
      obtain ⟨_, _, _, holder, _, _, _, _, open_, held⟩ := witness
      exact ⟨key, _, holder, key, waits, open_, held, le_rfl⟩
  | tail path waits ih =>
      obtain ⟨key, next, session, held, starts, open_, mem, below⟩ := ih
      obtain ⟨wanted, waits⟩ := waits
      have above : rank held < rank wanted := ranked _ session wanted _ open_ waits held mem
      obtain ⟨_, _, _, holder, _, _, _, _, open', held'⟩ := waits
      exact ⟨key, next, holder, wanted, starts, open', held', below.trans above.le⟩

/-- Ranked waiting has no cycle: its transaction would hold a key that ranks at least as high
as one it waits for.
-/
theorem System.Ranked.not_deadlocked (ranked : system.Ranked store rank)
    : ¬system.Deadlocked store := by
  rintro ⟨client, cycle⟩
  obtain ⟨key, next, session, held, starts, open_, mem, below⟩ := ranked.path cycle
  have above : rank held < rank key := ranked client session key next open_ starts held mem
  exact (below.trans_lt above).false

end Ranked

end Transactions

import Myndaix.Transactions.Serial

/-! Verifying one transaction among the commits of others. A fact about the committed rows may
be kept across a call when it is stable: no commit that leaves the held locks alone undoes it.
Each kind of call has its rule, and a verified transaction also says what it does alone.
-/

namespace Transactions

open Interaction

variable {Database Key Change Error Result : Type}

/-- A transaction among others: between two calls `rely` may change the committed rows, never
the transaction's own locks and changes.
-/
def Store.amid (store : Store Database Key Change)
    (rely : List Key → Database → Database → Prop)
    (refl : ∀ locks database, rely locks database database)
    (trans
      : ∀ {locks first second third},
          rely locks first second → rely locks second third → rely locks first third)
    (permits : Place Database Key Change → Action Key Change Error → Prop)
    : Setting (Action Key Change Error) (Action.Answer Database)
        (Place Database Key Change) where
  interferes place later :=
    later.locks = place.locks
    ∧ later.changes = place.changes
    ∧ rely place.locks place.committed later.committed
  answers := store.answers
  permits := permits
  interferes_refl place := ⟨rfl, rfl, refl place.locks place.committed⟩
  interferes_trans := by
    rintro first second third ⟨locks, changes, moved⟩ ⟨locks', changes', moved'⟩
    exact ⟨locks'.trans locks, changes'.trans changes, trans moved (locks ▸ moved')⟩

/-- A fact that no commit of others undoes while these locks are held. -/
def Stable (rely : List Key → Database → Database → Prop) (locks : List Key)
    (fact : Database → Prop)
    : Prop :=
  ∀ ⦃database later⦄, rely locks database later → fact database → fact later

section Stable

variable {rely : List Key → Database → Database → Prop} {locks : List Key}

theorem Stable.const (fact : Prop) : Stable rely locks (fun _ => fact) :=
  fun _ _ _ holds => holds

theorem Stable.and {first second : Database → Prop} (left : Stable rely locks first)
    (right : Stable rely locks second)
    : Stable rely locks (fun rows => first rows ∧ second rows) :=
  fun _ _ moved holds => ⟨left moved holds.1, right moved holds.2⟩

theorem Stable.all {Index : Sort*} {fact : Index → Database → Prop}
    (each : ∀ index, Stable rely locks (fact index))
    : Stable rely locks (fun rows => ∀ index, fact index rows) :=
  fun _ _ moved holds index => each index moved (holds index)

/-- What is known under a condition is as stable as it is under that condition. -/
theorem Stable.given {condition : Prop} {fact : Database → Prop}
    (stable : condition → Stable rely locks fact)
    : Stable rely locks (fun rows => condition → fact rows) :=
  fun _ _ moved holds given => stable given moved (holds given)

theorem Stable.exists {Index : Sort*} {fact : Index → Database → Prop}
    (each : ∀ index, Stable rely locks (fact index))
    : Stable rely locks (fun rows => ∃ index, fact index rows) :=
  fun _ _ moved ⟨index, holds⟩ => ⟨index, each index moved holds⟩

end Stable

section Rules

variable {store : Store Database Key Change} {rely : List Key → Database → Database → Prop}
  {refl : ∀ locks database, rely locks database database}
  {trans
    : ∀ {locks first second third},
        rely locks first second → rely locks second third → rely locks first third}
  {permits : Place Database Key Change → Action Key Change Error → Prop}
  {post : Result → Place Database Key Change → Prop}
  {fact : Database → Prop} {database : Database} {locks : List Key} {changes : List Change}

/-- A transaction ends well when its fact gives the postcondition. -/
theorem Ensures.finish {result : Result} (stable : Stable rely locks fact)
    (holds : fact database)
    (ends : ∀ rows, fact rows → post result ⟨rows, locks, changes⟩)
    : (Program.done result : Transaction Database Key Change Error Result).Ensures
        (store.amid rely refl trans permits) post ⟨database, locks, changes⟩ := by
  rintro ⟨rows, _, _⟩ ⟨rfl, rfl, moved⟩
  exact ends rows (stable moved holds)

/-- The rule behind the others: after interference the call is permitted, and the transaction
goes on after each of its answers.
-/
theorem Ensures.step {action : Action Key Change Error}
    {next : action.Answer Database → Transaction Database Key Change Error Result}
    (stable : Stable rely locks fact) (holds : fact database)
    (permitted : ∀ rows, fact rows → permits ⟨rows, locks, changes⟩ action)
    (continues
      : ∀ rows answer after,
          fact rows → store.answers action ⟨rows, locks, changes⟩ answer after
          → (next answer).Ensures (store.amid rely refl trans permits) post after)
    : (Program.call action next).Ensures (store.amid rely refl trans permits) post
        ⟨database, locks, changes⟩ := by
  rintro ⟨rows, _, _⟩ ⟨rfl, rfl, moved⟩
  have here := stable moved holds
  exact ⟨permitted rows here,
    fun answer after answered => continues rows answer after here answered⟩

theorem Ensures.look {next : Database → Transaction Database Key Change Error Result}
    (stable : Stable rely locks fact) (holds : fact database)
    (permitted : ∀ rows, fact rows → permits ⟨rows, locks, changes⟩ .look)
    (continues
      : ∀ rows,
          fact rows
          → (next (store.view rows changes)).Ensures (store.amid rely refl trans permits) post
              ⟨rows, locks, changes⟩)
    : (Program.call .look next).Ensures (store.amid rely refl trans permits) post
        ⟨database, locks, changes⟩ := by
  refine Ensures.step stable holds permitted ?_
  rintro rows answer after here ⟨rfl, rfl⟩
  exact continues rows here

theorem Ensures.lock {key : Key} {next : Unit → Transaction Database Key Change Error Result}
    (stable : Stable rely locks fact) (holds : fact database)
    (permitted : ∀ rows, fact rows → permits ⟨rows, locks, changes⟩ (.lock key))
    (continues
      : ∀ rows,
          fact rows
          → (next ()).Ensures (store.amid rely refl trans permits) post
              ⟨rows, key :: locks, changes⟩)
    : (Program.call (.lock key) next).Ensures (store.amid rely refl trans permits) post
        ⟨database, locks, changes⟩ := by
  refine Ensures.step stable holds permitted ?_
  rintro rows answer after here rfl
  exact continues rows here

theorem Ensures.tryLock {key : Key}
    {next : Bool → Transaction Database Key Change Error Result}
    (stable : Stable rely locks fact) (holds : fact database)
    (permitted : ∀ rows, fact rows → permits ⟨rows, locks, changes⟩ (.tryLock key))
    (taken
      : ∀ rows,
          fact rows
          → (next true).Ensures (store.amid rely refl trans permits) post
              ⟨rows, key :: locks, changes⟩)
    (skipped
      : ∀ rows,
          fact rows
          → (next false).Ensures (store.amid rely refl trans permits) post
              ⟨rows, locks, changes⟩)
    : (Program.call (.tryLock key) next).Ensures (store.amid rely refl trans permits) post
        ⟨database, locks, changes⟩ := by
  refine Ensures.step stable holds permitted ?_
  rintro rows answer after here rfl
  cases answer with
  | true => exact taken rows here
  | false => exact skipped rows here

theorem Ensures.insert {keys : List Key} {change : Change}
    {next : Bool → Transaction Database Key Change Error Result}
    (stable : Stable rely locks fact) (holds : fact database)
    (permitted : ∀ rows, fact rows → permits ⟨rows, locks, changes⟩ (.insert keys change))
    (added
      : ∀ rows,
          fact rows
          → (∀ key ∈ keys, store.present key (store.view rows changes) = false)
          → (next true).Ensures (store.amid rely refl trans permits) post
              ⟨rows, keys ++ locks, changes ++ [change]⟩)
    (conflict
      : ∀ rows key,
          fact rows
          → key ∈ keys
          → store.present key (store.view rows changes) = true
          → (next false).Ensures (store.amid rely refl trans permits) post
              ⟨rows, locks, changes⟩)
    : (Program.call (.insert keys change) next).Ensures
        (store.amid rely refl trans permits) post ⟨database, locks, changes⟩ := by
  refine Ensures.step stable holds permitted ?_
  rintro rows answer after here ⟨answered, rfl⟩
  cases answer with
  | true =>
      have absent := List.all_eq_true.mp answered.symm
      exact added rows here (fun key mem => by simpa [Store.viewAt] using absent key mem)
  | false =>
      obtain ⟨key, mem, present⟩ := List.all_eq_false.mp answered.symm
      exact conflict rows key here mem (by simpa [Store.viewAt] using present)

theorem Ensures.write {change : Change}
    {next : Unit → Transaction Database Key Change Error Result}
    (stable : Stable rely locks fact) (holds : fact database)
    (permitted : ∀ rows, fact rows → permits ⟨rows, locks, changes⟩ (.write change))
    (continues
      : ∀ rows,
          fact rows
          → (next ()).Ensures (store.amid rely refl trans permits) post
              ⟨rows, locks, changes ++ [change]⟩)
    : (Program.call (.write change) next).Ensures (store.amid rely refl trans permits) post
        ⟨database, locks, changes⟩ := by
  refine Ensures.step stable holds permitted ?_
  rintro rows answer after here rfl
  exact continues rows here

theorem Ensures.unlock {next : Unit → Transaction Database Key Change Error Result}
    (stable : Stable rely locks fact) (holds : fact database)
    (permitted : ∀ rows, fact rows → permits ⟨rows, locks, changes⟩ .unlock)
    (continues
      : ∀ rows,
          fact rows
          → (next ()).Ensures (store.amid rely refl trans permits) post
              ⟨rows, locks.tail, changes⟩)
    : (Program.call .unlock next).Ensures (store.amid rely refl trans permits) post
        ⟨database, locks, changes⟩ := by
  refine Ensures.step stable holds permitted ?_
  rintro rows answer after here rfl
  exact continues rows here

/-- A rollback has no postcondition: it only has to be permitted. -/
theorem Ensures.raise {error : Error} (stable : Stable rely locks fact)
    (holds : fact database)
    (permitted : ∀ rows, fact rows → permits ⟨rows, locks, changes⟩ (.raise error))
    : (Transactions.raise error : Transaction Database Key Change Error Result).Ensures
        (store.amid rely refl trans permits) post ⟨database, locks, changes⟩ :=
  Ensures.step stable holds permitted (fun _ answer _ _ _ => nomatch answer)

/-- Alone, a verified transaction either commits in a place that satisfies its postcondition or
raises a permitted error. Witness: induction on the program.
-/
theorem Ensures.alone {transaction : Transaction Database Key Change Error Result}
    (ensures
      : transaction.Ensures (store.amid rely refl trans permits) post
          ⟨database, locks, changes⟩)
    : (∃ result locks' changes',
        store.alone transaction (store.view database changes)
          = .ok (result, store.view database changes')
        ∧ post result ⟨database, locks', changes'⟩)
      ∨ ∃ error locks' changes',
          store.alone transaction (store.view database changes) = .error error
          ∧ permits ⟨database, locks', changes'⟩ (.raise error) := by
  induction transaction generalizing locks changes with
  | done result =>
      exact Or.inl ⟨result, locks, changes, rfl,
        ensures ⟨database, locks, changes⟩ ⟨rfl, rfl, refl locks database⟩⟩
  | call action next ih =>
      obtain ⟨permitted, continues⟩ :=
        ensures ⟨database, locks, changes⟩ ⟨rfl, rfl, refl locks database⟩
      cases action with
      | look => exact ih _ (continues _ _ ⟨rfl, rfl⟩)
      | lock key => exact ih () (continues () ⟨database, key :: locks, changes⟩ rfl)
      | tryLock key => exact ih true (continues true ⟨database, key :: locks, changes⟩ rfl)
      | insert keys change =>
          by_cases absent : keys.all fun key => !store.present key (store.view database changes)
          · have added := ih true (continues true
              ⟨database, keys ++ locks, changes ++ [change]⟩ ⟨absent.symm, rfl⟩)
            simpa only [Store.alone_insert, absent, if_true, Store.view_append,
              Store.view_cons, Store.view_nil] using added
          · have conflict := ih false (continues false ⟨database, locks, changes⟩
              ⟨(Bool.eq_false_iff.mpr absent).symm, rfl⟩)
            simpa only [Store.alone_insert, absent, Bool.false_eq_true, if_false] using conflict
      | write change =>
          have written := ih () (continues () ⟨database, locks, changes ++ [change]⟩ rfl)
          simpa only [Store.alone_write, Store.view_append, Store.view_cons,
            Store.view_nil] using written
      | unlock => exact ih () (continues () ⟨database, locks.tail, changes⟩ rfl)
      | raise error => exact Or.inr ⟨error, locks, changes, rfl, permitted⟩

/-- A verified transaction alone runs the same in another store that agrees on every change it
may make, by induction on the program.
-/
theorem Ensures.alone_agrees {other : Store Database Key Change}
    {transaction : Transaction Database Key Change Error Result}
    (present : other.present = store.present)
    (agrees
      : ∀ {locks changes change},
          permits ⟨database, locks, changes⟩ (.write change)
            ∨ (∃ keys, permits ⟨database, locks, changes⟩ (.insert keys change))
          → other.apply change (store.view database changes)
            = store.apply change (store.view database changes))
    (ensures
      : transaction.Ensures (store.amid rely refl trans permits) post
          ⟨database, locks, changes⟩)
    : other.alone transaction (store.view database changes)
      = store.alone transaction (store.view database changes) := by
  induction transaction generalizing locks changes with
  | done result => rfl
  | call action next ih =>
      obtain ⟨permitted, continues⟩ :=
        ensures ⟨database, locks, changes⟩ ⟨rfl, rfl, refl locks database⟩
      have same (change : Change)
          (permitted
            : permits ⟨database, locks, changes⟩ (.write change)
              ∨ ∃ keys, permits ⟨database, locks, changes⟩ (.insert keys change))
          : other.apply change (store.view database changes)
            = store.view database (changes ++ [change]) := by
        simpa using agrees permitted
      cases action with
      | look => exact ih _ (continues _ _ ⟨rfl, rfl⟩)
      | lock key => exact ih () (continues () ⟨database, key :: locks, changes⟩ rfl)
      | tryLock key => exact ih true (continues true ⟨database, key :: locks, changes⟩ rfl)
      | insert keys change =>
          simp only [Store.alone_insert, present]
          by_cases absent : keys.all fun key => !store.present key (store.view database changes)
          · simp only [absent, if_true]
            have added := ih true (continues true
              ⟨database, keys ++ locks, changes ++ [change]⟩ ⟨absent.symm, rfl⟩)
            rw [same change (Or.inr ⟨keys, permitted⟩), added]
            simp only [Store.view_append, Store.view_cons, Store.view_nil]
          · simp only [absent, Bool.false_eq_true, if_false]
            exact ih false (continues false ⟨database, locks, changes⟩
              ⟨(Bool.eq_false_iff.mpr absent).symm, rfl⟩)
      | write change =>
          have written := ih () (continues () ⟨database, locks, changes ++ [change]⟩ rfl)
          rw [Store.alone_write, Store.alone_write, same change (Or.inl permitted), written]
          simp only [Store.view_append, Store.view_cons, Store.view_nil]
      | unlock => exact ih () (continues () ⟨database, locks.tail, changes⟩ rfl)
      | raise error => rfl

end Rules

end Transactions

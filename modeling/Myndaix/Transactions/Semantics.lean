import Mathlib.Logic.Function.Basic
import Mathlib.Logic.Relation
import Myndaix.Interaction.Contracts

/-! Transactions under READ COMMITTED. A transaction reads committed rows and its own changes,
takes exclusive row locks that it holds until it ends, and publishes all its changes at once
when it commits. Every call of a transaction is a step of its own, so the calls of all open
transactions interleave in any order.
-/

namespace Transactions

open Interaction

/-- How a change acts on a database, and which rows and unique-index entries exist in it. -/
structure Store (Database Key Change : Type) where
  apply : Change → Database → Database
  present : Key → Database → Bool

/-- One call of a transaction.
* `look` reads the committed rows together with the transaction's own changes.
* `lock` waits until no other transaction holds the row, and then holds it.
* `tryLock` skips the row instead of waiting (`SKIP LOCKED`).
* `insert` adds a row unless one of its keys is taken; it waits for an uncommitted insert of
  the same key.
* `write` changes rows that the transaction holds.
* `unlock` rolls back to the savepoint before the latest lock, with no change since.
* `raise` rolls the transaction back.
-/
inductive Action (Key Change Error : Type) : Type where
  | look
  | lock (key : Key)
  | tryLock (key : Key)
  | insert (keys : List Key) (change : Change)
  | write (change : Change)
  | unlock
  | raise (error : Error)

variable {Database Key Change Error Verb Client Result : Type}

/-- What a call returns: `tryLock` whether the lock was taken, `insert` whether the row was
added.
-/
abbrev Action.Answer (Database : Type) : Action Key Change Error → Type
  | .look => Database
  | .lock _ => Unit
  | .tryLock _ => Bool
  | .insert _ _ => Bool
  | .write _ => Unit
  | .unlock => Unit
  | .raise _ => Empty

abbrev Transaction (Database Key Change Error Result : Type) : Type :=
  Program (Action Key Change Error) (Action.Answer Database) Result

/-- Rolling back ends the program, whatever should have come next. -/
def raise (error : Error) : Transaction Database Key Change Error Result :=
  .call (.raise error) (fun impossible => nomatch impossible)

@[simp] theorem raise_bind {Other : Type} (error : Error)
    (next : Other → Transaction Database Key Change Error Result)
    : (raise error >>= next) = raise error := by
  simp only [raise, Program.call_bind]
  congr 1
  exact funext (fun impossible => nomatch impossible)

/-- Where an open transaction stands: the committed rows, the locks it holds and the changes
it has made so far, oldest first.
-/
structure Place (Database Key Change : Type) where
  committed : Database
  locks : List Key
  changes : List Change

namespace Store

variable (store : Store Database Key Change)

/-- The database as a transaction with these changes sees it, and as its commit leaves it. -/
def view (database : Database) (changes : List Change) : Database :=
  changes.foldl (fun rows change => store.apply change rows) database

@[simp] theorem view_nil (database : Database) : store.view database [] = database :=
  rfl

@[simp] theorem view_cons (database : Database) (change : Change) (changes : List Change)
    : store.view database (change :: changes)
      = store.view (store.apply change database) changes :=
  rfl

@[simp] theorem view_append (database : Database) (first second : List Change)
    : store.view database (first ++ second)
      = store.view (store.view database first) second :=
  List.foldl_append

/-- The database as the transaction at this place sees it. -/
def viewAt (place : Place Database Key Change) : Database :=
  store.view place.committed place.changes

/-- The answers a call can get and where it leaves the transaction, other holders aside. -/
def answers
    : (action : Action Key Change Error) → Place Database Key Change
        → action.Answer Database → Place Database Key Change → Prop
  | .look, place, answer, after => answer = store.viewAt place ∧ after = place
  | .lock key, place, _, after => after = { place with locks := key :: place.locks }
  | .tryLock key, place, taken, after =>
      after = if taken then { place with locks := key :: place.locks } else place
  | .insert keys change, place, added, after =>
      added = (keys.all fun key => !store.present key (store.viewAt place))
      ∧ after
        = if added then
            {
              place with
              locks := keys ++ place.locks,
              changes := place.changes ++ [change]
            }
          else place
  | .write change, place, _, after =>
      after = { place with changes := place.changes ++ [change] }
  | .unlock, place, _, after => after = { place with locks := place.locks.tail }
  | .raise _, _, _, _ => False

/-- Every call other than `raise` leaves the committed rows alone. -/
theorem answers_committed {action : Action Key Change Error}
    {place after : Place Database Key Change} {answer : action.Answer Database}
    (answered : store.answers action place answer after)
    : after.committed = place.committed := by
  cases action with
  | look => exact answered.2 ▸ rfl
  | lock key => exact answered ▸ rfl
  | tryLock key =>
      subst answered
      split <;> rfl
  | insert keys change =>
      obtain ⟨_, rfl⟩ := answered
      split <;> rfl
  | write change => exact answered ▸ rfl
  | unlock => exact answered ▸ rfl
  | raise error => exact answered.elim

end Store

/-- Whether the locks that a call needs are free: `busy` are the keys that others hold. -/
def granted (busy : Key → Prop)
    : (action : Action Key Change Error) → action.Answer Database → Prop
  | .lock key, _ => ¬busy key
  | .tryLock key, taken => taken = true ↔ ¬busy key
  | .insert keys _, added => added = true → ∀ key ∈ keys, ¬busy key
  | _, _ => True

/-- Every lock a call takes was free: it is either held already or not busy. -/
theorem granted_locks {store : Store Database Key Change} {busy : Key → Prop}
    {action : Action Key Change Error} {place after : Place Database Key Change}
    {answer : action.Answer Database} (answered : store.answers action place answer after)
    (free : granted busy action answer)
    : ∀ key ∈ after.locks, key ∈ place.locks ∨ ¬busy key := by
  intro key mem
  cases action with
  | look => exact Or.inl (answered.2 ▸ mem)
  | lock wanted =>
      subst answered
      rcases List.mem_cons.mp mem with rfl | held
      · exact Or.inr free
      · exact Or.inl held
  | tryLock wanted =>
      subst answered
      by_cases taken : answer = true
      · simp only [taken, if_true] at mem
        rcases List.mem_cons.mp mem with rfl | held
        · exact Or.inr (free.mp taken)
        · exact Or.inl held
      · simp only [taken] at mem
        exact Or.inl mem
  | insert keys change =>
      obtain ⟨_, rfl⟩ := answered
      by_cases added : answer = true
      · simp only [added, if_true] at mem
        rcases List.mem_append.mp mem with new | held
        · exact Or.inr (free added key new)
        · exact Or.inl held
      · simp only [added] at mem
        exact Or.inl mem
  | write change =>
      simp only [Store.answers] at answered
      subst answered
      exact Or.inl mem
  | unlock =>
      simp only [Store.answers] at answered
      subst answered
      exact Or.inl (List.mem_of_mem_tail mem)
  | raise error => exact answered.elim

/-- One open transaction of a client: the verb it runs, the rows that were committed when it
began, and how far it has come.
-/
structure Session (Database Key Change Error Verb Result : Type) where
  verb : Verb
  began : Database
  locks : List Key
  changes : List Change
  program : Transaction Database Key Change Error Result

/-- The committed rows and the transactions open on them. -/
structure System (Database Key Change Error Verb Result Client : Type) where
  committed : Database
  sessions : Client → Option (Session Database Key Change Error Verb Result)

/-- What a step was. -/
inductive Event (Error Verb Result : Type) : Type where
  | began (verb : Verb)
  | acted
  | committed (verb : Verb) (result : Result)
  | aborted (verb : Verb) (error : Error)
  | crashed (verb : Verb)

namespace System

/-- Where a client's transaction stands in this system. -/
def place (system : System Database Key Change Error Verb Result Client)
    (session : Session Database Key Change Error Verb Result)
    : Place Database Key Change :=
  ⟨system.committed, session.locks, session.changes⟩

/-- Some transaction other than this client's holds the key. -/
def Busy (system : System Database Key Change Error Verb Result Client) (client : Client)
    (key : Key)
    : Prop :=
  ∃ other session, other ≠ client ∧ system.sessions other = some session ∧ key ∈ session.locks

variable [DecidableEq Client]

/-- Replace one client's transaction. -/
def setSession (system : System Database Key Change Error Verb Result Client)
    (client : Client) (session : Option (Session Database Key Change Error Verb Result))
    : System Database Key Change Error Verb Result Client :=
  { system with sessions := Function.update system.sessions client session }

@[simp] theorem setSession_committed
    (system : System Database Key Change Error Verb Result Client) (client : Client)
    (session : Option (Session Database Key Change Error Verb Result))
    : (system.setSession client session).committed = system.committed :=
  rfl

@[simp] theorem setSession_same
    (system : System Database Key Change Error Verb Result Client) (client : Client)
    (session : Option (Session Database Key Change Error Verb Result))
    : (system.setSession client session).sessions client = session := by
  simp [setSession]

theorem setSession_other
    (system : System Database Key Change Error Verb Result Client) {client other : Client}
    (session : Option (Session Database Key Change Error Verb Result))
    (different : other ≠ client)
    : (system.setSession client session).sessions other = system.sessions other := by
  simp [setSession, different]

end System

/-- No transaction is open. -/
def System.quiet (database : Database)
    : System Database Key Change Error Verb Result Client :=
  ⟨database, fun _ => none⟩

section Steps

variable [DecidableEq Client] (store : Store Database Key Change)
  (code : Verb → Transaction Database Key Change Error Result)

/-- One step of the whole system: a client opens a transaction, makes its next call, commits,
rolls back or crashes.
-/
inductive Step
    : System Database Key Change Error Verb Result Client → Client
        → Event Error Verb Result → System Database Key Change Error Verb Result Client → Prop
  | began {system client} (verb : Verb) (idle : system.sessions client = none)
    : Step system client (.began verb)
        (system.setSession client (some ⟨verb, system.committed, [], [], code verb⟩))
  | acted {system client session action next answer after}
    (open_ : system.sessions client = some session)
    (calls : session.program = .call action next)
    (answered : store.answers action (system.place session) answer after)
    (free : granted (system.Busy client) action answer)
    : Step system client .acted
        (system.setSession client
          (some ⟨session.verb, session.began, after.locks, after.changes, next answer⟩))
  | committed {system client session result}
    (open_ : system.sessions client = some session)
    (finished : session.program = .done result)
    : Step system client (.committed session.verb result)
        { system.setSession client none with
          committed := store.view system.committed session.changes }
  | aborted {system client session error next}
    (open_ : system.sessions client = some session)
    (raised : session.program = .call (.raise error) next)
    : Step system client (.aborted session.verb error) (system.setSession client none)
  | crashed {system client session} (open_ : system.sessions client = some session)
    : Step system client (.crashed session.verb) (system.setSession client none)

/-- The systems that runs from `initial` reach when every step meets `constraint`. -/
inductive Reachable
    (constraint
      : System Database Key Change Error Verb Result Client → Client
          → Event Error Verb Result → System Database Key Change Error Verb Result Client
          → Prop)
    (initial : Database)
    : System Database Key Change Error Verb Result Client → Prop
  | start : Reachable constraint initial (.quiet initial)
  | step {system next client event} (earlier : Reachable constraint initial system)
    (step : Step store code system client event next)
    (meets : constraint system client event next)
    : Reachable constraint initial next

/-- The systems that are reached from a system by more steps. -/
def Onward
    : System Database Key Change Error Verb Result Client
      → System Database Key Change Error Verb Result Client → Prop :=
  Relation.ReflTransGen
    (fun before after => ∃ client event, Step store code before client event after)

end Steps

/-- No restriction on the steps of a run. -/
def unrestricted (_ : System Database Key Change Error Verb Result Client) (_ : Client)
    (_ : Event Error Verb Result) (_ : System Database Key Change Error Verb Result Client)
    : Prop :=
  True

/-- If only such verbs may begin, only such verbs are open, by induction on the run. -/
theorem Reachable.called [DecidableEq Client] {store : Store Database Key Change}
    {code : Verb → Transaction Database Key Change Error Result}
    {constraint
      : System Database Key Change Error Verb Result Client → Client
          → Event Error Verb Result → System Database Key Change Error Verb Result Client
          → Prop}
    {called : Verb → Prop} {initial : Database}
    (begins
      : ∀ {system client verb next}, constraint system client (.began verb) next → called verb)
    {system : System Database Key Change Error Verb Result Client}
    (reachable : Reachable store code constraint initial system) {client : Client}
    {session : Session Database Key Change Error Verb Result}
    (open_ : system.sessions client = some session)
    : called session.verb := by
  induction reachable generalizing client session with
  | start => cases open_
  | @step system next actor event _ step meets ih =>
      have others {replaced : Option (Session Database Key Change Error Verb Result)}
          (own : ∀ session, replaced = some session → called session.verb)
          (open_ : (system.setSession actor replaced).sessions client = some session)
          : called session.verb := by
        by_cases same : client = actor
        · subst same
          exact own session (by simpa using open_)
        · rw [system.setSession_other replaced same] at open_
          exact ih open_
      cases step with
      | began verb idle =>
          exact others (fun session same => by cases same; exact begins meets) open_
      | acted open' _ _ _ =>
          have known := ih open'
          exact others (fun session same => by cases same; exact known) open_
      | committed | aborted | crashed => exact others (by simp) open_

/-- What an unrestricted run reaches, it reaches with more steps. -/
theorem Reachable.onward [DecidableEq Client] {store : Store Database Key Change}
    {code : Verb → Transaction Database Key Change Error Result} {initial : Database}
    {system later : System Database Key Change Error Verb Result Client}
    (reachable : Reachable store code unrestricted initial system)
    (onward : Onward store code system later)
    : Reachable store code unrestricted initial later := by
  induction onward with
  | refl => exact reachable
  | tail _ step ih =>
      obtain ⟨client, event, step⟩ := step
      exact ih.step step trivial

end Transactions

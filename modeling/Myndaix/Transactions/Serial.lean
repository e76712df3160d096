import Myndaix.Transactions.Semantics

/-! Transactions that run one after another. Alone, a transaction never waits and sees its own
changes at once; the runs it can make this way are runs of the interleaved system.
-/

namespace Transactions

open Interaction

variable {Database Key Change Error Verb Client Result Other : Type}

/-- How a call is answered when no other transaction is open. -/
def Store.respond (store : Store Database Key Change)
    : (action : Action Key Change Error) → Database
        → Except Error (action.Answer Database × Database)
  | .look, database => .ok (database, database)
  | .lock _, database => .ok ((), database)
  | .tryLock _, database => .ok (true, database)
  | .insert keys change, database =>
      if keys.all fun key => !store.present key database then
        .ok (true, store.apply change database)
      else .ok (false, database)
  | .write change, database => .ok ((), store.apply change database)
  | .unlock, database => .ok ((), database)
  | .raise error, _ => .error error

/-- Run a transaction alone, to its commit or its error. -/
def Store.alone (store : Store Database Key Change)
    (transaction : Transaction Database Key Change Error Result) (database : Database)
    : Except Error (Result × Database) :=
  transaction.run store.respond database

section Alone

variable (store : Store Database Key Change) (database : Database)

@[simp] theorem Store.alone_done (result : Result)
    : store.alone (.done result : Transaction Database Key Change Error Result) database
      = .ok (result, database) :=
  rfl

@[simp] theorem Store.alone_look
    (next : Database → Transaction Database Key Change Error Result)
    : store.alone (.call .look next) database = store.alone (next database) database :=
  rfl

@[simp] theorem Store.alone_lock (key : Key)
    (next : Unit → Transaction Database Key Change Error Result)
    : store.alone (.call (.lock key) next) database = store.alone (next ()) database :=
  rfl

@[simp] theorem Store.alone_tryLock (key : Key)
    (next : Bool → Transaction Database Key Change Error Result)
    : store.alone (.call (.tryLock key) next) database = store.alone (next true) database :=
  rfl

@[simp] theorem Store.alone_write (change : Change)
    (next : Unit → Transaction Database Key Change Error Result)
    : store.alone (.call (.write change) next) database
      = store.alone (next ()) (store.apply change database) :=
  rfl

@[simp] theorem Store.alone_unlock
    (next : Unit → Transaction Database Key Change Error Result)
    : store.alone (.call .unlock next) database = store.alone (next ()) database :=
  rfl

@[simp] theorem Store.alone_insert (keys : List Key) (change : Change)
    (next : Bool → Transaction Database Key Change Error Result)
    : store.alone (.call (.insert keys change) next) database
      = if keys.all fun key => !store.present key database then
          store.alone (next true) (store.apply change database)
        else store.alone (next false) database := by
  by_cases absent : keys.all fun key => !store.present key database
  · simp [alone, Program.run, respond, absent]
  · simp [alone, Program.run, respond, absent]

@[simp] theorem Store.alone_raise (error : Error)
    : store.alone (raise error : Transaction Database Key Change Error Result) database
      = .error error :=
  rfl

/-- Running a sequence alone is running its parts one after the other. -/
theorem Store.alone_bind (transaction : Transaction Database Key Change Error Other)
    (next : Other → Transaction Database Key Change Error Result)
    : store.alone (transaction >>= next) database
      = (store.alone transaction database).bind
          (fun stopped => store.alone (next stopped.1) stopped.2) :=
  Program.run_bind store.respond transaction next database

/-- A sequence whose first part ends goes on from there. -/
theorem Store.alone_then {store : Store Database Key Change}
    {transaction : Transaction Database Key Change Error Other} {database after : Database}
    {answer : Other} (ran : store.alone transaction database = .ok (answer, after))
    (next : Other → Transaction Database Key Change Error Result)
    : store.alone (transaction >>= next) database = store.alone (next answer) after := by
  rw [Store.alone_bind, ran]
  rfl

/-- A loop run alone ends where its invariant says, by induction on the items. -/
theorem Store.alone_fold {store : Store Database Key Change} {Accumulated Item : Type}
    {body : Accumulated → Item → Transaction Database Key Change Error Accumulated}
    (inv : Accumulated → List Item → Database → Prop)
    (round
      : ∀ {accumulated item items database},
          inv accumulated (item :: items) database
          → ∃ next after,
              store.alone (body accumulated item) database = .ok (next, after)
              ∧ inv next items after)
    {accumulated : Accumulated} {items : List Item} {database : Database}
    (start : inv accumulated items database)
    : ∃ last after,
        store.alone (Program.fold body accumulated items) database = .ok (last, after)
        ∧ inv last [] after := by
  induction items generalizing accumulated database with
  | nil => exact ⟨accumulated, database, rfl, start⟩
  | cons item items ih =>
      obtain ⟨next, after, ran, holds⟩ := round start
      obtain ⟨last, finally_, ran', holds'⟩ := ih holds
      exact ⟨last, finally_, (Store.alone_then ran _).trans ran', holds'⟩

end Alone

section Runs

variable (store : Store Database Key Change)
  (code : Verb → Transaction Database Key Change Error Result)

/-- The databases that the verbs in use reach when they run one at a time; a verb that raises
changes nothing.
-/
inductive Serial (called : Verb → Prop) (initial : Database) : Database → Prop
  | start : Serial called initial initial
  | step {database result after} (earlier : Serial called initial database) (verb : Verb)
    (allowed : called verb)
    (ran : store.alone (code verb) database = .ok (result, after))
    : Serial called initial after

/-- Run these verbs one after the other, stopping at the first that raises. -/
def Store.runAll : Database → List Verb → Except Error Database
  | database, [] => .ok database
  | database, verb :: verbs =>
      match store.alone (code verb) database with
      | .ok (_, after) => Store.runAll after verbs
      | .error error => .error error

variable {store code} {called : Verb → Prop}

/-- What such a run reaches, by induction on its verbs. -/
theorem Serial.runAll {initial database after : Database} {verbs : List Verb}
    (earlier : Serial store code called initial database) (allowed : ∀ verb ∈ verbs, called verb)
    (ran : store.runAll code database verbs = .ok after)
    : Serial store code called initial after := by
  induction verbs generalizing database with
  | nil =>
      obtain rfl := Except.ok.inj ran
      exact earlier
  | cons verb verbs ih =>
      simp only [Store.runAll] at ran
      split at ran
      · exact ih (earlier.step verb (allowed verb List.mem_cons_self) ‹_›)
          (fun other mem => allowed other (List.mem_cons_of_mem verb mem)) ran
      · cases ran

variable [DecidableEq Client]
  {constraint
    : System Database Key Change Error Verb Result Client → Client
        → Event Error Verb Result → System Database Key Change Error Verb Result Client
        → Prop}

/-- From a system where only `client` is active, its transaction can run up to its commit without
another step in between. Witness: induction on the rest of its program.
-/
theorem Reachable.finishing {initial : Database} {database : Database} {client : Client}
    {session : Session Database Key Change Error Verb Result}
    (free
      : ∀ {system client event next},
          (∀ verb, event ≠ .began verb) → constraint system client event next)
    (reachable
      : Reachable store code constraint initial
          ((System.quiet database).setSession client (some session)))
    {result : Result} {after : Database}
    (ran
      : store.alone session.program (store.view database session.changes)
        = .ok (result, after))
    : ∃ before : System Database Key Change Error Verb Result Client,
        Reachable store code constraint initial before
        ∧ Step store code before client (.committed session.verb result) (.quiet after) := by
  obtain ⟨verb, began, locks, changes, program⟩ := session
  induction program generalizing locks changes with
  | done value =>
      obtain ⟨rfl, rfl⟩ : value = result ∧ store.view database changes = after := by
        simpa using ran
      have committed : Step store code _ client (.committed verb value) _ :=
        .committed (System.setSession_same (System.quiet database) client
          (some ⟨verb, began, locks, changes, .done value⟩)) rfl
      have idle
          : { ((System.quiet database).setSession client
                (some ⟨verb, began, locks, changes, .done value⟩)).setSession client none with
              committed := store.view database changes }
            = (System.quiet (store.view database changes)
                : System Database Key Change Error Verb Result Client) := by
        simp only [System.setSession, System.quiet, Function.update_idem, System.mk.injEq,
          true_and]
        exact Function.update_eq_self client (fun _ => none)
      exact ⟨_, reachable, idle ▸ committed⟩
  | call action next ih =>
      have again (answer : action.Answer Database) (after' : Place Database Key Change)
          (answered : store.answers action ⟨database, locks, changes⟩ answer after')
          (granted_ : granted (fun _ => False) action answer)
          : Reachable store code constraint initial
              ((System.quiet database).setSession client
                (some ⟨verb, began, after'.locks, after'.changes, next answer⟩)) := by
        have nobody
            : ((System.quiet database).setSession client
                (some ⟨verb, began, locks, changes, .call action next⟩)).Busy client
              = (fun _ => False) := by
          funext key
          simp only [System.Busy, eq_iff_iff, iff_false]
          rintro ⟨other, watcher, different, open_, _⟩
          simp [System.setSession_other _ _ different, System.quiet] at open_
        have acted := reachable.step
          (.acted (System.setSession_same _ client _) rfl answered (nobody.symm ▸ granted_))
          (free (by simp))
        simpa only [System.setSession, Function.update_idem] using acted
      cases action with
      | look => exact ih _ _ _ (again _ ⟨database, locks, changes⟩ ⟨rfl, rfl⟩ trivial) ran
      | lock key => exact ih () _ _ (again () ⟨database, key :: locks, changes⟩ rfl id) ran
      | tryLock key =>
          exact ih true _ _ (again true ⟨database, key :: locks, changes⟩ rfl (by simp [granted]))
            ran
      | insert keys change =>
          by_cases absent : keys.all fun key => !store.present key (store.view database changes)
          · refine ih true (keys ++ locks) (changes ++ [change])
              (again true ⟨database, keys ++ locks, changes ++ [change]⟩ ⟨?_, rfl⟩
                (by simp [granted])) ?_
            · simpa [Store.viewAt] using absent.symm
            · simpa [absent] using ran
          · refine ih false locks changes
              (again false ⟨database, locks, changes⟩ ⟨?_, rfl⟩ (by simp [granted])) ?_
            · simpa [Store.viewAt] using absent
            · simpa [absent] using ran
      | write change =>
          exact ih () _ _ (again () ⟨database, locks, changes ++ [change]⟩ rfl trivial)
            (by simpa using ran)
      | unlock => exact ih () _ _ (again () ⟨database, locks.tail, changes⟩ rfl trivial) ran
      | raise error => cases ran

/-- From there its transaction can also run to its end. -/
theorem Reachable.finish {initial : Database} {database : Database} {client : Client}
    {session : Session Database Key Change Error Verb Result}
    (free
      : ∀ {system client event next},
          (∀ verb, event ≠ .began verb) → constraint system client event next)
    (reachable
      : Reachable store code constraint initial
          ((System.quiet database).setSession client (some session)))
    {result : Result} {after : Database}
    (ran
      : store.alone session.program (store.view database session.changes)
        = .ok (result, after))
    : Reachable store code constraint initial
        (System.quiet after : System Database Key Change Error Verb Result Client) := by
  obtain ⟨before, reached, step⟩ := reachable.finishing free ran
  exact reached.step step (free (by simp))

/-- Every serial run is a run of the interleaved system. -/
theorem Serial.reachable [Inhabited Client] {initial database : Database}
    (begins
      : ∀ {system client verb next}, called verb → constraint system client (.began verb) next)
    (free
      : ∀ {system client event next},
          (∀ verb, event ≠ .began verb) → constraint system client event next)
    (serial : Serial store code called initial database)
    : Reachable store code constraint initial
        (System.quiet database : System Database Key Change Error Verb Result Client) := by
  induction serial with
  | start => exact .start
  | @step database _ _ earlier verb allowed ran ih =>
      have idle
          : (System.quiet database : System Database Key Change Error Verb Result Client).sessions
              default = none :=
        rfl
      exact (ih.step (.began verb idle) (begins allowed)).finish free ran

end Runs

end Transactions

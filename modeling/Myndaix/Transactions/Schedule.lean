import Myndaix.Transactions.Deadlock

/-! Schedules: with finitely many clients a run is computed from the order in which they call,
so that a bad interleaving can be exhibited and checked.
-/

namespace Transactions

open Interaction

variable {Database Key Change Error Verb Client Result : Type} [DecidableEq Key]

/-- How a call is answered when `busy` are the keys that others hold; none if it has to wait or
raises.
-/
def Store.reply (store : Store Database Key Change) (busy : Key → Bool)
    : (action : Action Key Change Error) → Place Database Key Change
        → Option (action.Answer Database × Place Database Key Change)
  | .look, place => some (store.viewAt place, place)
  | .lock key, place =>
      if busy key then none else some ((), { place with locks := key :: place.locks })
  | .tryLock key, place =>
      if busy key then some (false, place)
      else some (true, { place with locks := key :: place.locks })
  | .insert keys change, place =>
      if keys.all fun key => !store.present key (store.viewAt place) then
        if keys.any busy then none
        else
          some
            (true,
              {
                place with
                locks := keys ++ place.locks,
                changes := place.changes ++ [change]
              })
      else some (false, place)
  | .write change, place => some ((), { place with changes := place.changes ++ [change] })
  | .unlock, place => some ((), { place with locks := place.locks.tail })
  | .raise _, _ => none

omit [DecidableEq Key] in
/-- A computed answer is one that the store gives, with its locks free. -/
theorem Store.reply_sound {store : Store Database Key Change} {busy : Key → Bool}
    {action : Action Key Change Error} {place after : Place Database Key Change}
    {answer : action.Answer Database}
    (replied : store.reply busy action place = some (answer, after))
    : store.answers action place answer after
      ∧ granted (fun key => busy key = true) action answer := by
  cases action with
  | look =>
      cases replied
      exact ⟨⟨rfl, rfl⟩, trivial⟩
  | lock key =>
      simp only [Store.reply] at replied
      split at replied
      · cases replied
      · rename_i free
        cases replied
        exact ⟨rfl, free⟩
  | tryLock key =>
      simp only [Store.reply] at replied
      split at replied
      · rename_i busy
        cases replied
        exact ⟨rfl, by simp [granted, busy]⟩
      · rename_i free
        cases replied
        exact ⟨rfl, by simp [granted, free]⟩
  | insert keys change =>
      simp only [Store.reply] at replied
      split at replied
      · rename_i absent
        split at replied
        · cases replied
        · rename_i free
          cases replied
          refine ⟨⟨absent.symm, rfl⟩, fun _ key mem taken => free ?_⟩
          exact List.any_eq_true.mpr ⟨key, mem, taken⟩
      · rename_i present
        cases replied
        simp only [Bool.not_eq_true] at present
        exact ⟨⟨present.symm, rfl⟩, by simp [granted]⟩
  | write change =>
      cases replied
      exact ⟨rfl, trivial⟩
  | unlock =>
      cases replied
      exact ⟨rfl, trivial⟩
  | raise error => cases replied

section Play

variable [DecidableEq Client] (store : Store Database Key Change)
  (code : Verb → Transaction Database Key Change Error Result) (clients : List Client)

/-- Whether one of these clients, other than this one, holds the key. -/
def System.busy (system : System Database Key Change Error Verb Result Client)
    (client : Client) (key : Key)
    : Bool :=
  clients.any
    (fun other =>
      other ≠ client && (system.sessions other).any (fun session => key ∈ session.locks))

/-- The client opens a transaction if it has none. -/
def System.begin (system : System Database Key Change Error Verb Result Client)
    (client : Client) (verb : Verb)
    : Option (System Database Key Change Error Verb Result Client) :=
  match system.sessions client with
  | none => some (system.setSession client (some ⟨verb, system.committed, [], [], code verb⟩))
  | some _ => none

/-- The client makes its next call if it need not wait. -/
def System.act (system : System Database Key Change Error Verb Result Client)
    (client : Client)
    : Option (System Database Key Change Error Verb Result Client) :=
  match system.sessions client with
  | none => none
  | some session =>
      match session.program with
      | .done _ => none
      | .call action next =>
          (store.reply (system.busy clients client) action (system.place session)).map
            (fun replied =>
              system.setSession client
                (some
                  ⟨session.verb, session.began, replied.2.locks, replied.2.changes,
                    next replied.1⟩))

/-- Calls in this order. -/
def System.play (system : System Database Key Change Error Verb Result Client)
    : List Client → Option (System Database Key Change Error Verb Result Client)
  | [] => some system
  | client :: order => (system.act store clients client).bind (fun next => next.play order)

/-- The client commits if its program is done. -/
def System.commit (system : System Database Key Change Error Verb Result Client)
    (client : Client)
    : Option (Verb × Result × System Database Key Change Error Verb Result Client) :=
  match system.sessions client with
  | none => none
  | some session =>
      match session.program with
      | .done result =>
          some
            (session.verb, result,
              {
                system.setSession client none with
                committed := store.view system.committed session.changes
              })
      | .call _ _ => none

/-- Whether `client` waits for `other`. -/
def System.awaits (system : System Database Key Change Error Verb Result Client)
    (client other : Client)
    : Bool :=
  match system.sessions client, system.sessions other with
  | some session, some holder =>
      other ≠ client
      && match session.program with
        | .call (.lock key) _ => key ∈ holder.locks
        | .call (.insert keys _) _ =>
            (keys.all fun key => !store.present key (store.viewAt (system.place session)))
            && keys.any (fun key => key ∈ holder.locks)
        | _ => false
  | _, _ => false

variable {store code clients}
  {system next : System Database Key Change Error Verb Result Client}

/-- The clients in the list are all there are, so nobody else holds a key. -/
theorem System.busy_iff (complete : ∀ client, client ∈ clients) (client : Client) (key : Key)
    : system.busy clients client key = true ↔ system.Busy client key := by
  simp only [System.busy, System.Busy, List.any_eq_true, Bool.and_eq_true, decide_eq_true_eq,
    Option.any_eq_true]
  constructor
  · rintro ⟨other, _, different, session, open_, held⟩
    exact ⟨other, session, different, open_, held⟩
  · rintro ⟨other, session, different, open_, held⟩
    exact ⟨other, complete other, different, session, open_, held⟩

omit [DecidableEq Key] in
theorem System.begin_sound {client : Client} {verb : Verb}
    (began : system.begin code client verb = some next)
    : Step store code system client (.began verb) next := by
  unfold System.begin at began
  split at began
  · rename_i idle
    cases began
    exact .began verb idle
  · cases began

theorem System.act_sound (complete : ∀ client, client ∈ clients) {client : Client}
    (acted : system.act store clients client = some next)
    : Step store code system client .acted next := by
  unfold System.act at acted
  split at acted
  · cases acted
  · rename_i session open_
    split at acted
    · cases acted
    · rename_i action rest calls
      obtain ⟨⟨answer, after⟩, replied, rfl⟩ := Option.map_eq_some_iff.mp acted
      obtain ⟨answered, free⟩ := Store.reply_sound replied
      have busy : (fun key => system.busy clients client key = true) = system.Busy client :=
        funext (fun key => propext (System.busy_iff complete client key))
      exact .acted open_ calls answered (busy ▸ free)

omit [DecidableEq Key] in
theorem System.commit_sound {client : Client} {verb : Verb} {result : Result}
    (committed : system.commit store client = some (verb, result, next))
    : Step store code system client (.committed verb result) next := by
  unfold System.commit at committed
  split at committed
  · cases committed
  · rename_i session open_
    split at committed
    · rename_i finished
      cases committed
      exact .committed open_ finished
    · cases committed

/-- What a schedule plays comes after, by induction on its calls. -/
theorem Onward.play (complete : ∀ client, client ∈ clients) {order : List Client}
    (played : system.play store clients order = some next)
    : Onward store code system next := by
  induction order generalizing system with
  | nil =>
      cases played
      exact .refl
  | cons client order ih =>
      obtain ⟨between, acted, rest⟩ := Option.bind_eq_some_iff.mp played
      exact .head ⟨client, _, System.act_sound complete acted⟩ (ih rest)

/-- What a schedule plays is reachable if calls are unrestricted, by induction on them. -/
theorem Reachable.play {initial : Database}
    {constraint
      : System Database Key Change Error Verb Result Client → Client
          → Event Error Verb Result → System Database Key Change Error Verb Result Client
          → Prop}
    (complete : ∀ client, client ∈ clients)
    (free : ∀ {system client next}, constraint system client .acted next)
    (reachable : Reachable store code constraint initial system) {order : List Client}
    (played : system.play store clients order = some next)
    : Reachable store code constraint initial next := by
  induction order generalizing system with
  | nil =>
      cases played
      exact reachable
  | cons client order ih =>
      obtain ⟨between, acted, rest⟩ := Option.bind_eq_some_iff.mp played
      exact ih (reachable.step (System.act_sound complete acted) free) rest

theorem System.awaits_sound {client other : Client}
    (awaits : system.awaits store client other = true)
    : system.Waits store client other := by
  unfold System.awaits at awaits
  split at awaits
  · rename_i session holder open_ open'
    simp only [Bool.and_eq_true, decide_eq_true_eq] at awaits
    obtain ⟨different, wants⟩ := awaits
    split at wants
    · rename_i key rest calls
      exact ⟨key, session, _, rest, holder, open_, calls, rfl, different, open',
        by simpa using wants⟩
    · rename_i keys change rest calls
      simp only [Bool.and_eq_true, List.any_eq_true, decide_eq_true_eq] at wants
      obtain ⟨absent, key, mem, held⟩ := wants
      exact ⟨key, session, _, rest, holder, open_, calls, ⟨mem, absent⟩, different, open',
        held⟩
    · cases wants
  · cases awaits

/-- Two transactions that wait for each other are deadlocked. -/
theorem System.deadlocked_of_awaits {first second : Client}
    (forth : system.awaits store first second = true)
    (back : system.awaits store second first = true)
    : system.Deadlocked store :=
  ⟨first, .tail (.single (System.awaits_sound forth)) (System.awaits_sound back)⟩

end Play

end Transactions

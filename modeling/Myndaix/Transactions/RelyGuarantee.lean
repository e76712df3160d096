import Myndaix.Transactions.Rules

/-! Rely-guarantee reasoning for interleaved transactions. Each transaction is verified alone,
against commits of the others that may land between any two of its calls; what it may rely on
depends on the locks it holds. The main theorem is that in every reachable system every open
transaction still meets its contract and no key is held twice.
-/

namespace Transactions

open Interaction

variable {Database Key Change Error Verb Client Result : Type}

/-- What the transactions of a code base promise one another. `rely` is what commits of others
can do to the rows under a transaction that holds the given locks; `permits` restricts its
calls; `post` is what it guarantees at its commit, given the rows committed when it began.
-/
structure Discipline (store : Store Database Key Change)
    (code : Verb → Transaction Database Key Change Error Result)
    (constraint
      : System Database Key Change Error Verb Result Client → Client
          → Event Error Verb Result → System Database Key Change Error Verb Result Client
          → Prop)
    where
  invariant : Database → Prop
  rely : Verb → List Key → Database → Database → Prop
  permits
    : Verb → Database → Place Database Key Change → Action Key Change Error → Prop
  post : Verb → Database → Result → Place Database Key Change → Prop
  rely_refl : ∀ verb locks database, rely verb locks database database
  rely_trans
    : ∀ {verb locks first second third},
        rely verb locks first second → rely verb locks second third
        → rely verb locks first third
  invariant_commit
    : ∀ {verb began result place},
        invariant place.committed → post verb began result place
        → invariant (store.viewAt place)
  rely_commit
    : ∀ {system next client session result other watcher},
        constraint system client (.committed session.verb result) next
        → system.sessions client = some session
        → invariant system.committed
        → post session.verb session.began result (system.place session)
        → system.sessions other = some watcher
        → (∀ key ∈ watcher.locks, key ∉ session.locks)
        → rely watcher.verb watcher.locks system.committed
            (store.viewAt (system.place session))

variable {system : System Database Key Change Error Verb Result Client}

namespace Discipline

variable {store : Store Database Key Change}
  {code : Verb → Transaction Database Key Change Error Result}
  {constraint
    : System Database Key Change Error Verb Result Client → Client
        → Event Error Verb Result → System Database Key Change Error Verb Result Client
        → Prop}
  (discipline : Discipline store code constraint)

/-- A transaction of this verb alone, among the commits that it relies on. -/
def setting (verb : Verb) (began : Database)
    : Setting (Action Key Change Error) (Action.Answer Database)
        (Place Database Key Change) :=
  store.amid (discipline.rely verb) (discipline.rely_refl verb) discipline.rely_trans
    (discipline.permits verb began)

/-- Every verb's program meets its contract from every database that satisfies the invariant.
-/
def Verified : Prop :=
  ∀ verb database,
    discipline.invariant database
    → (code verb).Ensures (discipline.setting verb database) (discipline.post verb database)
        ⟨database, [], []⟩

/-- The system keeps the invariant, every open transaction still meets its contract, and no
two transactions hold the same key.
-/
structure Sound (system : System Database Key Change Error Verb Result Client) : Prop where
  invariant : discipline.invariant system.committed
  contracts
    : ∀ client session,
        system.sessions client = some session
        → session.program.Ensures (discipline.setting session.verb session.began)
            (discipline.post session.verb session.began) (system.place session)
  exclusive
    : ∀ first second session other,
        first ≠ second
        → system.sessions first = some session
        → system.sessions second = some other
        → ∀ key ∈ session.locks, key ∉ other.locks

variable {discipline}

/-- A transaction about to commit satisfies its postcondition. -/
theorem Sound.finished (sound : discipline.Sound system) {client : Client}
    {session : Session Database Key Change Error Verb Result} {result : Result}
    (open_ : system.sessions client = some session) (finished : session.program = .done result)
    : discipline.post session.verb session.began result (system.place session) := by
  have contract := sound.contracts client session open_
  rw [finished] at contract
  exact contract (system.place session)
    ((discipline.setting session.verb session.began).interferes_refl (system.place session))

/-- The next call of an open transaction is permitted. -/
theorem Sound.permitted (sound : discipline.Sound system) {client : Client}
    {session : Session Database Key Change Error Verb Result} {action : Action Key Change Error}
    {next
      : action.Answer Database → Transaction Database Key Change Error Result}
    (open_ : system.sessions client = some session) (calls : session.program = .call action next)
    : discipline.permits session.verb session.began (system.place session) action := by
  have contract := sound.contracts client session open_
  rw [calls] at contract
  exact (contract (system.place session)
    ((discipline.setting session.verb session.began).interferes_refl
      (system.place session))).1

variable [DecidableEq Client]

/-- Closing a client's transaction without publishing anything keeps soundness. -/
theorem Sound.close (sound : discipline.Sound system) (client : Client)
    : discipline.Sound (system.setSession client none) := by
  have remaining {other session}
      (open_ : (system.setSession client none).sessions other = some session)
      : other ≠ client ∧ system.sessions other = some session := by
    by_cases same : other = client
    · subst same
      simp at open_
    · exact ⟨same, by rwa [system.setSession_other none same] at open_⟩
  refine ⟨sound.invariant, ?_, ?_⟩
  · exact fun other session open_ => sound.contracts other session (remaining open_).2
  · exact fun first second session other different open_ open' =>
      sound.exclusive first second session other different (remaining open_).2
        (remaining open').2

/-- Replacing a client's transaction keeps soundness when the new one meets its contract and
took only keys that were free.
-/
theorem Sound.replace (sound : discipline.Sound system) (client : Client)
    (session : Session Database Key Change Error Verb Result)
    (contract
      : session.program.Ensures (discipline.setting session.verb session.began)
          (discipline.post session.verb session.began) (system.place session))
    (free : ∀ key ∈ session.locks, ¬system.Busy client key)
    : discipline.Sound (system.setSession client (some session)) := by
  have others {other watcher} (different : other ≠ client)
      (open_ : (system.setSession client (some session)).sessions other = some watcher)
      : system.sessions other = some watcher := by
    rwa [system.setSession_other (some session) different] at open_
  have own {watcher}
      (open_ : (system.setSession client (some session)).sessions client = some watcher)
      : watcher = session := by
    simpa using open_.symm
  refine ⟨sound.invariant, ?_, ?_⟩
  · intro other watcher open_
    by_cases same : other = client
    · subst same
      rw [own open_]
      exact contract
    · exact sound.contracts other watcher (others same open_)
  · intro first second one two different open_ open' key held taken
    by_cases ofFirst : first = client
    · subst ofFirst
      rw [own open_] at held
      exact free key held
        ⟨second, two, Ne.symm different, others (Ne.symm different) open', taken⟩
    · by_cases ofSecond : second = client
      · subst ofSecond
        rw [own open'] at taken
        exact free key taken ⟨first, one, ofFirst, others ofFirst open_, held⟩
      · exact sound.exclusive first second one two different (others ofFirst open_)
          (others ofSecond open') key held taken

/-- Every step keeps soundness. Witness: a commit is interference that every other open
transaction relies on, and the other steps publish nothing.
-/
theorem Sound.step (verified : discipline.Verified)
    {system next : System Database Key Change Error Verb Result Client} {client : Client}
    {event : Event Error Verb Result} (sound : discipline.Sound system)
    (step : Step store code system client event next)
    (meets : constraint system client event next)
    : discipline.Sound next := by
  cases step with
  | began verb idle =>
      exact sound.replace client ⟨verb, system.committed, [], [], code verb⟩
        (verified verb system.committed sound.invariant) (by simp)
  | @acted session action rest answer after open_ calls answered free =>
      have contract := sound.contracts client session open_
      rw [calls] at contract
      have continues := (contract (system.place session)
        ((discipline.setting session.verb session.began).interferes_refl _)).2 answer after
        answered
      have kept := store.answers_committed answered
      refine sound.replace client _ ?_ ?_
      · have here : system.place
              ⟨session.verb, session.began, after.locks, after.changes, rest answer⟩
            = after := by
          cases after
          exact congrArg (fun rows => Place.mk rows _ _) kept.symm
        rw [here]
        exact continues
      · intro key mem
        rcases granted_locks answered free key mem with held | free
        · rintro ⟨other, watcher, different, open', taken⟩
          exact sound.exclusive client other session watcher (Ne.symm different) open_ open'
            key held taken
        · exact free
  | @committed session result open_ finished =>
      have post := sound.finished open_ finished
      have closed := sound.close client
      refine ⟨discipline.invariant_commit sound.invariant post, ?_, closed.exclusive⟩
      intro other watcher open'
      have different : other ≠ client := by
        rintro rfl
        simp at open'
      have before : system.sessions other = some watcher := by
        simpa [system.setSession_other none different] using open'
      have moved := discipline.rely_commit meets open_ sound.invariant post before
        (sound.exclusive other client watcher session different before open_)
      exact (sound.contracts other watcher before).interfere ⟨rfl, rfl, moved⟩
  | aborted open_ raised => exact sound.close client
  | crashed open_ => exact sound.close client

/-- Every reachable system is sound, by induction on the run. -/
theorem Verified.sound (verified : discipline.Verified) {initial : Database}
    (established : discipline.invariant initial)
    (reachable : Reachable store code constraint initial system)
    : discipline.Sound system := by
  induction reachable with
  | start => exact ⟨established, by simp [System.quiet], by simp [System.quiet]⟩
  | step earlier step meets ih => exact ih.step verified step meets

/-- A property of the committed rows holds in every reachable system once every commit of the
verbs that may begin preserves it, by induction on the run.
-/
theorem Verified.preserves (verified : discipline.Verified) {initial : Database}
    (established : discipline.invariant initial) {property : Database → Prop}
    (start : property initial) {called : Verb → Prop}
    (begins
      : ∀ {system client verb next}, constraint system client (.began verb) next → called verb)
    (preserved
      : ∀ {verb began result place},
          called verb → discipline.invariant place.committed
          → discipline.post verb began result place
          → property place.committed → property (store.viewAt place))
    (reachable : Reachable store code constraint initial system)
    : property system.committed := by
  induction reachable with
  | start => exact start
  | step earlier step _ ih =>
      have sound := verified.sound established earlier
      cases step with
      | began | acted | aborted | crashed => simpa using ih
      | committed open_ finished =>
          exact preserved (earlier.called begins open_) sound.invariant
            (sound.finished open_ finished) ih

/-- What relates every database to each of its commits relates a reachable system to those that
come after it, by induction on the later steps.
-/
theorem Verified.onward
    {discipline : Discipline store code
    (@unrestricted Database Key Change Error Verb Client Result)}
    (verified : discipline.Verified) {evolves : Database → Database → Prop}
    (refl : ∀ database, evolves database database)
    (trans
      : ∀ {first second third}, evolves first second → evolves second third → evolves first third)
    (commits
      : ∀ {verb began result place},
          discipline.invariant place.committed → discipline.post verb began result place
          → evolves place.committed (store.viewAt place))
    {system later : System Database Key Change Error Verb Result Client}
    (sound : discipline.Sound system) (onward : Onward store code system later)
    : discipline.Sound later ∧ evolves system.committed later.committed := by
  induction onward with
  | refl => exact ⟨sound, refl _⟩
  | tail _ step ih =>
      obtain ⟨client, event, step⟩ := step
      refine ⟨ih.1.step verified step trivial, trans ih.2 ?_⟩
      cases step with
      | began | acted | aborted | crashed => simpa using refl _
      | committed open_ finished => exact commits ih.1.invariant (ih.1.finished open_ finished)

end Discipline

end Transactions

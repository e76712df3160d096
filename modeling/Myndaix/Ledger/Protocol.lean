import Myndaix.Ledger.Preservation
import Myndaix.Transactions.RelyGuarantee

/-! The protocol among the ledger's transactions: what a transaction may rely on while it holds
its locks, which calls it may make, and how it ends. A transaction locks in one order, writes
only what it has locked, and commits one of the ledger's commits.
-/

namespace Ledger

open Interaction Relational Transactions

/-- What others can do to the committed rows while a transaction holds these keys; `exact` says
that there are no others.
-/
def Rely (exact : Prop) (held : List Key) (database later : Database) : Prop :=
  Evolves (· ∉ held) database later ∧ (exact → later = database)

theorem Rely.refl (exact : Prop) (held : List Key) (database : Database)
    : Rely exact held database database :=
  ⟨Evolves.refl _ database, fun _ => rfl⟩

theorem Rely.trans {exact : Prop} {held : List Key} {first second third : Database}
    (earlier : Rely exact held first second) (latest : Rely exact held second third)
    : Rely exact held first third :=
  ⟨earlier.1.trans latest.1, fun alone => (latest.2 alone).trans (earlier.2 alone)⟩

/-- The classes of the lock order: attempts, jobs, counters, index entries. -/
def Key.kind : Key → Nat
  | .attempt _ | .outbound _ => 0
  | .job _ => 1
  | .repo _ => 2
  | _ => 3

/-- The order in which a verb locks several counters: reclaiming sorts them by code points,
reconciling lets the database sort those that it has.
-/
def Verb.repoOrder (config : Config) (rows : Database) (first second : String) : Verb → Prop
  | .reclaimExpired .. => first < second
  | .reconcileRepoConcurrency _ =>
      (config.collation.le first second = true ∧ first ≠ second)
      ∧ (rows.repo? first).isSome = true
      ∧ (rows.repo? second).isSome = true
  | _ => False

/-- One key is locked before the other. -/
def Before (config : Config) (verb : Verb) (rows : Database) (held wanted : Key) : Prop :=
  held.kind < wanted.kind
  ∨ ∃ first second,
      held = .repo first ∧ wanted = .repo second ∧ verb.repoOrder config rows first second

def Verb.reconciles : Verb → Bool
  | .reconcileRepoConcurrency _ => true
  | _ => false

/-- The key comes after all the keys held, or is held already. Reconciling breaks the order for
counters that others have added since it began.
-/
def Orderly (config : Config) (verb : Verb) (began rows : Database) (held : List Key)
    (key : Key)
    : Prop :=
  key ∈ held
  ∨ (∀ other ∈ held, Before config verb rows other key)
  ∨ (verb.reconciles = true
    ∧ ∃ repo, key = .repo repo ∧ began.repo? repo = none ∧ (rows.repo? repo).isSome = true)

/-- Every soft counter is the hard count, and no open attempt is left behind on a dead job. -/
structure Accurate (database : Database) : Prop where
  active : ∀ repo, database.activeOf repo = database.openNow repo
  unorphaned
    : ∀ attempt ∈ database.attempts, ∀ job,
        attempt.status = .open_ → database.job? attempt.jobId = some job
        → job.status.live = true

/-- A decrement stays at or above zero if the counters were accurate. -/
def NoFloor (place : Place Database Key Change) (change : Change) : Prop :=
  ∀ repo slots,
    change = .decrement repo slots
    → Accurate place.committed
    → ∀ row ∈ (store.viewAt place).repoConcurrency, row.repoId = repo → (slots : Int) ≤ row.active

/-- The attempt is open in the committed rows. -/
def OpenIn (database : Database) (attemptId : Id) : Prop :=
  ∃ attempt, database.attempt? attemptId = some attempt ∧ attempt.status = .open_

/-- The calls a verb's transaction may make. -/
def Permits (config : Config) (verb : Verb) (began : Database)
    (place : Place Database Key Change)
    : Action Key Change LedgerError → Prop
  | .lock key => Orderly config verb began place.committed place.locks key
  | .insert keys change =>
      (∀ key ∈ keys, Orderly config verb began place.committed place.locks key)
      ∧ (∀ key ∈ change.keys, key ∈ keys ++ place.locks)
      ∧ NoFloor place change
  | .write change => (∀ key ∈ change.keys, key ∈ place.locks) ∧ NoFloor place change
  | .unlock => ∀ change ∈ place.changes, ∀ key ∈ change.keys, key ∈ place.locks.tail
  | .raise error =>
      ∀ attemptId,
        verb.fences = some attemptId
        → (∃ message, error = .lostLease message) ∨ OpenIn place.committed attemptId
  | .look | .tryLock _ => True

/-- Everything written is locked. -/
def Guarded (place : Place Database Key Change) : Prop :=
  ∀ change ∈ place.changes, ∀ key ∈ change.keys, key ∈ place.locks

/-- How a verb's transaction ends: in one of the ledger's commits, and a worker's verb only
while its attempt was open.
-/
structure Ends (config : Config) (exact : Prop) (verb : Verb)
    (place : Place Database Key Change)
    : Prop where
  commit
    : Commit config exact verb place.locks place.committed
        (store.view place.committed place.changes)
  fenced : ∀ attemptId, verb.fences = some attemptId → OpenIn place.committed attemptId

/-- A verb's transaction among others that keep to the protocol. -/
def ledgerSetting (config : Config) (exact : Prop) (verb : Verb) (began : Database)
    : Setting (Action Key Change LedgerError) (Action.Answer Database)
        (Place Database Key Change) :=
  store.amid (Rely exact) (Rely.refl exact) Rely.trans (Permits config verb began)

/-- Permitted calls keep everything written locked. -/
theorem Guarded.step {config : Config} {verb : Verb} {began : Database}
    {place after : Place Database Key Change} {action : Action Key Change LedgerError}
    {answer : action.Answer Database} (guarded : Guarded place)
    (permitted : Permits config verb began place action)
    (answered : store.answers action place answer after)
    : Guarded after := by
  cases action with
  | look =>
      obtain ⟨_, rfl⟩ := answered
      exact guarded
  | lock key =>
      cases answered
      exact fun change mem wanted inside =>
        List.mem_cons_of_mem key (guarded change mem wanted inside)
  | tryLock key =>
      cases answered
      cases answer with
      | true =>
          exact fun change mem wanted inside =>
            List.mem_cons_of_mem key (guarded change mem wanted inside)
      | false => exact guarded
  | insert keys change =>
      obtain ⟨_, rfl⟩ := answered
      cases answer with
      | true =>
          intro other mem wanted inside
          rcases List.mem_append.mp mem with old | new
          · exact List.mem_append_right keys (guarded other old wanted inside)
          · rw [List.mem_singleton.mp new] at inside
            exact permitted.2.1 wanted inside
      | false => exact guarded
  | write change =>
      cases answered
      intro other mem wanted inside
      rcases List.mem_append.mp mem with old | new
      · exact guarded other old wanted inside
      · rw [List.mem_singleton.mp new] at inside
        exact permitted.1 wanted inside
  | unlock =>
      cases answered
      exact permitted
  | raise error => exact answered.elim

/-- What is written is what a commit touches. -/
theorem Guarded.framed {place : Place Database Key Change} (guarded : Guarded place)
    : Framed (· ∈ place.locks) place.committed (store.view place.committed place.changes) :=
  (view_framed _ place.committed place.changes).mono
    (fun key ⟨change, mem, inside⟩ => guarded change mem key inside)

/-- The protocol as a discipline for the ledger's verbs. -/
def protocol {Client : Type} (config : Config)
    (constraint
      : LedgerSystem Client → Client → Event LedgerError Verb Reply → LedgerSystem Client
        → Prop)
    : Discipline store (code config) constraint where
  invariant := Consistent
  rely _ := Rely False
  permits := Permits config
  post verb _ _ place := Guarded place ∧ Ends config False verb place
  rely_refl _ := Rely.refl False
  rely_trans := Rely.trans
  invariant_commit holds ends := ends.2.commit.consistent ends.1.framed holds
  rely_commit := by
    intro system next client session result other watcher _ _ holds ends _ disjoint
    refine ⟨?_, False.elim⟩
    refine (ends.2.commit.evolves ends.1.framed holds).mono ?_
    exact fun key held watched => disjoint key watched held

/-- A verb keeps to the protocol when, from consistent tables, its program ends well. -/
def Keeps (config : Config) (exact : Prop) (verb : Verb) : Prop :=
  ∀ began,
    Consistent began
    → (code config verb).Ensures (ledgerSetting config exact verb began)
        (fun _ => Ends config exact verb) ⟨began, [], []⟩

/-- The verbs' contracts add up to a verified ledger. -/
theorem protocol_verified {Client : Type} {config : Config}
    {constraint
      : LedgerSystem Client → Client → Event LedgerError Verb Reply → LedgerSystem Client
        → Prop}
    (keeps : ∀ verb, Keeps config False verb)
    : (protocol config constraint).Verified := by
  intro verb began holds
  change Program.Ensures _ (code config verb)
    (fun _ place => Guarded place ∧ Ends config False verb place) _
  refine Program.Ensures.keeps ?_ Guarded.step (keeps verb began holds) (by simp [Guarded])
  rintro ⟨rows, locks, changes⟩ ⟨_, _, _⟩ guarded ⟨rfl, rfl, _⟩
  exact guarded

end Ledger

import Mathlib.Data.String.Basic
import Mathlib.Data.Prod.Lex
import Myndaix.Ledger.Ownership
import Myndaix.Transactions.Schedule

/-! The lock order: attempts, then jobs, then counters by the name of their repository. It rules
out deadlocks as long as everybody sorts the counters alike and nobody adds one while another
transaction reconciles.
-/

namespace Ledger

open Interaction Relational Transactions

/-- The name that orders counters among themselves. -/
def Key.repoName : Key → String
  | .repo repoId => repoId
  | _ => ""

/-- The rank of a key in the common order. -/
def Key.rank (key : Key) : Nat ×ₗ String :=
  toLex (key.kind, key.repoName)

/-- The database sorts the counters that it has as Python sorts their names. -/
def SortedAlike (config : Config) (database : Database) : Prop :=
  ∀ first second,
    (database.repo? first).isSome = true
    → (database.repo? second).isSome = true
    → config.collation.le first second = true
    → first ≤ second

/-- What is locked before ranks below. -/
theorem Before.rank_lt {config : Config} {verb : Verb} {rows : Database} {held wanted : Key}
    (before : Before config verb rows held wanted)
    (alike : verb.reconciles = true → SortedAlike config rows)
    : held.rank < wanted.rank := by
  rw [Prod.Lex.lt_iff]
  rcases before with kinds | ⟨first, second, rfl, rfl, order⟩
  · exact Or.inl kinds
  · refine Or.inr ⟨rfl, ?_⟩
    change first < second
    cases verb with
    | reclaimExpired healedAt now => exact order
    | reconcileRepoConcurrency now =>
        obtain ⟨⟨le, different⟩, present, present'⟩ := order
        exact lt_of_le_of_ne (alike rfl first second present present' le) different
    | _ => exact order.elim

variable {Client : Type} [DecidableEq Client] {config : Config} {system : LedgerSystem Client}

/-- What keeps a run in the lock order: when a transaction begins to reconcile, the database
sorts its counters by code points, and a transaction that has added a counter does not commit
while another one reconciles.
-/
def inLockOrder (config : Config) (system : LedgerSystem Client) (client : Client)
    (event : Event LedgerError Verb Reply) (_ : LedgerSystem Client)
    : Prop :=
  match event with
  | .began verb => verb.reconciles = true → SortedAlike config system.committed
  | .committed .. =>
      ∀ other watcher session,
        other ≠ client
        → system.sessions other = some watcher
        → watcher.verb.reconciles = true
        → system.sessions client = some session
        → ∀ change ∈ session.changes, change.seeds = none
  | _ => True

/-- Transactions that reconcile know all the counters there are, and these are sorted alike. -/
def CountersKnown (config : Config) (system : LedgerSystem Client) : Prop :=
  ∀ client session,
    system.sessions client = some session
    → session.verb.reconciles = true
    → SortedAlike config session.began
      ∧ ∀ repo,
          (system.committed.repo? repo).isSome = true
          → (session.began.repo? repo).isSome = true

theorem isSome_repo?_iff {database : Database} {repo : String}
    : (database.repo? repo).isSome = true
      ↔ repo ∈ database.repoConcurrency.map RepoConcurrency.repoId := by
  simp [Database.repo?, lookup, List.mem_map]

/-- Counters become known when a transaction begins, and nobody adds one while it reconciles. -/
theorem CountersKnown.step (known : CountersKnown config system) {client : Client}
    {event : Event LedgerError Verb Reply} {next : LedgerSystem Client}
    (step : Step store (code config) system client event next)
    (meets : inLockOrder config system client event next)
    : CountersKnown config next := by
  have others {replaced : Option (Session Database Key Change LedgerError Verb Reply)}
      {other : Client} {watcher : Session Database Key Change LedgerError Verb Reply}
      (different : other ≠ client)
      (open_ : (system.setSession client replaced).sessions other = some watcher)
      : system.sessions other = some watcher := by
    rwa [system.setSession_other replaced different] at open_
  intro other watcher open_ reconciles
  by_cases same : other = client
  · subst same
    cases step with
    | began verb idle =>
        obtain rfl := Option.some.inj ((System.setSession_same _ _ _).symm.trans open_)
        exact ⟨meets reconciles, fun _ present => present⟩
    | acted open' calls answered free =>
        obtain rfl := Option.some.inj ((System.setSession_same _ _ _).symm.trans open_)
        have kept := known other _ open'
        exact kept reconciles
    | committed | aborted | crashed => simp at open_
  · cases step with
    | began | acted | aborted | crashed =>
        exact known other watcher (others same open_) reconciles
    | @committed session result open' finished =>
        have before := others same open_
        obtain ⟨alike, all⟩ := known other watcher before reconciles
        refine ⟨alike, fun repo present => all repo ?_⟩
        have seeds := meets other watcher session same before reconciles open'
        rw [isSome_repo?_iff, view_repoIds, List.mem_append] at present
        rcases present with there | added
        · exact isSome_repo?_iff.mpr there
        · obtain ⟨change, mem, seeded⟩ := List.mem_filterMap.mp added
          rw [seeds change mem] at seeded
          cases seeded

/-- So they do throughout the run, by induction on it. -/
theorem countersKnown_along
    (reachable : Reachable store (code config) (inLockOrder config) .empty system)
    : CountersKnown config system := by
  induction reachable with
  | start =>
      intro client session open_
      cases open_
  | step _ step meets ih => exact ih.step step meets

/-- Along a run in the lock order, a transaction holds only keys that rank below the one it
waits for.
-/
theorem ledger_ranked
    (reachable : Reachable store (code config) (inLockOrder config) .empty system)
    : system.Ranked store Key.rank := by
  have sound := ledger_sound reachable
  have known := countersKnown_along reachable
  intro client session key other open_ waits held mem
  obtain ⟨_, action, next, holder, open', calls, blocks, different, openOther, taken⟩ := waits
  obtain rfl := Option.some.inj (open_.symm.trans open')
  have permitted := sound.permitted open_ calls
  have orderly
      : Orderly config session.verb session.began system.committed session.locks key := by
    cases action with
    | lock wanted =>
        obtain rfl : key = wanted := blocks
        exact permitted
    | insert keys change => exact permitted.1 key blocks.1
    | look | tryLock | write | unlock | raise => exact blocks.elim
  rcases orderly with own | before | ⟨reconciles, repo, rfl, unknown, present⟩
  · exact absurd taken (sound.exclusive client other session holder (Ne.symm different) open_
      openOther key own)
  · refine (before held mem).rank_lt (fun reconciles first second present present' => ?_)
    obtain ⟨alike, all⟩ := known client session open_ reconciles
    exact alike first second (all first present) (all second present')
  · have found := (known client session open_ reconciles).2 repo present
    rw [unknown] at found
    cases found

/-- Such a run never deadlocks. -/
theorem ledger_not_deadlocked
    (reachable : Reachable store (code config) (inLockOrder config) .empty system)
    : ¬system.Deadlocked store :=
  (ledger_ranked reachable).not_deadlocked

section Samples

/-- Two transactions that queue a job with the same id: the second waits for the first. -/
def colliding : Option (LedgerSystem Bool) := do
  let submission : Submission := ⟨"echo", "one", none, none, "user", some "B", none, 0⟩
  let system ← System.begin (code .sample) (.quiet .empty) false (.submitJob submission 1 10)
  let system ← System.begin (code .sample) system true (.submitJob submission 1 10)
  system.play store [false, true] [false]

/-- One transaction waits, and they do not wait for each other. -/
theorem ledger_not_deadlocked_sample
    : ∃ system,
        colliding = some system
        ∧ system.Waits store true false
        ∧ ¬system.Deadlocked store := by
  have collides : colliding.any (fun system => system.awaits store true false) = true := by
    decide
  obtain ⟨system, reached, awaits⟩ := (Option.any_eq_true ..).mp collides
  refine ⟨system, reached, System.awaits_sound awaits, ?_⟩
  simp only [colliding, Option.bind_eq_bind, Option.bind_eq_some_iff] at reached
  obtain ⟨first, begins, second, begins', played⟩ := reached
  refine @ledger_not_deadlocked _ _ .sample _ ?_
  exact ((Reachable.start.step (System.begin_sound begins)
    (by simp [inLockOrder, Verb.reconciles])).step
    (System.begin_sound begins') (by simp [inLockOrder, Verb.reconciles])).play
    (by decide) trivial played

/-- A name as a collation that ignores case first reads it. -/
def caseless (text : String) : List Char :=
  text.toList.map Char.toLower

/-- The order of a linguistic collation: letters first, case only between equal letters. -/
def Collation.ignoringCase : Collation where
  le first second := toLex (caseless first, first) ≤ toLex (caseless second, second)
  total first second := by
    simpa using le_total (toLex (caseless first, first)) (toLex (caseless second, second))
  trans earlier later := by
    simpa using le_trans (by simpa using earlier) (by simpa using later)
  antisymm le ge := by
    have same := le_antisymm (by simpa using le) (by simpa using ge)
    exact congrArg (fun name => (ofLex name).2) same

/-- The sample ledger in a database with such a collation. -/
def Config.linguistic : Config :=
  { Config.sample with collation := .ignoringCase }

/-- Two leased jobs on the repositories `B` and `a`. -/
def sampleExpired : List Verb :=
  [
    .submitJob ⟨"echo", "one", none, none, "user", some "B", none, 0⟩ 1 10,
    .submitJob ⟨"echo", "two", none, none, "user", some "a", none, 0⟩ 2 10,
    .leaseJob "worker" [] 3 20,
    .leaseJob "worker" [] 4 20
  ]

/-- Both leases are over: `reclaim_expired` has taken the counter of `B` and comes to `a`, while
`reconcile_repo_concurrency` has taken `a` and comes to `B`.
-/
def crossing : Option (LedgerSystem Bool) := do
  let system : LedgerSystem Bool := .quiet (sampleState sampleExpired)
  let system ← system.begin (code .linguistic) false (.reclaimExpired 200 200)
  let system ← system.begin (code .linguistic) true (.reconcileRepoConcurrency 200)
  system.play store [false, true] (List.replicate 19 false ++ List.replicate 4 true)

theorem crossing_reachable {system : LedgerSystem Bool} (crosses : crossing = some system)
    : LedgerReachable .linguistic system := by
  have serial
      : Serial store (code .linguistic) (fun _ => True) .empty (sampleState sampleExpired) :=
    Serial.start.runAll (fun _ _ => trivial)
      (show store.runAll (code .linguistic) .empty sampleExpired
          = .ok (sampleState sampleExpired) from rfl)
  have quiet
      : LedgerReachable .linguistic (.quiet (sampleState sampleExpired) : LedgerSystem Bool) :=
    serial.reachable (fun _ => trivial) (fun _ => trivial)
  simp only [crossing, Option.bind_eq_bind, Option.bind_eq_some_iff] at crosses
  obtain ⟨first, reclaims, second, reconciles, played⟩ := crosses
  exact ((quiet.step (System.begin_sound reclaims) trivial).step
    (System.begin_sound reconciles) trivial).play (by decide) trivial played

/-- They wait for each other: the two sort the counters by different means. -/
theorem reclaim_reconcile_deadlock
    : ∃ system : LedgerSystem Bool,
        LedgerReachable .linguistic system ∧ system.Deadlocked store := by
  have crosses
      : crossing.any
          (fun system =>
            system.awaits store false true && system.awaits store true false)
        = true := by
    decide
  obtain ⟨system, reached, awaits⟩ := (Option.any_eq_true ..).mp crosses
  obtain ⟨forth, back⟩ := Bool.and_eq_true_iff.mp awaits
  exact ⟨system, crossing_reachable reached, System.deadlocked_of_awaits forth back⟩

end Samples

end Ledger

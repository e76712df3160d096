import Mathlib.Data.List.Dedup
import Myndaix.Ledger.Alone
import Myndaix.Ledger.Orphans

/-! Reconciling alone: from any rows whatever, every soft counter is the hard count afterwards.
-/

namespace Ledger

open Interaction Relational Transactions

variable {config : Config} {database : Database}

/-- The same rows up to the counters. -/
def SameButCounters (database later : Database) : Prop :=
  later = { database with repoConcurrency := later.repoConcurrency }

theorem SameButCounters.trans {first second third : Database}
    (earlier : SameButCounters first second) (latest : SameButCounters second third)
    : SameButCounters first third := by
  unfold SameButCounters at *
  rw [latest, earlier]

theorem SameButCounters.openNow {later : Database} (same : SameButCounters database later)
    (repo : String)
    : later.openNow repo = database.openNow repo := by
  rw [same]
  rfl

/-- Grouping finds exactly the repositories with live attempts. -/
theorem mem_liveRepos {repo : String}
    : repo ∈ liveRepos database ↔ database.openNow repo ≠ 0 := by
  rw [← Nat.pos_iff_ne_zero, Database.openNow, List.countP_pos_iff]
  simp only [liveRepos, List.mem_dedup, reposOf, List.mem_filterMap, List.mem_filter,
    Bool.and_eq_true, decide_eq_true_eq, mem_joined, Database.liveOn, Option.any_eq_true]
  constructor
  · rintro ⟨⟨attempt, job⟩, ⟨⟨mem, found⟩, isOpen, live⟩, own⟩
    exact ⟨attempt, mem, isOpen, job, found, own, live⟩
  · rintro ⟨attempt, mem, isOpen, job, found, own, live⟩
    exact ⟨⟨attempt, job⟩, ⟨⟨mem, found⟩, isOpen, live⟩, own⟩

/-- Healing orphans alone never fails. -/
theorem closeOrphans_alone (order : List (Attempt × Job) → List (Attempt × Job)) (now : Time)
    (database : Database)
    : ∃ orphans closed, store.alone (closeOrphans order now) database = .ok (orphans, closed) := by
  simp only [closeOrphans, alone_look]
  rw [Store.alone_then (alone_selectForUpdate store _ _ _ _)]
  exact ⟨_, _, rfl⟩

/-- Locking the counters changes nothing. -/
theorem lockRepos_alone (config : Config) (database : Database)
    : store.alone (lockRepos config) database = .ok ((), database) := by
  have locked (repos : List String)
      : store.alone (Program.fold (fun _ repo => lock (.repo repo)) () repos) database
        = .ok ((), database) := by
    induction repos with
    | nil => rfl
    | cons repo repos ih => exact ih
  exact locked _

section Upsert

/-- One row of the upsert, with the count that `rows` has. -/
def upsertCount (rows : Database) (repo : String) : Txn Unit := do
  let active : Int := rows.openNow repo
  if ← insert [.repo repo] (.insertRepo ⟨repo, active⟩) then pure ()
  else
    lock (.repo repo)
    write (.setActive repo active)

/-- One row alone: whether the counter was missing or not, it has the true count afterwards. -/
theorem upsertCount_alone (rows before : Database) (repo : String)
    : ∃ after,
        store.alone (upsertCount rows repo) before = .ok ((), after)
        ∧ SameButCounters before after
        ∧ ∀ other,
            after.activeOf other
              = if repo = other then (rows.openNow repo : Int) else before.activeOf other := by
  simp only [upsertCount, insert, Program.call_bind, Program.done_bind, Store.alone_insert]
  by_cases there : (before.repo? repo).isSome = true
  · refine ⟨store.apply (.setActive repo (rows.openNow repo)) before, ?_, rfl,
      activeOf_setActive there⟩
    simp [store, storeWith, Key.present, there, lock, write]
  · refine ⟨store.apply (.insertRepo ⟨repo, rows.openNow repo⟩) before, ?_, rfl, ?_⟩
    · simp [store, storeWith, Key.present, there]
    · intro other
      have missing : before.repo? repo = none := by simpa using there
      simp only [Database.activeOf, Database.repo?] at missing ⊢
      simp only [store, storeWith, Change.apply, lookup_append]
      by_cases own : repo = other
      · subst own
        simp [missing]
      · simp [own]

/-- Rows upserted one after the other, by induction on them. -/
theorem upsertRows_alone (rows before : Database) (repos : List String)
    : ∃ after,
        store.alone (Program.fold (fun _ repo => upsertCount rows repo) () repos) before
          = .ok ((), after)
        ∧ SameButCounters before after
        ∧ ∀ repo,
            after.activeOf repo
              = if repo ∈ repos then (rows.openNow repo : Int) else before.activeOf repo := by
  induction repos generalizing before with
  | nil => exact ⟨before, rfl, rfl, by simp⟩
  | cons repo repos ih =>
      obtain ⟨between, ran, same, active⟩ := upsertCount_alone rows before repo
      obtain ⟨after, ran', same', active'⟩ := ih between
      refine ⟨after, (Store.alone_then ran _).trans ran', same.trans same', fun other => ?_⟩
      rw [active', active]
      by_cases own : repo = other
      · simp [own]
      · simp [own, Ne.symm own]

/-- The upsert writes the true count of every repository with live attempts. -/
theorem upsertCounts_alone (config : Config) (database : Database)
    : ∃ healed later,
        store.alone (upsertCounts config) database = .ok (healed, later)
        ∧ SameButCounters database later
        ∧ ∀ repo, database.openNow repo ≠ 0 → later.activeOf repo = database.openNow repo := by
  obtain ⟨later, ran, same, active⟩ :=
    upsertRows_alone database database (config.groups (liveRepos database))
  refine ⟨_, later, Store.alone_then ran _, same, fun repo live => ?_⟩
  rw [active, if_pos ((config.groups_perm _).mem_iff.mpr (mem_liveRepos.mpr live))]

end Upsert

section Zero

/-- A counter above zero without live attempts in `rows`. -/
def staleCount (rows latest : Database) (repo : String) : Bool :=
  (latest.repo? repo).any (fun row => row.active ≠ 0) && rows.openNow repo = 0

/-- One row of the zeroing update. -/
def zeroCount (rows : Database) (repo : String) : Txn Unit := do
  let _ ← updateFrom rows (.repo repo) (fun latest => staleCount rows latest repo)
    (.setActive repo 0)
  pure ()

/-- A counter that is not stale and belongs to no live attempt is zero. -/
theorem activeOf_unstale {rows latest : Database} {repo : String}
    (idle : rows.openNow repo = 0) (fresh : staleCount rows latest repo = false)
    : latest.activeOf repo = 0 := by
  unfold Database.activeOf
  cases found : latest.repo? repo with
  | none => rfl
  | some row => simpa [staleCount, idle, found] using fresh

/-- One stale row alone: it is zero afterwards, whoever zeroed it. -/
theorem zeroCount_alone {rows before : Database} {repo : String}
    (stale : staleCount rows rows repo = true)
    : ∃ after,
        store.alone (zeroCount rows repo) before = .ok ((), after)
        ∧ SameButCounters before after
        ∧ ∀ other,
            after.activeOf other = if repo = other then 0 else before.activeOf other := by
  have idle : rows.openNow repo = 0 := by
    simp only [staleCount, Bool.and_eq_true, decide_eq_true_eq] at stale
    exact stale.2
  simp only [zeroCount, updateFrom, stale, if_true, Program.bind_assoc, alone_lock, alone_look]
  by_cases still : staleCount rows before repo = true
  · have there : (before.repo? repo).isSome = true := by
      simp only [staleCount, Bool.and_eq_true] at still
      obtain ⟨row, found, _⟩ := (Option.any_eq_true ..).mp still.1
      simp [found]
    refine ⟨store.apply (.setActive repo 0) before, ?_, rfl, activeOf_setActive there⟩
    simp only [still, if_true]
    rfl
  · simp only [Bool.not_eq_true] at still
    refine ⟨before, ?_, rfl, fun other => ?_⟩
    · simp only [still, Bool.false_eq_true, if_false]
      rfl
    · split
      · subst_vars
        exact activeOf_unstale idle still
      · rfl

/-- Rows zeroed one after the other, by induction on them. -/
theorem zeroRows_alone {rows : Database} (before : Database) {repos : List String}
    (stale : ∀ repo ∈ repos, staleCount rows rows repo = true)
    : ∃ after,
        store.alone (Program.fold (fun _ repo => zeroCount rows repo) () repos) before
          = .ok ((), after)
        ∧ SameButCounters before after
        ∧ ∀ repo,
            after.activeOf repo = if repo ∈ repos then 0 else before.activeOf repo := by
  induction repos generalizing before with
  | nil => exact ⟨before, rfl, rfl, by simp⟩
  | cons repo repos ih =>
      obtain ⟨between, ran, same, active⟩ := zeroCount_alone (stale repo List.mem_cons_self)
      obtain ⟨after, ran', same', active'⟩ :=
        ih between (fun other mem => stale other (List.mem_cons_of_mem repo mem))
      refine ⟨after, (Store.alone_then ran _).trans ran', same.trans same', fun other => ?_⟩
      rw [active', active]
      by_cases own : repo = other
      · simp [own]
      · simp [own, Ne.symm own]

/-- The counters without live attempts are zeroed, so the others are all that counts. -/
theorem zeroCounts_alone (config : Config)
    (counted
      : ∀ repo, database.openNow repo ≠ 0 → database.activeOf repo = database.openNow repo)
    : ∃ later,
        store.alone (zeroCounts config) database = .ok ((), later)
        ∧ SameButCounters database later
        ∧ ∀ repo, later.activeOf repo = database.openNow repo := by
  let repos := config.groups
    ((database.repoConcurrency.map RepoConcurrency.repoId).filter
      (fun repo => staleCount database database repo))
  have mem (repo : String) : repo ∈ repos ↔ staleCount database database repo = true := by
    rw [(config.groups_perm _).mem_iff, List.mem_filter, and_iff_right_iff_imp]
    intro stale
    simp only [staleCount, Bool.and_eq_true] at stale
    obtain ⟨row, found, _⟩ := (Option.any_eq_true ..).mp stale.1
    exact List.mem_map.mpr ⟨row, lookup_mem found, lookup_key found⟩
  obtain ⟨later, ran, same, active⟩ :=
    zeroRows_alone database (fun repo listed => (mem repo).mp listed)
  refine ⟨later, ran, same, fun repo => ?_⟩
  rw [active]
  by_cases idle : database.openNow repo = 0
  · split
    · rw [idle]
      rfl
    · have fresh : staleCount database database repo = false :=
        Bool.eq_false_iff.mpr (fun stale => ‹repo ∉ _› ((mem repo).mpr stale))
      rw [idle]
      exact activeOf_unstale idle fresh
  · rw [if_neg (fun listed => idle ?_), counted repo idle]
    have stale := (mem repo).mp listed
    simp only [staleCount, Bool.and_eq_true, decide_eq_true_eq] at stale
    exact stale.2

end Zero

/-- From any rows, one `reconcile_repo_concurrency` alone brings every counter to the truth. -/
theorem reconcile_alone (config : Config) (now : Time) (database : Database)
    : ∃ reply later,
        store.alone (code config (.reconcileRepoConcurrency now)) database = .ok (reply, later)
        ∧ ∀ repo, later.activeOf repo = later.openNow repo := by
  obtain ⟨orphans, closed, healed⟩ := closeOrphans_alone
    (fun rows => rows.insertionSort (fun first second => first.1.id ≤ second.1.id)) now database
  obtain ⟨count, upserted, ran, same, counted⟩ := upsertCounts_alone config closed
  obtain ⟨later, ran', same', active⟩ := zeroCounts_alone config (by
    intro repo live
    rw [same.openNow] at live ⊢
    exact counted repo live)
  refine ⟨.count count, later, ?_, fun repo => ?_⟩
  · simp only [code, reconcileRepoConcurrency, Program.bind_assoc]
    rw [Store.alone_then healed, Store.alone_then (lockRepos_alone config closed),
      Store.alone_then ran, Store.alone_then ran']
    rfl
  · rw [active, same'.openNow]

end Ledger

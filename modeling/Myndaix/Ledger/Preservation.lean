import Myndaix.Ledger.Growth
import Myndaix.Ledger.Settlement

/-! Every commit keeps the tables consistent and is an evolution of the ledger that touches only
the keys its transaction held.
-/

namespace Ledger

open Relational Transactions

variable {config : Config} {exact : Prop} {verb : Verb} {held : List Key}
  {database later : Database}

variable {repo : String}

/-- Counters' rows never go away. -/
theorem Framed.repo_isSome {touched : Key → Prop} (framed : Framed touched database later)
    (present : (database.repo? repo).isSome = true)
    : (later.repo? repo).isSome = true := by
  obtain ⟨row, found⟩ := Option.isSome_iff_exists.mp present
  obtain ⟨next, found', _⟩ := framed.repo found
  exact Option.isSome_iff_exists.mpr ⟨next, found'⟩

theorem view_repo_isSome {rows : Database} (changes : List Change)
    (present : (rows.repo? repo).isSome = true)
    : ((store.view rows changes).repo? repo).isSome = true :=
  Framed.repo_isSome (view_framed (fun difference => max difference 0) rows changes) present

/-- A counter that a transaction has not written reads as it is committed. -/
theorem activeOf_view {rows : Database} {changes : List Change}
    (untouched : ∀ change ∈ changes, Key.repo repo ∉ change.keys)
    (present : (rows.repo? repo).isSome = true)
    : (store.view rows changes).activeOf repo = rows.activeOf repo := by
  obtain ⟨row, found⟩ := Option.isSome_iff_exists.mp present
  obtain ⟨next, found', frame⟩ :=
    (view_framed (fun difference => max difference 0) rows changes).repo found
  have same : next = row := frame (fun ⟨change, mem, inside⟩ => untouched change mem inside)
  subst same
  have found'' : (store.view rows changes).repo? repo = some next := found'
  simp [Database.activeOf, found, found'']

/-- Every commit keeps the tables consistent, one lemma for each kind. -/
theorem Commit.consistent (commit : Commit config exact verb held database later)
    (framed : Framed (· ∈ held) database later) (holds : Consistent database)
    : Consistent later := by
  cases commit with
  | quiet => exact holds
  | settle settles => exact settles.consistent (fun repo => framed.repo_isSome) holds
  | claim claims => exact claims.consistent (fun repo => framed.repo_isSome) holds
  | admission admits => exact admits.consistent holds
  | ingest receives => exact receives.consistent holds
  | deliver outbox delivers => exact delivers.consistent holds
  | enqueue enqueues => exact enqueues.consistent holds

/-- The row found after a commit that keeps a table is the row found before. -/
theorem sameRow {Row : Type} {before after : Option Row} {row next : Row}
    (same : after = before) (found : before = some row) (found' : after = some next)
    : next = row :=
  Option.some.inj (found'.symm.trans (same.trans found))

theorem Commit.jobContinues (commit : Commit config exact verb held database later)
    {id : Id} {job next : Job} (found : database.job? id = some job)
    (found' : later.job? id = some next)
    : job.Continues next := by
  have kept (same : later.job? id = database.job? id) : job.Continues next :=
    sameRow same found found' ▸ Job.Continues.refl job
  cases commit with
  | quiet => exact kept rfl
  | settle settles => exact settles.jobContinues found found'
  | @claim _ _ _ _ _ _ _ leased _ claims =>
      by_cases own : id = leased.id
      · subst own
        obtain rfl := sameRow rfl claims.found found
        obtain rfl := sameRow rfl claims.leased found'
        exact ⟨rfl, fun terminal => by simp [claims.queued, JobStatus.terminal] at terminal⟩
      · exact kept (claims.otherJob own)
  | admission admits => exact kept ((admits.job? found).trans found.symm)
  | ingest receives => exact kept (by rw [receives.same]; rfl)
  | deliver outbox delivers => exact kept (by rw [delivers.same]; rfl)
  | enqueue enqueues => exact kept (by rw [enqueues.same]; rfl)

theorem Commit.attemptContinues (commit : Commit config exact verb held database later)
    {id : Id} {attempt next : Attempt} (found : database.attempt? id = some attempt)
    (found' : later.attempt? id = some next)
    : attempt.Continues next := by
  have kept (same : later.attempt? id = some attempt) : attempt.Continues next :=
    sameRow rfl same found' ▸ Attempt.Continues.refl attempt
  cases commit with
  | quiet => exact kept found
  | settle settles => exact settles.attemptContinues found found'
  | claim claims => exact kept (claims.attempt? found)
  | admission admits => exact kept ((admits.attempt? id).trans found)
  | ingest receives => exact kept (by rw [receives.same]; exact found)
  | deliver outbox delivers => exact kept (by rw [delivers.same]; exact found)
  | enqueue enqueues => exact kept (by rw [enqueues.same]; exact found)

theorem Commit.outboundContinues (commit : Commit config exact verb held database later)
    {id : Id} {row next : Outbound} (found : database.outbound? id = some row)
    (found' : later.outbound? id = some next)
    : row.Continues next := by
  have kept (same : later.outbound? id = some row) : row.Continues next :=
    sameRow rfl same found' ▸ Outbound.Continues.refl row
  cases commit with
  | quiet => exact kept found
  | settle settles => exact kept (settles.outbound? found)
  | claim claims => exact kept ((claims.outbound? id).trans found)
  | admission admits => exact kept ((admits.outbound? id).trans found)
  | ingest receives => exact kept (by rw [receives.same]; exact found)
  | @deliver _ _ _ _ sendRow _ outbox delivers =>
      have moved : later.outbound? id = some (sendRow row) := by
        rw [delivers.same]
        refine (lookup_map fun row => (congrArg Outbound.id (delivers.kept row)).trans rfl).trans ?_
        exact congrArg (Option.map sendRow) found
      obtain rfl := sameRow rfl moved found'
      have same := delivers.kept row
      exact ⟨(congrArg Outbound.id same).trans rfl, (congrArg Outbound.jobId same).trans rfl,
        (congrArg Outbound.transport same).trans rfl⟩
  | enqueue enqueues =>
      refine kept ?_
      rw [enqueues.same]
      exact lookup_append_of_some _ found

/-- A repository whose counter is not locked gets no live attempt. -/
theorem Commit.openNow (commit : Commit config exact verb held database later)
    (consistent : Consistent database) (free : Key.repo repo ∉ held)
    : later.openNow repo ≤ database.openNow repo := by
  cases commit with
  | quiet => exact Nat.le_refl _
  | settle settles => exact settles.openNow repo
  | claim claims =>
      rw [claims.openNow consistent, if_neg (fun own => free (claims.capped repo own).1)]
      exact Nat.le_refl _
  | admission admits => exact Nat.le_of_eq (admits.openNow consistent repo)
  | ingest receives => exact Nat.le_of_eq (by rw [receives.same]; rfl)
  | deliver outbox delivers => exact Nat.le_of_eq (by rw [delivers.same]; rfl)
  | enqueue enqueues => exact Nat.le_of_eq (by rw [enqueues.same]; rfl)

/-- A job that is not locked gets no attempt. -/
theorem Commit.attemptCount (commit : Commit config exact verb held database later) {job : Id}
    (free : Key.job job ∉ held)
    : later.attemptCount job = database.attemptCount job := by
  cases commit with
  | quiet => rfl
  | settle settles => exact settles.attemptCount job
  | @claim _ _ _ _ _ _ _ leased _ claims =>
      have other : leased.id ≠ job := fun same => free (same ▸ claims.lockedJob)
      simp [claims.attemptCount, other]
  | admission admits => exact admits.attemptCount job
  | ingest receives => rw [receives.same]; rfl
  | deliver outbox delivers => rw [delivers.same]; rfl
  | enqueue enqueues => rw [enqueues.same]; rfl

theorem Commit.openCount (commit : Commit config exact verb held database later) {job : Id}
    (free : Key.job job ∉ held)
    : later.openCount job ≤ database.openCount job := by
  cases commit with
  | quiet => exact Nat.le_refl _
  | settle settles => exact settles.openCount job
  | @claim _ _ _ _ _ _ _ leased _ claims =>
      have other : leased.id ≠ job := fun same => free (same ▸ claims.lockedJob)
      simp [claims.openCount, other]
  | admission admits => exact Nat.le_of_eq (admits.openCount job)
  | ingest receives => exact Nat.le_of_eq (by rw [receives.same]; rfl)
  | deliver outbox delivers => exact Nat.le_of_eq (by rw [delivers.same]; rfl)
  | enqueue enqueues => exact Nat.le_of_eq (by rw [enqueues.same]; rfl)

theorem Commit.childCount (commit : Commit config exact verb held database later)
    (consistent : Consistent database) {parent : Id} (free : Key.job parent ∉ held)
    : later.childCount parent ≤ database.childCount parent := by
  cases commit with
  | quiet => exact Nat.le_refl _
  | settle settles => exact settles.childCount parent
  | claim claims => exact Nat.le_of_eq (claims.childCount consistent parent)
  | admission admits => exact Nat.le_of_eq (admits.childCount free)
  | ingest receives => exact Nat.le_of_eq (by rw [receives.same]; rfl)
  | deliver outbox delivers => exact Nat.le_of_eq (by rw [delivers.same]; rfl)
  | enqueue enqueues => exact Nat.le_of_eq (by rw [enqueues.same]; rfl)

/-- A commit evolves the ledger within the keys its transaction held. -/
theorem Commit.evolves (commit : Commit config exact verb held database later)
    (framed : Framed (· ∈ held) database later) (consistent : Consistent database)
    : Evolves (· ∈ held) database later where
  toFramed := framed
  jobContinues := commit.jobContinues
  attemptContinues := commit.attemptContinues
  outboundContinues := commit.outboundContinues
  openNow := commit.openNow consistent
  attemptCount := commit.attemptCount
  openCount := commit.openCount
  childCount := commit.childCount consistent
  consistent := commit.consistent framed

end Ledger

import Myndaix.Ledger.Schema

/-! What commits can do to the ledger's rows, as seen from outside: rows never go away, the
columns that no verb rewrites stay, final rows stay final, and whatever a commit does to a row
or an index entry, it held that key.
-/

namespace Ledger

open Relational

/-- A later version of a job's row: only the status and the artifact change, and never once the
job is terminal.
-/
structure Job.Continues (before after : Job) : Prop where
  same : after = { before with status := after.status, artifactRef := after.artifactRef }
  final : before.status.terminal = true → after = before

/-- A later version of an attempt's row: once closed it never changes. -/
structure Attempt.Continues (before after : Attempt) : Prop where
  sameId : after.id = before.id
  sameJob : after.jobId = before.jobId
  final : before.status ≠ .open_ → after = before

/-- A later version of a reply's row. -/
structure Outbound.Continues (before after : Outbound) : Prop where
  sameId : after.id = before.id
  sameJob : after.jobId = before.jobId
  sameTransport : after.transport = before.transport

section Continues

variable {first second third : Job}

theorem Job.Continues.refl (job : Job) : job.Continues job :=
  ⟨rfl, fun _ => rfl⟩

theorem Job.Continues.trans (later : first.Continues second) (latest : second.Continues third)
    : first.Continues third := by
  refine ⟨?_, ?_⟩
  · rw [latest.same, later.same]
  · intro terminal
    have unchanged := later.final terminal
    rw [← unchanged] at terminal
    exact (latest.final terminal).trans unchanged

theorem Job.Continues.id (later : first.Continues second) : second.id = first.id :=
  (congrArg Job.id later.same).trans rfl

theorem Job.Continues.repoId (later : first.Continues second) : second.repoId = first.repoId :=
  (congrArg Job.repoId later.same).trans rfl

theorem Job.Continues.toAgent (later : first.Continues second)
    : second.toAgent = first.toAgent :=
  (congrArg Job.toAgent later.same).trans rfl

theorem Job.Continues.inboundEventId (later : first.Continues second)
    : second.inboundEventId = first.inboundEventId :=
  (congrArg Job.inboundEventId later.same).trans rfl

theorem Job.Continues.parentId (later : first.Continues second)
    : second.parentId = first.parentId :=
  (congrArg Job.parentId later.same).trans rfl

theorem Attempt.Continues.refl (attempt : Attempt) : attempt.Continues attempt :=
  ⟨rfl, rfl, fun _ => rfl⟩

theorem Attempt.Continues.trans {first second third : Attempt}
    (later : first.Continues second) (latest : second.Continues third)
    : first.Continues third := by
  refine ⟨latest.sameId.trans later.sameId, latest.sameJob.trans later.sameJob, ?_⟩
  intro closed
  have unchanged := later.final closed
  rw [← unchanged] at closed
  exact (latest.final closed).trans unchanged

/-- An attempt that is open was open in every earlier version. -/
theorem Attempt.Continues.wasOpen {before after : Attempt} (later : before.Continues after)
    (isOpen : after.status = .open_)
    : before.status = .open_ := by
  by_contra closed
  rw [later.final closed] at isOpen
  exact closed isOpen

theorem Outbound.Continues.refl (row : Outbound) : row.Continues row :=
  ⟨rfl, rfl, rfl⟩

theorem Outbound.Continues.trans {first second third : Outbound}
    (later : first.Continues second) (latest : second.Continues third)
    : first.Continues third :=
  ⟨latest.sameId.trans later.sameId, latest.sameJob.trans later.sameJob,
    latest.sameTransport.trans later.sameTransport⟩

end Continues

/-- What the ledger's tables promise at every commit.
* The identity columns, and the inbound event of a job, are unique; references resolve.
* A job has at most one open attempt; a leased or running job has one; an open attempt belongs
  to such a job or to a dead one.
* The repository of an open attempt has its counter row.
-/
structure Consistent (database : Database) : Prop where
  uniqueInbound : Unique InboundEvent.id database.inboundEvents
  uniqueJob : Unique Job.id database.jobs
  uniqueAttempt : Unique Attempt.id database.attempts
  uniqueRepo : Unique RepoConcurrency.repoId database.repoConcurrency
  uniqueOutbound : Unique Outbound.id database.outbound
  attemptJob : ∀ attempt ∈ database.attempts, (database.job? attempt.jobId).isSome
  jobInbound
    : ∀ job ∈ database.jobs, ∀ event,
        job.inboundEventId = some event → (database.inbound? event).isSome
  oneJob : ∀ event,
    database.jobs.countP (fun job => job.inboundEventId = some event) ≤ 1
  oneOpen : ∀ job, database.openCount job ≤ 1
  owned
    : ∀ job ∈ database.jobs, job.status.live = true → database.openCount job.id = 1
  owner
    : ∀ attempt ∈ database.attempts, ∀ job,
        attempt.status = .open_ → database.job? attempt.jobId = some job
        → job.status.live = true ∨ job.status = .dead
  counted
    : ∀ attempt ∈ database.attempts, ∀ job repo,
        attempt.status = .open_ → database.job? attempt.jobId = some job
        → job.repoId = some repo → (database.repo? repo).isSome

/-- Rows and index entries outside the touched keys are as they were, and no row is gone. -/
structure Framed (touched : Key → Prop) (database later : Database) : Prop where
  inbound : ∀ {id row}, database.inbound? id = some row → later.inbound? id = some row
  job
    : ∀ {id job},
        database.job? id = some job
        → ∃ next, later.job? id = some next ∧ (¬touched (.job id) → next = job)
  attempt
    : ∀ {id attempt},
        database.attempt? id = some attempt
        → ∃ next, later.attempt? id = some next ∧ (¬touched (.attempt id) → next = attempt)
  repo
    : ∀ {repo row},
        database.repo? repo = some row
        → ∃ next, later.repo? repo = some next ∧ (¬touched (.repo repo) → next = row)
  outbound
    : ∀ {id row},
        database.outbound? id = some row
        → ∃ next, later.outbound? id = some next ∧ (¬touched (.outbound id) → next = row)
  absent : ∀ {key}, ¬touched key → key.present database = false → key.present later = false

/-- The later database is reached by commits that touched these keys only. -/
structure Evolves (touched : Key → Prop) (database later : Database) : Prop
    extends Framed touched database later where
  jobContinues
    : ∀ {id job next},
        database.job? id = some job → later.job? id = some next → job.Continues next
  attemptContinues
    : ∀ {id attempt next},
        database.attempt? id = some attempt → later.attempt? id = some next
        → attempt.Continues next
  outboundContinues
    : ∀ {id row next},
        database.outbound? id = some row → later.outbound? id = some next → row.Continues next
  openNow : ∀ {repo}, ¬touched (.repo repo) → later.openNow repo ≤ database.openNow repo
  attemptCount
    : ∀ {job}, ¬touched (.job job) → later.attemptCount job = database.attemptCount job
  openCount : ∀ {job}, ¬touched (.job job) → later.openCount job ≤ database.openCount job
  childCount
    : ∀ {parent}, ¬touched (.job parent) → later.childCount parent ≤ database.childCount parent
  consistent : Consistent database → Consistent later

section Frames

variable {touched wider : Key → Prop} {first second third : Database}

theorem Framed.refl (touched : Key → Prop) (database : Database)
    : Framed touched database database where
  inbound found := found
  job found := ⟨_, found, fun _ => rfl⟩
  attempt found := ⟨_, found, fun _ => rfl⟩
  repo found := ⟨_, found, fun _ => rfl⟩
  outbound found := ⟨_, found, fun _ => rfl⟩
  absent _ gone := gone

theorem Framed.trans (earlier : Framed touched first second)
    (latest : Framed touched second third)
    : Framed touched first third where
  inbound found := latest.inbound (earlier.inbound found)
  job found := by
    obtain ⟨next, found, frame⟩ := earlier.job found
    obtain ⟨last, found', frame'⟩ := latest.job found
    exact ⟨last, found', fun free => (frame' free).trans (frame free)⟩
  attempt found := by
    obtain ⟨next, found, frame⟩ := earlier.attempt found
    obtain ⟨last, found', frame'⟩ := latest.attempt found
    exact ⟨last, found', fun free => (frame' free).trans (frame free)⟩
  repo found := by
    obtain ⟨next, found, frame⟩ := earlier.repo found
    obtain ⟨last, found', frame'⟩ := latest.repo found
    exact ⟨last, found', fun free => (frame' free).trans (frame free)⟩
  outbound found := by
    obtain ⟨next, found, frame⟩ := earlier.outbound found
    obtain ⟨last, found', frame'⟩ := latest.outbound found
    exact ⟨last, found', fun free => (frame' free).trans (frame free)⟩
  absent free gone := latest.absent free (earlier.absent free gone)

/-- Touching fewer keys is the stronger statement. -/
theorem Framed.mono (framed : Framed touched first second)
    (within : ∀ key, touched key → wider key)
    : Framed wider first second where
  inbound := framed.inbound
  job found := by
    obtain ⟨next, found, frame⟩ := framed.job found
    exact ⟨next, found, fun free => frame (fun held => free (within _ held))⟩
  attempt found := by
    obtain ⟨next, found, frame⟩ := framed.attempt found
    exact ⟨next, found, fun free => frame (fun held => free (within _ held))⟩
  repo found := by
    obtain ⟨next, found, frame⟩ := framed.repo found
    exact ⟨next, found, fun free => frame (fun held => free (within _ held))⟩
  outbound found := by
    obtain ⟨next, found, frame⟩ := framed.outbound found
    exact ⟨next, found, fun free => frame (fun held => free (within _ held))⟩
  absent free := framed.absent (fun held => free (within _ held))

theorem Evolves.refl (touched : Key → Prop) (database : Database)
    : Evolves touched database database where
  toFramed := Framed.refl touched database
  jobContinues found found' := Option.some.inj (found.symm.trans found') ▸ Job.Continues.refl _
  attemptContinues found found' :=
    Option.some.inj (found.symm.trans found') ▸ Attempt.Continues.refl _
  outboundContinues found found' :=
    Option.some.inj (found.symm.trans found') ▸ Outbound.Continues.refl _
  openNow _ := Nat.le_refl _
  attemptCount _ := rfl
  openCount _ := Nat.le_refl _
  childCount _ := Nat.le_refl _
  consistent holds := holds

theorem Evolves.trans (earlier : Evolves touched first second)
    (latest : Evolves touched second third)
    : Evolves touched first third where
  toFramed := earlier.toFramed.trans latest.toFramed
  jobContinues found found' := by
    obtain ⟨next, between, _⟩ := earlier.job found
    exact (earlier.jobContinues found between).trans (latest.jobContinues between found')
  attemptContinues found found' := by
    obtain ⟨next, between, _⟩ := earlier.attempt found
    exact (earlier.attemptContinues found between).trans (latest.attemptContinues between found')
  outboundContinues found found' := by
    obtain ⟨next, between, _⟩ := earlier.outbound found
    exact (earlier.outboundContinues found between).trans
      (latest.outboundContinues between found')
  openNow free := Nat.le_trans (latest.openNow free) (earlier.openNow free)
  attemptCount free := (latest.attemptCount free).trans (earlier.attemptCount free)
  openCount free := Nat.le_trans (latest.openCount free) (earlier.openCount free)
  childCount free := Nat.le_trans (latest.childCount free) (earlier.childCount free)
  consistent holds := latest.consistent (earlier.consistent holds)

theorem Evolves.mono (evolves : Evolves touched first second)
    (within : ∀ key, touched key → wider key)
    : Evolves wider first second where
  toFramed := evolves.toFramed.mono within
  jobContinues := evolves.jobContinues
  attemptContinues := evolves.attemptContinues
  outboundContinues := evolves.outboundContinues
  openNow free := evolves.openNow (fun held => free (within _ held))
  attemptCount free := evolves.attemptCount (fun held => free (within _ held))
  openCount free := evolves.openCount (fun held => free (within _ held))
  childCount free := evolves.childCount (fun held => free (within _ held))
  consistent := evolves.consistent

end Frames

end Ledger

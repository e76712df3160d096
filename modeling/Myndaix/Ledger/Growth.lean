import Myndaix.Ledger.Commits

/-! The commits that add rows: a claim's attempt, an admitted job, an inbound event, a reply.
They keep the tables consistent and change the counts only as the locks allow.
-/

namespace Ledger

open Relational Transactions

variable {id : Id}

section Opened

variable {database : Database}

/-- A queued job has no open attempt. -/
theorem Consistent.queued_idle (consistent : Consistent database) {job : Job}
    (found : database.job? job.id = some job) (queued : job.status = .queued)
    {attempt : Attempt} (mem : attempt ∈ database.attempts) (own : attempt.jobId = job.id)
    : attempt.status ≠ .open_ := by
  intro isOpen
  rcases consistent.owner attempt mem job isOpen (own ▸ found) with live | dead
  · simp [queued, JobStatus.live] at live
  · simp [queued] at dead

theorem Consistent.queued_openCount (consistent : Consistent database) {job : Job}
    (found : database.job? job.id = some job) (queued : job.status = .queued)
    : database.openCount job.id = 0 := by
  simp only [Database.openCount, List.countP_eq_zero, Bool.and_eq_true, decide_eq_true_eq]
  exact fun attempt mem ⟨own, isOpen⟩ =>
    consistent.queued_idle found queued mem own isOpen

/-- A job that does not exist has no attempts. -/
theorem Consistent.absent_attempt (consistent : Consistent database)
    (absent : database.job? id = none) {attempt : Attempt} (mem : attempt ∈ database.attempts)
    : attempt.jobId ≠ id := by
  rintro rfl
  have exists_ := consistent.attemptJob attempt mem
  simp [absent] at exists_

end Opened

namespace Claims

variable {config : Config} {exact : Prop} {held : List Key} {database later : Database}
  {job : Job} {attempt : Attempt}
  (claims : Claims config exact held database later job attempt)

include claims

theorem job? (id : Id)
    : later.job? id
      = (database.job? id).map
          (fun row => if row.id = job.id then { row with status := .leased } else row) := by
  rw [Database.job?, claims.jobs]
  exact lookup_map (fun row => by split <;> rfl)

theorem leased : later.job? job.id = some { job with status := .leased } := by
  simp [claims.job?, claims.found]

theorem otherJob (other : id ≠ job.id) : later.job? id = database.job? id := by
  rw [claims.job?]
  cases found : database.job? id with
  | none => rfl
  | some row =>
      have identity : row.id = id := lookup_key found
      simp [identity, other]

theorem attempt? {row : Attempt} (found : database.attempt? id = some row)
    : later.attempt? id = some row := by
  rw [Database.attempt?, claims.attempts]
  exact lookup_append_of_some [attempt] found

theorem inbound? (id : Id) : later.inbound? id = database.inbound? id := by
  rw [Database.inbound?, claims.inboundEvents]
  rfl

theorem outbound? (id : Id) : later.outbound? id = database.outbound? id := by
  rw [Database.outbound?, claims.outbound]
  rfl

/-- Which of the old attempts are live does not change. -/
theorem liveOn (consistent : Consistent database) {repo : String} {row : Attempt}
    (mem : row ∈ database.attempts)
    : later.liveOn repo row = database.liveOn repo row := by
  by_cases own : row.jobId = job.id
  · have closed := consistent.queued_idle claims.found claims.queued mem own
    simp [Database.liveOn, closed]
  · simp [Database.liveOn, claims.otherJob own]

/-- The claim adds one live attempt to its own repository and none to others. -/
theorem openNow (consistent : Consistent database) (repo : String)
    : later.openNow repo
      = database.openNow repo + if job.repoId = some repo then 1 else 0 := by
  have kept : database.attempts.countP (later.liveOn repo) = database.openNow repo :=
    List.countP_congr (fun row mem => by rw [claims.liveOn consistent mem])
  have added : later.liveOn repo attempt = decide (job.repoId = some repo) := by
    simp [Database.liveOn, claims.opened, claims.sameJob, claims.leased, JobStatus.live]
  rw [Database.openNow, claims.attempts, List.countP_append, kept]
  simp [List.countP_cons, added]

theorem attemptCount (id : Id)
    : later.attemptCount id = database.attemptCount id + if job.id = id then 1 else 0 := by
  simp [Database.attemptCount, claims.attempts, List.countP_append, List.countP_cons,
    claims.sameJob]

theorem openCount (id : Id)
    : later.openCount id = database.openCount id + if job.id = id then 1 else 0 := by
  simp [Database.openCount, claims.attempts, List.countP_append, List.countP_cons,
    claims.sameJob, claims.opened]

/-- The row that is leased is the job's. -/
theorem own (consistent : Consistent database) {row : Job} (mem : row ∈ database.jobs)
    (same : row.id = job.id)
    : row = job := by
  have found := lookup_of_mem consistent.uniqueJob mem
  rw [same] at found
  exact Option.some.inj (found.symm.trans claims.found)

theorem childCount (consistent : Consistent database) (parent : Id)
    : later.childCount parent = database.childCount parent := by
  rw [Database.childCount, claims.jobs]
  refine countP_map_eq (fun row mem => ?_)
  by_cases same : row.id = job.id
  · rw [claims.own consistent mem same]
    simp [claims.queued]
  · simp [same]

theorem consistent
    (repoKept : ∀ repo, (database.repo? repo).isSome = true → (later.repo? repo).isSome = true)
    (holds : Consistent database)
    : Consistent later where
  uniqueInbound := by
    rw [claims.inboundEvents]
    exact holds.uniqueInbound
  uniqueJob := by
    rw [claims.jobs]
    exact holds.uniqueJob.map (fun row => by split <;> rfl)
  uniqueAttempt := by
    rw [claims.attempts]
    exact holds.uniqueAttempt.append claims.fresh
  uniqueRepo := claims.uniqueRepo
  uniqueOutbound := by
    rw [claims.outbound]
    exact holds.uniqueOutbound
  attemptJob := by
    rw [claims.attempts]
    intro row mem
    rw [claims.job?, Option.isSome_map]
    rcases List.mem_append.mp mem with old | new
    · exact holds.attemptJob row old
    · rw [List.mem_singleton.mp new, claims.sameJob, claims.found]
      rfl
  jobInbound := by
    rw [claims.jobs]
    intro moved mem event from_
    obtain ⟨row, inside, rfl⟩ := List.mem_map.mp mem
    rw [claims.inbound?]
    refine holds.jobInbound row inside event ?_
    split at from_ <;> exact from_
  oneJob event := by
    rw [claims.jobs, countP_map_eq (fun row _ => by split <;> rfl)]
    exact holds.oneJob event
  oneOpen id := by
    rw [claims.openCount]
    by_cases own : job.id = id
    · subst own
      simp [holds.queued_openCount claims.found claims.queued]
    · simpa [own] using holds.oneOpen id
  owned := by
    rw [claims.jobs]
    intro moved mem live
    obtain ⟨row, inside, rfl⟩ := List.mem_map.mp mem
    rw [claims.openCount]
    by_cases same : row.id = job.id
    · simp [same, holds.queued_openCount claims.found claims.queued]
    · simp only [same, if_false] at live ⊢
      simpa [Ne.symm same] using holds.owned row inside live
  owner := by
    rw [claims.attempts]
    intro row mem moved isOpen found
    rcases List.mem_append.mp mem with old | new
    · have other : row.jobId ≠ job.id := fun own =>
        holds.queued_idle claims.found claims.queued old own isOpen
      rw [claims.otherJob other] at found
      exact holds.owner row old moved isOpen found
    · rw [List.mem_singleton.mp new, claims.sameJob, claims.leased] at found
      rw [← Option.some.inj found]
      exact Or.inl rfl
  counted := by
    rw [claims.attempts]
    intro row mem moved repo isOpen found own
    rcases List.mem_append.mp mem with old | new
    · have other : row.jobId ≠ job.id := fun own =>
        holds.queued_idle claims.found claims.queued old own isOpen
      rw [claims.otherJob other] at found
      exact repoKept repo (holds.counted row old moved repo isOpen found own)
    · rw [List.mem_singleton.mp new, claims.sameJob, claims.leased] at found
      rw [← Option.some.inj found] at own
      exact (claims.capped repo own).2.1

end Claims

namespace Admits

variable {held : List Key} {database later : Database} {job : Job} {letters : List DeadLetter}
  (admits : Admits held database later job letters)

include admits

theorem job? {row : Job} (found : database.job? id = some row)
    : later.job? id = some row := by
  rw [Database.job?, admits.jobs]
  exact lookup_append_of_some [job] found

theorem otherJob (other : id ≠ job.id) : later.job? id = database.job? id := by
  simp only [Database.job?, admits.jobs, lookup_append, if_neg (Ne.symm other), Option.or_none]

theorem added : later.job? job.id = some job := by
  have fresh := admits.fresh
  simp only [Database.job?] at fresh
  simp [Database.job?, admits.jobs, lookup_append, fresh]

theorem attempt? (id : Id) : later.attempt? id = database.attempt? id := by
  rw [Database.attempt?, admits.attempts]
  rfl

theorem inbound? (id : Id) : later.inbound? id = database.inbound? id := by
  rw [Database.inbound?, admits.inboundEvents]
  rfl

theorem repo? (repo : String) : later.repo? repo = database.repo? repo := by
  rw [Database.repo?, admits.repoConcurrency]
  rfl

theorem outbound? (id : Id) : later.outbound? id = database.outbound? id := by
  rw [Database.outbound?, admits.outbound]
  rfl

theorem notLive : job.status.live = false := by
  rcases admits.status with ⟨queued, _⟩ | ⟨dead, _⟩
  · simp [queued, JobStatus.live]
  · simp [dead, JobStatus.live]

theorem openNow (consistent : Consistent database) (repo : String)
    : later.openNow repo = database.openNow repo := by
  rw [Database.openNow, admits.attempts]
  refine List.countP_congr (fun row mem => ?_)
  have other := consistent.absent_attempt admits.fresh mem
  simp [Database.liveOn, admits.otherJob other]

theorem attemptCount (id : Id) : later.attemptCount id = database.attemptCount id := by
  rw [Database.attemptCount, admits.attempts]
  rfl

theorem openCount (id : Id) : later.openCount id = database.openCount id := by
  rw [Database.openCount, admits.attempts]
  rfl

/-- Only a parent that is locked can get a child. -/
theorem childCount {parent : Id} (free : Key.job parent ∉ held)
    : later.childCount parent = database.childCount parent := by
  have other : job.parentId ≠ some parent := fun own => free (admits.child parent own).1
  simp [Database.childCount, admits.jobs, List.countP_append, other]

theorem consistent (holds : Consistent database) : Consistent later where
  uniqueInbound := by
    rw [admits.inboundEvents]
    exact holds.uniqueInbound
  uniqueJob := by
    rw [admits.jobs]
    exact holds.uniqueJob.append admits.fresh
  uniqueAttempt := by
    rw [admits.attempts]
    exact holds.uniqueAttempt
  uniqueRepo := by
    rw [admits.repoConcurrency]
    exact holds.uniqueRepo
  uniqueOutbound := by
    rw [admits.outbound]
    exact holds.uniqueOutbound
  attemptJob := by
    rw [admits.attempts]
    intro row mem
    rw [admits.otherJob (holds.absent_attempt admits.fresh mem)]
    exact holds.attemptJob row mem
  jobInbound := by
    rw [admits.jobs]
    intro row mem event from_
    rw [admits.inbound?]
    rcases List.mem_append.mp mem with old | new
    · exact holds.jobInbound row old event from_
    · rw [List.mem_singleton.mp new] at from_
      exact (admits.inbound event from_).1
  oneJob event := by
    rw [admits.jobs, List.countP_append]
    by_cases from_ : job.inboundEventId = some event
    · have none_ : database.jobs.countP (fun row => row.inboundEventId = some event) = 0 := by
        simpa [List.countP_eq_zero] using (admits.inbound event from_).2
      simp [none_, from_]
    · simpa [List.countP_cons, from_] using holds.oneJob event
  oneOpen id := by
    rw [admits.openCount]
    exact holds.oneOpen id
  owned := by
    rw [admits.jobs]
    intro row mem live
    rw [admits.openCount]
    rcases List.mem_append.mp mem with old | new
    · exact holds.owned row old live
    · rw [List.mem_singleton.mp new, admits.notLive] at live
      cases live
  owner := by
    rw [admits.attempts]
    intro row mem moved isOpen found
    rw [admits.otherJob (holds.absent_attempt admits.fresh mem)] at found
    exact holds.owner row mem moved isOpen found
  counted := by
    rw [admits.attempts]
    intro row mem moved repo isOpen found own
    rw [admits.otherJob (holds.absent_attempt admits.fresh mem)] at found
    rw [admits.repo?]
    exact holds.counted row mem moved repo isOpen found own

end Admits

section OtherTables

variable {database later : Database}

/-- The outbox and the letters have no part in the other tables' promises. -/
theorem Consistent.withOutbound (holds : Consistent database) {rows : List Outbound}
    (unique : Unique Outbound.id rows) (letters : List DeadLetter)
    : Consistent { database with outbound := rows, deadLetters := letters } :=
  {
    holds with
    uniqueOutbound := unique
  }

theorem Receives.consistent {event : InboundEvent} (receives : Receives database later event)
    (holds : Consistent database)
    : Consistent later := by
  rw [receives.same]
  exact {
    holds with
    uniqueInbound := holds.uniqueInbound.append receives.fresh
    jobInbound := by
      intro job mem from_ same
      obtain ⟨row, found⟩ := Option.isSome_iff_exists.mp (holds.jobInbound job mem from_ same)
      exact Option.isSome_iff_exists.mpr ⟨row, lookup_append_of_some [event] found⟩
  }

theorem Delivers.consistent {verb : Verb} {sendRow : Outbound → Outbound}
    {letters : List DeadLetter}
    (delivers : Delivers verb database later sendRow letters) (holds : Consistent database)
    : Consistent later := by
  rw [delivers.same]
  exact holds.withOutbound
    (holds.uniqueOutbound.map (fun row => (congrArg Outbound.id (delivers.kept row)).trans rfl)) _

theorem Enqueues.consistent {row : Outbound} (enqueues : Enqueues database later row)
    (holds : Consistent database)
    : Consistent later := by
  rw [enqueues.same]
  exact holds.withOutbound (holds.uniqueOutbound.append enqueues.fresh) _

end OtherTables

end Ledger

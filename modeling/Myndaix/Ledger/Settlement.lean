import Myndaix.Ledger.Commits

/-! Settling keeps the tables consistent and changes the counts only as the locks allow.
-/

namespace Ledger

open Relational Transactions

namespace Settles

variable {config : Config} {exact : Prop} {verb : Verb} {database later : Database}
  {closeRow : Attempt → Attempt} {moveRow : Job → Job} {replies : List Outbound}
  {letters : List DeadLetter}
  (settles : Settles config exact verb database later closeRow moveRow replies letters)

include settles

theorem moveId (job : Job) : (moveRow job).id = job.id :=
  (congrArg Job.id (settles.moveKept job)).trans rfl

theorem moveRepo (job : Job) : (moveRow job).repoId = job.repoId :=
  (congrArg Job.repoId (settles.moveKept job)).trans rfl

theorem moveInbound (job : Job) : (moveRow job).inboundEventId = job.inboundEventId :=
  (congrArg Job.inboundEventId (settles.moveKept job)).trans rfl

theorem moveParent (job : Job) : (moveRow job).parentId = job.parentId :=
  (congrArg Job.parentId (settles.moveKept job)).trans rfl

theorem job? (id : Id) : later.job? id = (database.job? id).map moveRow := by
  rw [Database.job?, settles.jobs]
  exact lookup_map settles.moveId

theorem attempt? (id : Id) : later.attempt? id = (database.attempt? id).map closeRow := by
  rw [Database.attempt?, settles.attempts]
  exact lookup_map (fun attempt => (settles.closeKept attempt).1)

theorem outbound? {id : Id} {row : Outbound} (found : database.outbound? id = some row)
    : later.outbound? id = some row := by
  rw [Database.outbound?, settles.outbound]
  exact lookup_append_of_some replies found

theorem inbound? (id : Id) : later.inbound? id = database.inbound? id := by
  rw [Database.inbound?, settles.inboundEvents]
  rfl

/-- An attempt that is open afterwards was open before and is unchanged in its job. -/
theorem wasOpen {attempt : Attempt} (mem : attempt ∈ database.attempts)
    (isOpen : (closeRow attempt).status = .open_)
    : attempt.status = .open_ := by
  by_contra closed
  rw [settles.closes attempt mem closed] at isOpen
  exact closed isOpen

/-- A job that is live afterwards was not moved. -/
theorem unmoved {job : Job} (mem : job ∈ database.jobs)
    (live : (moveRow job).status.live = true)
    : moveRow job = job := by
  rcases settles.moves job mem with same | ⟨_, ended⟩
  · exact same
  · rw [ended] at live
    cases live

theorem jobContinues {id : Id} {job next : Job} (found : database.job? id = some job)
    (found' : later.job? id = some next)
    : job.Continues next := by
  obtain rfl : moveRow job = next := by
    simpa [settles.job?, found] using found'
  refine ⟨settles.moveKept job, fun terminal => ?_⟩
  rcases settles.moves job (lookup_mem found) with same | ⟨running, _⟩
  · exact same
  · rw [running] at terminal
    cases terminal

theorem attemptContinues {id : Id} {attempt next : Attempt}
    (found : database.attempt? id = some attempt) (found' : later.attempt? id = some next)
    : attempt.Continues next := by
  obtain rfl : closeRow attempt = next := by
    simpa [settles.attempt?, found] using found'
  exact ⟨(settles.closeKept attempt).1, (settles.closeKept attempt).2,
    settles.closes attempt (lookup_mem found)⟩

/-- What is live on a repository afterwards was so before. -/
theorem liveOn {repo : String} {attempt : Attempt} (mem : attempt ∈ database.attempts)
    (live : later.liveOn repo (closeRow attempt) = true)
    : database.liveOn repo attempt = true := by
  simp only [Database.liveOn, Bool.and_eq_true, decide_eq_true_eq, settles.job?,
    (settles.closeKept attempt).2, Option.any_map] at live ⊢
  refine ⟨settles.wasOpen mem live.1, ?_⟩
  obtain ⟨job, found, same, running⟩ := by simpa [Option.any_eq_true] using live.2
  have still := settles.unmoved (lookup_mem found) running
  rw [still] at running
  simp [found, ← settles.moveRepo job, same, running]

theorem openNow (repo : String) : later.openNow repo ≤ database.openNow repo := by
  rw [Database.openNow, settles.attempts]
  exact countP_map_le (fun attempt mem live => settles.liveOn mem live)

theorem attemptCount (job : Id) : later.attemptCount job = database.attemptCount job := by
  rw [Database.attemptCount, settles.attempts]
  exact countP_map_eq (fun attempt _ => by rw [(settles.closeKept attempt).2])

theorem openCount (job : Id) : later.openCount job ≤ database.openCount job := by
  rw [Database.openCount, settles.attempts]
  refine countP_map_le (fun attempt mem isOpen => ?_)
  simp only [Bool.and_eq_true, decide_eq_true_eq, (settles.closeKept attempt).2] at isOpen ⊢
  exact ⟨isOpen.1, settles.wasOpen mem isOpen.2⟩

theorem childCount (parent : Id) : later.childCount parent ≤ database.childCount parent := by
  rw [Database.childCount, settles.jobs]
  refine countP_map_le (fun job mem alive => ?_)
  simp only [Bool.and_eq_true, decide_eq_true_eq, settles.moveParent] at alive ⊢
  refine ⟨alive.1, fun dead => ?_⟩
  rcases settles.moves job mem with same | ⟨running, _⟩
  · rw [same] at alive
    exact alive.2 dead
  · simp [dead, JobStatus.terminal] at running

/-- The open attempts of a job that stays live stay open. -/
theorem openCount_live {job : Job} (unique : Unique Job.id database.jobs)
    (mem : job ∈ database.jobs) (live : (moveRow job).status.live = true)
    : later.openCount job.id = database.openCount job.id := by
  rw [Database.openCount, settles.attempts]
  refine countP_map_eq (fun attempt inside => ?_)
  rw [(settles.closeKept attempt).2]
  by_cases own : attempt.jobId = job.id
  · have found : database.job? attempt.jobId = some job := own ▸ lookup_of_mem unique mem
    by_cases isOpen : attempt.status = .open_
    · have still : (closeRow attempt).status = .open_ := by
        by_contra closed
        rw [settles.released attempt inside job found isOpen closed] at live
        cases live
      simp [isOpen, still]
    · rw [settles.closes attempt inside isOpen]
  · simp [own]

theorem consistent
    (repoKept : ∀ repo, (database.repo? repo).isSome = true → (later.repo? repo).isSome = true)
    (holds : Consistent database)
    : Consistent later where
  uniqueInbound := by
    rw [settles.inboundEvents]
    exact holds.uniqueInbound
  uniqueJob := by
    rw [settles.jobs]
    exact holds.uniqueJob.map settles.moveId
  uniqueAttempt := by
    rw [settles.attempts]
    exact holds.uniqueAttempt.map (fun attempt => (settles.closeKept attempt).1)
  uniqueRepo := settles.uniqueRepo
  uniqueOutbound := settles.uniqueOutbound
  attemptJob := by
    rw [settles.attempts]
    intro closed mem
    obtain ⟨attempt, inside, rfl⟩ := List.mem_map.mp mem
    rw [(settles.closeKept attempt).2, settles.job?, Option.isSome_map]
    exact holds.attemptJob attempt inside
  jobInbound := by
    rw [settles.jobs]
    intro moved mem event from_
    obtain ⟨job, inside, rfl⟩ := List.mem_map.mp mem
    rw [settles.moveInbound] at from_
    rw [settles.inbound?]
    exact holds.jobInbound job inside event from_
  oneJob event := by
    rw [settles.jobs, countP_map_eq (fun job _ => by rw [settles.moveInbound])]
    exact holds.oneJob event
  oneOpen job := Nat.le_trans (settles.openCount job) (holds.oneOpen job)
  owned := by
    rw [settles.jobs]
    intro moved mem live
    obtain ⟨job, inside, rfl⟩ := List.mem_map.mp mem
    rw [settles.moveId, settles.openCount_live holds.uniqueJob inside live]
    rw [settles.unmoved inside live] at live
    exact holds.owned job inside live
  owner := by
    rw [settles.attempts]
    intro closed mem moved isOpen found
    obtain ⟨attempt, inside, rfl⟩ := List.mem_map.mp mem
    rw [(settles.closeKept attempt).2, settles.job?] at found
    obtain ⟨job, here, rfl⟩ := Option.map_eq_some_iff.mp found
    have wasOpen := settles.wasOpen inside isOpen
    rcases settles.settled attempt inside job here wasOpen isOpen with same | ⟨dead, _⟩
    · rw [same]
      exact holds.owner attempt inside job wasOpen here
    · exact Or.inr dead
  counted := by
    rw [settles.attempts]
    intro closed mem moved repo isOpen found own
    obtain ⟨attempt, inside, rfl⟩ := List.mem_map.mp mem
    rw [(settles.closeKept attempt).2, settles.job?] at found
    obtain ⟨job, here, rfl⟩ := Option.map_eq_some_iff.mp found
    rw [settles.moveRepo] at own
    exact repoKept repo
      (holds.counted attempt inside job repo (settles.wasOpen inside isOpen) here own)

end Settles

end Ledger

import Myndaix.Ledger.Ownership

/-! Retries: a job that may not run twice is attempted once, every other job at most
`maxAttempts` times. Requeueing is decided in two places, and both count the attempts that the
job has had so far.
-/

namespace Ledger

open Interaction Relational Transactions

/-- How many attempts a job in this status may have had: one more may follow while it is queued.
-/
def WithinRetries (safe : Bool) (status : JobStatus) (attempts : Nat) : Prop :=
  if status = .queued then attempts = 0 ∨ (safe = true ∧ attempts < maxAttempts)
  else attempts ≤ 1 ∨ (safe = true ∧ attempts ≤ maxAttempts)

/-- A job that leaves the queue keeps its count within the bound. -/
theorem WithinRetries.left {safe : Bool} {status next : JobStatus} {attempts : Nat}
    (within : WithinRetries safe status attempts) (left : next ≠ .queued)
    : WithinRetries safe next attempts := by
  unfold WithinRetries at within ⊢
  rw [if_neg left]
  split at within
  · rcases within with none_ | ⟨safe, below⟩
    · exact Or.inl (by omega)
    · exact Or.inr ⟨safe, Nat.le_of_lt below⟩
  · exact within

/-- One more attempt is within the bound of a job that was queued. -/
theorem WithinRetries.leased {safe : Bool} {attempts : Nat}
    (within : WithinRetries safe .queued attempts)
    : WithinRetries safe .leased (attempts + 1) := by
  unfold WithinRetries at within ⊢
  rw [if_pos rfl] at within
  rw [if_neg (by simp)]
  rcases within with none_ | ⟨safe, below⟩
  · exact Or.inl (by omega)
  · exact Or.inr ⟨safe, below⟩

/-- Every job is within its retries. -/
def Bounded (config : Config) (database : Database) : Prop :=
  ∀ job ∈ database.jobs,
    WithinRetries (config.requeueSafe job.toAgent) job.status (database.attemptCount job.id)

section Commits

variable {config : Config} {exact : Prop} {verb : Verb} {held : List Key}
  {database later : Database}

/-- Requeueing is the only way back, and it asks for fewer than `maxAttempts` attempts. -/
theorem Settles.keepsBounded {closeRow : Attempt → Attempt} {moveRow : Job → Job}
    {replies : List Outbound} {letters : List DeadLetter}
    (settles : Settles config exact verb database later closeRow moveRow replies letters)
    (before : Bounded config database)
    : Bounded config later := by
  intro moved mem
  rw [settles.jobs] at mem
  obtain ⟨job, inside, rfl⟩ := List.mem_map.mp mem
  have sameAgent : (moveRow job).toAgent = job.toAgent :=
    (congrArg Job.toAgent (settles.moveKept job)).trans rfl
  rw [settles.attemptCount, settles.moveId, sameAgent]
  by_cases queued : (moveRow job).status = .queued
  · rcases settles.requeued job inside queued with same | ⟨safe, below⟩
    · rw [same]
      exact before job inside
    · rw [queued]
      exact Or.inr ⟨safe, below⟩
  · exact (before job inside).left queued

/-- Leasing adds one attempt to a job that was queued. -/
theorem Claims.keepsBounded {job : Job} {attempt : Attempt}
    (claims : Claims config exact held database later job attempt)
    (consistent : Consistent database) (before : Bounded config database)
    : Bounded config later := by
  intro moved mem
  rw [claims.jobs] at mem
  obtain ⟨row, inside, rfl⟩ := List.mem_map.mp mem
  rw [claims.attemptCount]
  by_cases same : row.id = job.id
  · have own := claims.own consistent inside same
    subst own
    have within := before row inside
    rw [claims.queued] at within
    simpa using within.leased
  · simpa [same, Ne.symm same] using before row inside

/-- A new job has no attempt yet. -/
theorem Admits.keepsBounded {job : Job} {letters : List DeadLetter}
    (admits : Admits held database later job letters) (consistent : Consistent database)
    (before : Bounded config database)
    : Bounded config later := by
  intro row mem
  rw [admits.jobs] at mem
  rw [admits.attemptCount]
  rcases List.mem_append.mp mem with old | new
  · exact before row old
  · rw [List.mem_singleton.mp new]
    have none_ : database.attemptCount job.id = 0 := by
      simp only [Database.attemptCount, List.countP_eq_zero, decide_eq_true_eq]
      exact fun attempt inside => consistent.absent_attempt admits.fresh inside
    rw [none_]
    unfold WithinRetries
    split
    · exact Or.inl rfl
    · exact Or.inl (Nat.zero_le 1)

theorem Commit.keepsBounded (commit : Commit config exact verb held database later)
    (consistent : Consistent database) (before : Bounded config database)
    : Bounded config later := by
  cases commit with
  | quiet => exact before
  | settle settles => exact settles.keepsBounded before
  | claim claims => exact claims.keepsBounded consistent before
  | admission admits => exact admits.keepsBounded consistent before
  | ingest receives => rw [receives.same]; exact before
  | deliver outbox delivers => rw [delivers.same]; exact before
  | enqueue enqueues => rw [enqueues.same]; exact before

end Commits

variable {Client : Type} [DecidableEq Client] {config : Config} {system : LedgerSystem Client}

/-- In every state of the ledger a job whose agent may not run twice has at most one attempt,
and any other job at most `maxAttempts`.
-/
theorem attemptCount_bounded (reachable : LedgerReachable config system)
    : ∀ job ∈ system.committed.jobs,
        system.committed.attemptCount job.id
          ≤ if config.requeueSafe job.toAgent = true then maxAttempts else 1 := by
  intro job mem
  have bounded : Bounded config system.committed :=
    ledger_preserves (Bounded config) (by simp [Bounded, Database.empty])
      (fun holds _ commit before => commit.keepsBounded holds before) reachable
  have within : system.committed.attemptCount job.id ≤ 1
      ∨ (config.requeueSafe job.toAgent = true
        ∧ system.committed.attemptCount job.id ≤ maxAttempts) := by
    have left
        : WithinRetries (config.requeueSafe job.toAgent) .done
            (system.committed.attemptCount job.id) :=
      (bounded job mem).left (by simp)
    simpa [WithinRetries] using left
  rcases within with one | ⟨safe, bounded⟩
  · split
    · exact Nat.le_trans one (by decide)
    · exact one
  · rw [if_pos safe]
    exact bounded

/-- A job whose agent is retried until it is poison. -/
def samplePoisoned : List Verb :=
  sampleRequest
    ++ [
      Verb.leaseJob "worker" [] 3 20,
      .failAttempt 3 ⟨.error, "", some .retryable, none⟩ 30,
      .leaseJob "worker" [] 4 40,
      .reclaimExpired 200 200,
      .leaseJob "worker" [] 5 210,
      .failAttempt 5 ⟨.error, "", some .retryable, none⟩ 220
    ]

/-- It has had three attempts and is dead. -/
theorem attemptCount_bounded_sample
    : (sampleState samplePoisoned).jobs.all
          (fun job => job.status = .dead
            && (sampleState samplePoisoned).attemptCount job.id = 3)
        = true
      ∧ ∀ job ∈ (sampleState samplePoisoned).jobs,
          (sampleState samplePoisoned).attemptCount job.id
            ≤ if Config.sample.requeueSafe job.toAgent = true then maxAttempts else 1 :=
  ⟨by decide, attemptCount_bounded (sample_reachable samplePoisoned)⟩

end Ledger

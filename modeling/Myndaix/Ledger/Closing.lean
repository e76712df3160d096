import Myndaix.Ledger.StatementRules

/-! Closing attempts: what a commit that closes a list of open attempts has to show to be one of
the ledger's settling commits.
-/

namespace Ledger

open Interaction Relational Transactions

variable {rows : Database} {closeRow : Attempt → Attempt} {moveRow : Job → Job}
  {ids : List Id}

/-- `closeRow` closes exactly these attempts, all of them open. -/
structure Closing (rows : Database) (closeRow : Attempt → Attempt) (ids : List Id) : Prop where
  nodup : ids.Nodup
  each : ∀ id ∈ ids, OpenIn rows id
  kept
    : ∀ attempt, (closeRow attempt).id = attempt.id ∧ (closeRow attempt).jobId = attempt.jobId
  hit : ∀ attempt, attempt.id ∈ ids → (closeRow attempt).status ≠ .open_
  miss : ∀ attempt ∈ rows.attempts, attempt.id ∉ ids → (closeRow attempt).status = attempt.status
  missClosed
    : ∀ attempt ∈ rows.attempts, attempt.id ∉ ids → attempt.status ≠ .open_
        → closeRow attempt = attempt

/-- The repository of an attempt's job. -/
def repoOfAttempt (rows : Database) (id : Id) : Option String :=
  (rows.attempt? id).bind (fun attempt => (rows.job? attempt.jobId).bind Job.repoId)

/-- Two open attempts of one job are the same attempt. -/
theorem Consistent.sameOpen (holds : Consistent rows) {first second : Attempt}
    (mem : first ∈ rows.attempts) (member' : second ∈ rows.attempts)
    (isOpen : first.status = .open_) (isOpen' : second.status = .open_)
    (sameJob : first.jobId = second.jobId)
    : first = second :=
  eq_of_countP_le_one (holds.oneOpen second.jobId) mem member' (by simp [isOpen, sameJob])
    (by simp [isOpen'])

variable {attempt : Attempt}

namespace Closing

variable (closing : Closing rows closeRow ids) (holds : Consistent rows)

include closing holds

/-- An attempt of the list is the open row that was found for it. -/
theorem isOpen (mem : attempt ∈ rows.attempts) (listed : attempt.id ∈ ids)
    : attempt.status = .open_ := by
  obtain ⟨row, found, isOpen⟩ := closing.each attempt.id listed
  have own := lookup_of_mem holds.uniqueAttempt mem
  rwa [Option.some.inj (own.symm.trans found)]

theorem closes (mem : attempt ∈ rows.attempts) (closed : attempt.status ≠ .open_)
    : closeRow attempt = attempt :=
  closing.missClosed attempt mem (fun listed => closed (closing.isOpen holds mem listed))
    closed

/-- What closes is what is listed. -/
theorem listed_iff (mem : attempt ∈ rows.attempts)
    : attempt.id ∈ ids ↔ attempt.status = .open_ ∧ (closeRow attempt).status ≠ .open_ := by
  constructor
  · exact fun listed => ⟨closing.isOpen holds mem listed, closing.hit attempt listed⟩
  · rintro ⟨isOpen, closed⟩
    by_contra unlisted
    exact closed ((closing.miss attempt mem unlisted).trans isOpen)

/-- The slots a closing frees, counted over its list. -/
theorem freed (repo : String)
    : freed rows closeRow repo
      = ids.countP (fun id => repoOfAttempt rows id = some repo) := by
  rw [← countP_ids holds.uniqueAttempt closing.nodup]
  · refine List.countP_congr (fun attempt mem => ?_)
    have own : rows.attempt? attempt.id = some attempt := lookup_of_mem holds.uniqueAttempt mem
    have listed := closing.listed_iff holds mem
    simp only [Bool.and_eq_true, decide_eq_true_eq, repoOfAttempt, own,
      Option.bind_some, listed, and_assoc, decide_not, Bool.not_eq_true']
    simp only
      [Option.any_eq_true, decide_eq_true_eq, Option.bind_eq_some_iff, decide_eq_false_iff_not]
  · intro id listed
    obtain ⟨row, found, _⟩ := closing.each id listed
    exact Option.isSome_iff_exists.mpr ⟨row, found⟩

/-- A job whose open attempt stays open was moved only by a cancel that did not see it. -/
theorem settled {exact : Prop}
    (moved
      : ∀ job ∈ rows.jobs,
          moveRow job = job
          ∨ (∃ id ∈ ids, ∃ attempt,
              rows.attempt? id = some attempt ∧ attempt.jobId = job.id)
          ∨ ((moveRow job).status = .dead ∧ (exact → rows.openCount job.id = 0)))
    (mem : attempt ∈ rows.attempts) {job : Job} (found : rows.job? attempt.jobId = some job)
    (isOpen : attempt.status = .open_) (stays : (closeRow attempt).status = .open_)
    : moveRow job = job ∨ ((moveRow job).status = .dead ∧ ¬exact) := by
  have identity : job.id = attempt.jobId := lookup_key found
  rcases moved job (lookup_mem found) with same | ⟨id, listed, other, found', own⟩ | ⟨dead, unseen⟩
  · exact Or.inl same
  · have inside := lookup_mem found'
    have sameId : other.id = id := lookup_key found'
    have isOpen' := closing.isOpen holds inside (sameId ▸ listed)
    have same := holds.sameOpen inside mem isOpen' isOpen (own.trans identity)
    subst same
    exact absurd stays (closing.hit other (sameId ▸ listed))
  · refine Or.inr ⟨dead, fun alone => ?_⟩
    have none_ := unseen alone
    simp only [Database.openCount, List.countP_eq_zero] at none_
    exact none_ attempt mem (by simp [identity, isOpen])

end Closing

/-- The rows and letters that a single job's transition adds. -/
structure OwnRows (verb : Verb) (job moved : Job) (replies : List Outbound)
    (letters : List DeadLetter)
    : Prop where
  replied
    : replies.countP (fun row => row.jobId = job.id)
        = if job.status ≠ .done ∧ moved.status = .done ∧ job.inboundEventId.isSome = true
          then 1 else 0
  replyRows
    : ∀ row ∈ replies,
        verb.completes = true ∧ row.jobId = job.id ∧ row.status = .pending
        ∧ row.providerMsgId = none
  buried
    : verb.buries = true
      → job.status.live = true
      → letters.countP (fun letter => letter.sourceId = job.id)
          = if moved.status = .dead then 1 else 0
  letterRows
    : ∀ letter ∈ letters,
        verb.buries = true ∧ letter.sourceId = job.id
        ∧ (job.status.live = true ∨ verb.fails = true)

/-- Nothing is added where nothing is owed. -/
theorem OwnRows.none {verb : Verb} {job moved : Job} (unburied : verb.buries = false)
    (unfinished : moved.status = .done → job.status = .done)
    : OwnRows verb job moved [] [] where
  replied := by
    rw [if_neg (fun finished => finished.1 (unfinished finished.2.1))]
    rfl
  replyRows := by simp
  buried := by simp [unburied]
  letterRows := by simp

/-- A commit that closes one open attempt, gives its slot back and moves its job alone. -/
theorem settles_single {config : Config} {exact : Prop} {verb : Verb} {later : Database} {job : Job}
    {replies : List Outbound} {letters : List DeadLetter} (holds : Consistent rows)
    (found : rows.attempt? attempt.id = some attempt)
    (foundJob : rows.job? attempt.jobId = some job) (closing : Closing rows closeRow [attempt.id])
    (moveKept
      : ∀ row,
          moveRow row
            = {
                row with
                status := (moveRow row).status,
                artifactRef := (moveRow row).artifactRef
              })
    (others : ∀ row, row.id ≠ job.id → moveRow row = row)
    (ended : (moveRow job).status.live = false)
    (legal : moveRow job = job ∨ job.status.terminal = false)
    (requeued
      : (moveRow job).status = .queued
        → moveRow job = job
          ∨ (config.requeueSafe job.toAgent = true ∧ rows.attemptCount job.id < maxAttempts))
    (own : OwnRows verb job (moveRow job) replies letters)
    (uniqueOutbound : Unique Outbound.id (rows.outbound ++ replies))
    (plain
      : ∀ rows later closeRow,
          (∀ repo,
            later.activeOf repo
              = if freed rows closeRow repo = 0 then rows.activeOf repo
                else max (rows.activeOf repo - freed rows closeRow repo) 0)
          → Accounted exact verb rows later closeRow)
    (same
      : later
          = {
              rows with
              attempts := rows.attempts.map closeRow,
              jobs := rows.jobs.map moveRow,
              repoConcurrency :=
                decremented (fun _ => 1) job.repoId.toList rows.repoConcurrency,
              outbound := rows.outbound ++ replies,
              deadLetters := rows.deadLetters ++ letters
            })
    : Settles config exact verb rows later closeRow moveRow replies letters := by
  have identity : job.id = attempt.jobId := lookup_key foundJob
  have mem : attempt ∈ rows.attempts := lookup_mem found
  have isOpen : attempt.status = .open_ :=
    closing.isOpen holds mem (List.mem_singleton_self attempt.id)
  have isJob {row : Job} (inside : row ∈ rows.jobs) (sameId : row.id = job.id) : row = job := by
    have here := lookup_of_mem holds.uniqueJob inside
    rw [sameId, identity] at here
    exact Option.some.inj (here.symm.trans foundJob)
  have freedHere (repo : String)
      : freed rows closeRow repo = if job.repoId = some repo then 1 else 0 := by
    rw [closing.freed holds]
    simp [repoOfAttempt, found, foundJob, List.countP_cons]
  have active (repo : String)
      : later.activeOf repo
        = if repo ∈ job.repoId.toList then max (rows.activeOf repo - 1) 0
          else rows.activeOf repo := by
    rw [same]
    refine activeOf_decremented rows (fun _ => 1) (by cases job.repoId <;> simp)
      (fun repo listed => ?_) repo
    have own : job.repoId = some repo := by simpa using listed
    exact holds.counted attempt mem job repo isOpen foundJob own
  subst same
  exact {
    inboundEvents := rfl
    attempts := rfl
    jobs := rfl
    outbound := rfl
    deadLetters := rfl
    uniqueRepo := decremented_unique holds.uniqueRepo
    uniqueOutbound := uniqueOutbound
    closeKept := closing.kept
    moveKept := moveKept
    closes := fun attempt inside closed => closing.closes holds inside closed
    moves := by
      intro row inside
      by_cases sameId : row.id = job.id
      · rw [isJob inside sameId]
        exact legal.imp_right (fun running => ⟨running, ended⟩)
      · exact Or.inl (others row sameId)
    settled := by
      intro other inside row foundRow isOpen' stays
      refine closing.settled holds (fun row inside => ?_) inside foundRow isOpen' stays
      by_cases sameId : row.id = job.id
      · exact Or.inr (Or.inl ⟨attempt.id, List.mem_singleton_self _, attempt, found,
          identity.symm.trans sameId.symm⟩)
      · exact Or.inl (others row sameId)
    released := by
      intro other inside row foundRow isOpen' closed
      have listed := (closing.listed_iff holds inside).mpr ⟨isOpen', closed⟩
      have own := lookup_of_mem holds.uniqueAttempt inside
      rw [List.mem_singleton.mp listed] at own
      obtain rfl := Option.some.inj (own.symm.trans found)
      obtain rfl := Option.some.inj (foundRow.symm.trans foundJob)
      exact ended
    requeued := by
      intro row inside queued
      by_cases sameId : row.id = job.id
      · obtain rfl := isJob inside sameId
        exact requeued queued
      · exact Or.inl (others row sameId)
    replied := by
      intro row inside
      by_cases sameId : row.id = job.id
      · obtain rfl := isJob inside sameId
        exact own.replied
      · have none_ : replies.countP (fun reply => reply.jobId = row.id) = 0 := by
          simp only [List.countP_eq_zero, decide_eq_true_eq]
          exact fun reply listed toRow => sameId (toRow.symm.trans (own.replyRows reply listed).2.1)
        rw [none_, others row sameId, if_neg (fun finished => finished.1 finished.2.1)]
    replyRows := by
      intro reply listed
      obtain ⟨completes, toJob, pending, unsent⟩ := own.replyRows reply listed
      refine ⟨completes, ?_, pending, unsent⟩
      rw [toJob, identity, foundJob]
      rfl
    buried := by
      intro buries row inside live
      by_cases sameId : row.id = job.id
      · obtain rfl := isJob inside sameId
        exact own.buried buries live
      · have none_ : letters.countP (fun letter => letter.sourceId = row.id) = 0 := by
          simp only [List.countP_eq_zero, decide_eq_true_eq]
          exact fun letter listed of =>
            sameId (of.symm.trans (own.letterRows letter listed).2.1)
        rw [none_, others row sameId, if_neg]
        intro dead
        simp [dead, JobStatus.live] at live
    letterRows := by
      intro letter listed
      obtain ⟨buries, ofJob, how⟩ := own.letterRows letter listed
      exact ⟨buries, job, lookup_mem foundJob, ofJob.symm, how⟩
    accounted := by
      refine plain _ _ _ (fun repo => ?_)
      rw [active, freedHere]
      by_cases own : job.repoId = some repo
      · simp [own]
      · simp [own]
  }

end Ledger

import Myndaix.Ledger.Leasing

/-! The janitor: reclaiming expired leases, healing orphans, and bringing the soft counters back
to the truth.
-/

namespace Ledger

open Interaction Transactions

/-- `attempt a JOIN job j ON j.id = a.job_id`. -/
def joined (rows : Database) : List (Attempt × Job) :=
  rows.attempts.filterMap
    (fun attempt => (rows.job? attempt.jobId).map (fun job => (attempt, job)))

/-- The attempt is still open in these rows. -/
def stillOpen (rows : Database) (attempt : Attempt) : Bool :=
  (rows.attempt? attempt.id).any (fun row => row.status = .open_)

/-- An open attempt whose job is neither leased nor running; `job` is only joined. -/
def orphaned (latest : Database) (row : Attempt × Job) : Bool :=
  stillOpen latest row.1 && !row.2.status.live

/-- Lock the orphans that nobody else has locked, in the order given, and close them. -/
def closeOrphans (order : List (Attempt × Job) → List (Attempt × Job)) (now : Time)
    : Txn (List (Attempt × Job)) := do
  let snapshot ← look
  let orphans ← selectForUpdate (fun row => [.attempt row.1.id]) orphaned
    (joined snapshot).length (order ((joined snapshot).filter (orphaned snapshot)))
  write (.closeAttempts (orphans.map (fun row => row.1.id)) .failed now none (some .terminal))
  pure orphans

/-- An open attempt of a live job whose lease is over. -/
def expired (now : Time) (latest : Database) (row : Attempt × Job) : Bool :=
  (latest.attempt? row.1.id).any
    (fun attempt => attempt.status = .open_ && attempt.leaseExpiresAt ≤ now)
  && (latest.job? row.2.id).any (fun job => job.status.live)

/-- Lock up to a batch of expired attempts with their jobs, and close them. -/
def closeExpired (config : Config) (now : Time) : Txn (List (Attempt × Job)) := do
  let snapshot ← look
  let batch ← selectForUpdate (fun row => [.attempt row.1.id, .job row.2.id]) (expired now)
    reclaimBatch (config.scan ((joined snapshot).filter (expired now snapshot)))
  write (.closeAttempts (batch.map (fun row => row.1.id)) .failed now none (some .retryable))
  pure batch

/-- The repositories of these rows, one entry for each attempt. -/
def reposOf (rows : List (Attempt × Job)) : List String :=
  rows.filterMap (fun row => row.2.repoId)

/-- What reclaiming decides about one job of the batch: nothing to say to requeue it, or the
reason for which it dies.
-/
def reclaimReason (config : Config) (toAgent : String) (attempts : Nat) : Option String :=
  if config.requeueSafe toAgent = false then
    some "lease expired; agent not auto-retried (non-requeue-safe)"
  else if maxAttempts ≤ attempts then
    some (s!"poison: {attempts} attempts reached MAX_ATTEMPTS "
      ++ s!"({maxAttempts}) after lease expiry")
  else none

/-- The jobs of a batch, split into those to requeue and those to bury with their reasons. -/
structure Fates where
  requeue : List Id
  dead : List DeadLetter
deriving DecidableEq, Repr

/-- Decide the batch job by job, counting each job's attempts. -/
def decideFates (config : Config) : List (Attempt × Job) → Txn Fates :=
  Program.fold
    (fun fates row => do
      let rows ← look
      match reclaimReason config row.2.toAgent (rows.attemptCount row.2.id) with
      | none => pure { fates with requeue := fates.requeue ++ [row.2.id] }
      | some reason => pure { fates with dead := fates.dead ++ [⟨row.2.id, reason⟩] })
    ⟨[], []⟩

/-- `UPDATE job SET status WHERE id = ANY(ids) AND status IN ('leased','running')`; the rows are
locked already.
-/
def moveLive (ids : List Id) (status : JobStatus) : Txn Unit := do
  let rows ← look
  write (.setJobs (ids.filter (fun id => (rows.job? id).any (fun job => job.status.live))) status)

/-- `GREATEST(active - n, 0)` for each repository that lost attempts, in sorted order. -/
def freeSlots (repos : List String) : Txn Unit :=
  Program.fold
    (fun _ repo => do
      let _ ← updateRepo repo (.decrement repo (repos.count repo))
      pure ())
    () (repos.dedup.insertionSort (· ≤ ·))

/-- Requeue the jobs that are to run again. -/
def requeueJobs (ids : List Id) : Txn Unit :=
  if ids ≠ [] then moveLive ids .queued else pure ()

/-- Bury the jobs that are not, each with its letter. -/
def buryJobs (letters : List DeadLetter) : Txn Unit :=
  if letters ≠ [] then do
    moveLive (letters.map DeadLetter.sourceId) .dead
    Program.fold (fun _ letter => write (.insertDeadLetter letter)) () letters
  else pure ()

/-- Heal orphans, then requeue or bury the jobs whose lease expired, then free all their slots
in one sorted pass. Answers how many leases were reclaimed.
-/
def reclaimExpired (config : Config) (healedAt now : Time) : Txn Nat := do
  let orphans ← closeOrphans config.scan healedAt
  let batch ← closeExpired config now
  let fates ← decideFates config batch
  requeueJobs fates.requeue
  buryJobs fates.dead
  freeSlots (reposOf orphans ++ reposOf batch)
  pure batch.length

/-- `SELECT ... ORDER BY repo_id FOR UPDATE` over all counters. -/
def lockRepos (config : Config) : Txn Unit := do
  let rows ← look
  Program.fold (fun _ repo => lock (.repo repo)) ()
    ((rows.repoConcurrency.map RepoConcurrency.repoId).insertionSort
      (fun first second => config.collation.le first second))

/-- The repositories that `GROUP BY j.repo_id` finds among live open attempts. -/
def liveRepos (rows : Database) : List String :=
  (reposOf ((joined rows).filter
    (fun row => row.1.status = .open_ && row.2.status.live))).dedup

/-- Write the true count of every repository with live attempts, adding rows that are missing.
-/
def upsertCounts (config : Config) : Txn Nat := do
  let rows ← look
  let repos := config.groups (liveRepos rows)
  Program.fold
    (fun _ repo => do
      let active : Int := rows.openNow repo
      if ← insert [.repo repo] (.insertRepo ⟨repo, active⟩) then pure ()
      else
        lock (.repo repo)
        write (.setActive repo active))
    () repos
  pure repos.length

/-- Zero every counter that has no live attempt left. -/
def zeroCounts (config : Config) : Txn Unit := do
  let rows ← look
  let stale := fun (latest : Database) (repo : String) =>
    (latest.repo? repo).any (fun row => row.active ≠ 0) && rows.openNow repo = 0
  Program.fold
    (fun _ repo => do
      let _ ← updateFrom rows (.repo repo) (fun latest => stale latest repo)
        (.setActive repo 0)
      pure ())
    ()
    (config.groups
      ((rows.repoConcurrency.map RepoConcurrency.repoId).filter (fun repo => stale rows repo)))

/-- Close orphans, lock every counter, and write the truth. Answers how many were upserted. -/
def reconcileRepoConcurrency (config : Config) (now : Time) : Txn Nat := do
  let _ ← closeOrphans
    (fun rows => rows.insertionSort (fun first second => first.1.id ≤ second.1.id)) now
  lockRepos config
  let healed ← upsertCounts config
  zeroCounts config
  pure healed

end Ledger

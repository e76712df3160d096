import Myndaix.Ledger.Policy

/-! The life of an attempt: leasing a queued job, keeping the lease, and the ways it ends. Locks
go in one order everywhere: attempt, then job, then `repo_concurrency`.
-/

namespace Ledger

open Transactions

/-- `ORDER BY j.priority DESC, j.created_at, j.id`. -/
def leaseOrder (first second : Job) : Bool :=
  if first.priority ≠ second.priority then second.priority < first.priority
  else if first.createdAt ≠ second.createdAt then first.createdAt < second.createdAt
  else first.id ≤ second.id

/-- The soft filter: the cached count, and the repositories this call found at their cap. -/
def withinSoftCap (config : Config) (snapshot : Database) (skipRepos : List String)
    (job : Job)
    : Bool :=
  match job.repoId with
  | none => true
  | some repo => snapshot.activeOf repo < config.maxPerRepo && repo ∉ skipRepos

/-- PICK's condition on one row of `job`; the other tables are the snapshot's. -/
def leasable (config : Config) (snapshot : Database) (skipRepos : List String) (job : Job)
    : Bool :=
  job.status = .queued
  && snapshot.attempts.all
      (fun attempt => !(attempt.jobId = job.id && attempt.status = .open_))
  && withinSoftCap config snapshot skipRepos job

/-- PICK: the first leasable job that no other worker has locked. -/
def pick (config : Config) (skipRepos : List String) : Txn (Option Job) := do
  let snapshot ← look
  let candidates := (snapshot.jobs.filter (leasable config snapshot skipRepos)).insertionSort
    (fun first second => leaseOrder first second)
  let picked ← selectForUpdate (fun job => [.job job.id])
    (fun latest job =>
      (latest.job? job.id).any (leasable config snapshot skipRepos)) 1 candidates
  pure picked.head?

/-- CLAIM: the job from queued to leased and its attempt opened, in one statement. -/
def claim (jobId attemptId : Id) (workerId : String) (now : Time) : Txn Bool := do
  let leased ← update (.job jobId)
    (fun _ latest => (latest.job? jobId).any (fun job => job.status = .queued))
    (.setJobs [jobId] .leased)
  if leased then
    insertNew [.attemptEntry attemptId, .openAttempt jobId]
      (.insertAttempt
        {
          id := attemptId,
          jobId := jobId,
          workerId := workerId,
          leaseExpiresAt := now + leaseSeconds,
          endedAt := none,
          status := .open_,
          result := none,
          errorClass := none
        })
    pure true
  else pure false

/-- How one round of `lease_job` ends: the call answers, or goes on with these repositories
excluded.
-/
inductive Lease : Type where
  | answered (attempt : Option Id)
  | repick (skipRepos : List String)
deriving DecidableEq, Repr

/-- The hard count under the counter's lock, and CLAIM below the cap. -/
def countAndClaim (config : Config) (workerId : String) (skipRepos : List String)
    (attemptId : Id) (now : Time) (jobId : Id) (repo : String)
    : Txn Lease := do
  let rows ← look
  let openNow := rows.openNow repo
  if config.maxPerRepo ≤ openNow then
    let _ ← updateRepo repo (.setActive repo openNow)
    pure (.repick (skipRepos ++ [repo]))
  else if ← claim jobId attemptId workerId now then
    let _ ← updateRepo repo (.setActive repo (openNow + 1))
    pure (.answered (some attemptId))
  else pure (.repick skipRepos)

/-- The rest of a round for a job with a repository: seed and lock the counter's row first. -/
def claimUnderCap (config : Config) (workerId : String) (skipRepos : List String)
    (attemptId : Id) (now : Time) (jobId : Id) (repo : String)
    : Txn Lease := do
  -- `ON CONFLICT DO NOTHING` does not lock the row it meets, so the lock follows.
  let _ ← insert [.repo repo] (.insertRepo ⟨repo, 0⟩)
  lockRepo repo
  countAndClaim config workerId skipRepos attemptId now jobId repo

/-- One round of `lease_job`, a transaction of its own: PICK, then CLAIM, under the
repository's cap when the job has one.
-/
def leaseRound (config : Config) (workerId : String) (skipRepos : List String)
    (attemptId : Id) (now : Time)
    : Txn Lease := do
  match ← pick config skipRepos with
  | none => pure (.answered none)
  | some job =>
      match job.repoId with
      | none =>
          if ← claim job.id attemptId workerId now then pure (.answered (some attemptId))
          else pure (.repick skipRepos)
      | some repo => claimUnderCap config workerId skipRepos attemptId now job.id repo

/-- An open attempt of a leased or running job. -/
def holdsLease (attemptId : Id) (attempts jobs : Database) : Bool :=
  (attempts.attempt? attemptId).any
    (fun attempt =>
      attempt.status = .open_
      && (jobs.job? attempt.jobId).any (fun job => job.status.live))

/-- Extend the lease; `job` is only joined, so it is read from the snapshot. -/
def heartbeatAttempt (attemptId : Id) (now : Time) : Txn Unit := do
  let extended ← update (.attempt attemptId)
    (fun snapshot latest => holdsLease attemptId latest snapshot)
    (.extendLease attemptId (now + heartbeatSeconds))
  if extended then pure ()
  else raise (.lostLease s!"heartbeat: attempt {attemptId} no longer open")

/-- The reply that a finished job owes its inbound event. -/
def reply (outboundId : Id) (job : Job) (event : InboundEvent) (text : String) : Outbound :=
  {
    id := outboundId,
    jobId := job.id,
    transport := event.envelope.transport,
    replyTarget := event.envelope.replyTarget.getD (event.envelope.transport ++ ":unknown"),
    body := text,
    status := .pending,
    providerMsgId := none,
    tries := 0
  }

/-- The decrement that gives an attempt's slot back; a job without repository has none. -/
def freeSlot (snapshot : Database) (repoId : Option String) : Txn Unit := do
  match repoId with
  | none => pure ()
  | some repo =>
      let _ ← updateFrom snapshot (.repo repo) (fun rows => (rows.repo? repo).isSome)
        (.decrement repo 1)
      pure ()

/-- The `reply` part of the completing statement. -/
def queueReply (snapshot : Database) (outboundId : Id) (job : Job) (text : String)
    : Txn Unit := do
  match job.inboundEventId.bind snapshot.inbound? with
  | none => pure ()
  | some event =>
      insertNew [.outboundEntry outboundId] (.insertOutbound (reply outboundId job event text))

/-- Close the attempt, finish the job and queue its reply, in one statement: `locked`, `closed`,
`dec`, `done`, `reply`.
-/
def completeAttempt (attemptId : Id) (result : Result) (outboundId : Id) (now : Time)
    : Txn Unit := do
  let lost : Txn Unit :=
    raise (.lostLease s!"complete: attempt {attemptId} was reclaimed/closed")
  let snapshot ← look
  match snapshot.attempt? attemptId with
  | none => lost
  | some attempt =>
      if holdsLease attemptId snapshot snapshot then
        lock (.attempt attemptId)
        lock (.job attempt.jobId)
        let latest ← look
        match latest.job? attempt.jobId with
        | none => lost
        | some job =>
            if holdsLease attemptId latest latest then
              write (.closeAttempts [attemptId] .ok now (some result) none)
              freeSlot snapshot job.repoId
              write (.finishJob job.id result.artifactRef)
              queueReply snapshot outboundId job result.text
            else lost
      else lost

/-- Where a failed attempt sends its job, with the letter's reason when that is `dead`. -/
def routeFailure (config : Config) (errorClass : Option ErrorClass) (toAgent : String)
    (attempts : Nat)
    : JobStatus × Option String :=
  if errorClass = some .retryable then
    if config.requeueSafe toAgent then
      if maxAttempts ≤ attempts then
        (.dead,
          some (s!"poison: {attempts} attempts reached MAX_ATTEMPTS "
            ++ s!"({maxAttempts}) on '{toAgent}'"))
      else (.queued, none)
    else (.dead, some s!"retryable failure on non-retry-safe agent '{toAgent}'")
  else (.failed, none)

/-- The letter of a job that died, if it did. -/
def bury (jobId : Id) : Option String → Txn Unit
  | none => pure ()
  | some reason => write (.insertDeadLetter ⟨jobId, reason⟩)

/-- Close the attempt and route its job by error class and authority. -/
def failAttempt (config : Config) (attemptId : Id) (result : Result) (now : Time)
    : Txn Unit := do
  let lost : Txn Unit := raise (.lostLease s!"fail: attempt {attemptId} no longer open")
  let snapshot ← look
  match snapshot.attempt? attemptId with
  | none => lost
  | some _ =>
      lock (.attempt attemptId)
      let latest ← look
      match latest.attempt? attemptId with
      | none => lost
      | some attempt =>
          if attempt.status = .open_ then
            write (.closeAttempts [attemptId] .failed now (some result) result.errorClass)
            lock (.job attempt.jobId)
            let rows ← look
            match rows.job? attempt.jobId with
            | none => raise .typeError
            | some job =>
                let rows ← look
                let fate := routeFailure config result.errorClass job.toAgent
                  (rows.attemptCount job.id)
                let _ ← update (.job job.id)
                  (fun _ latest => (latest.job? job.id).any (fun row => row.status.live))
                  (.setJobs [job.id] fate.1)
                bury job.id fate.2
                let rows ← look
                freeSlot rows job.repoId
          else lost

/-- Cancel's first statement: close the job's open attempts, and tell whether there was one. -/
def closeOpenAttempts (jobId : Id) (now : Time) : Txn Bool := do
  let snapshot ← look
  Interaction.Program.fold
    (fun closed attempt => do
      let here ← updateFrom snapshot (.attempt attempt.id)
        (fun rows => (rows.attempt? attempt.id).any (fun row => row.status = .open_))
        (.closeAttempts [attempt.id] .failed now none (some .terminal))
      pure (closed || here))
    false
    (snapshot.attempts.filter
      (fun attempt => attempt.jobId = jobId && attempt.status = .open_))

/-- Cancel as its three statements: the attempt, the job, and the slot if an attempt closed. -/
def cancel (jobId : Id) (now : Time) : Txn Unit := do
  let closed ← closeOpenAttempts jobId now
  let _ ← update (.job jobId)
    (fun _ latest => (latest.job? jobId).any (fun job => !job.status.terminal))
    (.setJobs [jobId] .dead)
  if closed then
    let rows ← look
    freeSlot rows ((rows.job? jobId).bind Job.repoId)
  else pure ()

/-- The worker's last read before it runs a job: it locks the attempt and the job, so a cancel
or a reclaim under way is seen.
-/
def getAttemptJob (attemptId : Id) : Txn (Option Job) := do
  let snapshot ← look
  if (snapshot.attempt? attemptId).any (fun attempt => attempt.status = .open_) then
    lock (.attempt attemptId)
    let latest ← look
    match latest.attempt? attemptId with
    | none => pure none
    | some attempt =>
        if attempt.status = .open_ then
          let job ← lockLive attempt.jobId
          pure job
        else pure none
  else pure none
where
  /-- `SELECT ... FROM job WHERE id = $1 AND status IN ('leased','running') FOR UPDATE`. -/
  lockLive (jobId : Id) : Txn (Option Job) := do
    let snapshot ← look
    if (snapshot.job? jobId).any (fun job => job.status.live) then
      lock (.job jobId)
      let latest ← look
      pure ((latest.job? jobId).filter (fun job => job.status.live))
    else pure none

end Ledger

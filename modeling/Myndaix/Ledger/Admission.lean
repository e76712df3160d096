import Myndaix.Ledger.Policy

/-! Admission: ingesting a message once and queueing at most one job for it. -/

namespace Ledger

open Transactions

/-- Exactly-once ingest: a duplicate answers with the first event's id. -/
def ingestInbound (id : Id) (envelope : TransportEnvelope) (body : String) : Txn Id := do
  let row := { id := id, envelope := envelope, body := utf8Safe body : InboundEvent }
  if ← insert [.inboundEntry id, .dedupeEntry envelope.dedupeKey] (.insertInbound row) then
    pure id
  else
    let rows ← look
    match rows.inboundEvents.find?
        (fun event => event.envelope.dedupeKey = envelope.dedupeKey) with
    | some event =>
        lock (.inboundEntry event.id)
        pure event.id
    | none => raise .uniqueViolation

/-- The arguments of `submit_job`. -/
structure Submission where
  toAgent : String
  prompt : String
  parentId : Option Id
  inboundEventId : Option Id
  createdBy : String
  repoId : Option String
  baseRef : Option String
  priority : Int
deriving DecidableEq, Repr

/-- The row that a submission inserts. -/
def Submission.job (submission : Submission) (id rootId : Id) (depth : Nat)
    (status : JobStatus) (now : Time)
    : Job :=
  {
    id := id,
    parentId := submission.parentId,
    rootId := rootId,
    depth := depth,
    createdBy := submission.createdBy,
    inboundEventId := submission.inboundEventId,
    toAgent := submission.toAgent,
    body := utf8Safe submission.prompt,
    priority := submission.priority,
    status := status,
    repoId := submission.repoId,
    baseRef := submission.baseRef,
    artifactRef := none,
    createdAt := now
  }

/-- Why a parent admits no further child, if it does not. -/
def rejection (parent : Job) (children : Nat) : Option String :=
  let depth := parent.depth + 1
  if parent.status ≠ .queued ∧ parent.status.live = false then
    some s!"admission rejected: parent {parent.id} is '{parent.status.value}', not live"
  else if maxDepth < depth ∨ maxChildren ≤ children then
    some (s!"admission rejected: depth={depth} (max {maxDepth}), "
      ++ s!"children={children} (max {maxChildren})")
  else none

/-- The foreign key of a new job's inbound event. -/
def requireInbound (inboundEventId : Option Id) : Txn Unit := do
  match inboundEventId with
  | none => pure ()
  | some event =>
      let rows ← look
      if (rows.inbound? event).isSome then pure () else raise .foreignKeyViolation

/-- Queue the job, or answer with the job that its inbound event already has. -/
def insertQueued (job : Job) : Txn (Option Id) := do
  if ← insert job.entries (.insertJob job) then
    requireInbound job.inboundEventId
    pure (some job.id)
  else
    let rows ← look
    match job.inboundEventId with
    | none => pure none
    | some event =>
        pure ((rows.jobs.find? (fun other => other.inboundEventId = some event)).map Job.id)

/-- The row of a submission that was not admitted; its statement leaves `repo_id` and `base_ref`
out.
-/
def Job.rejected (job : Job) : Job :=
  { job with status := .dead, repoId := none, baseRef := none }

/-- The dead job and the letter of a submission that was not admitted. -/
def insertRejected (job : Job) (reason : String) : Txn (Option Id) := do
  insertNew job.rejected.entries (.insertJob job.rejected)
  requireInbound job.rejected.inboundEventId
  write (.insertDeadLetter ⟨job.rejected.id, reason⟩)
  pure (some job.rejected.id)

/-- `SELECT ... FROM job WHERE id = $1 FOR UPDATE`. -/
def lockJob (id : Id) : Txn (Option Job) := do
  let snapshot ← look
  if (snapshot.job? id).isSome then
    lock (.job id)
    let latest ← look
    pure (latest.job? id)
  else pure none

/-- Queue a job; the parent's row lock lets one sibling at a time through admission. -/
def submitJob (submission : Submission) (id : Id) (now : Time) : Txn (Option Id) := do
  match submission.parentId with
  | none => insertQueued (submission.job id id 0 .queued now)
  | some parentId =>
      match ← lockJob parentId with
      | none => raise (.valueError s!"submit_job: unknown parent_id {parentId}")
      | some parent =>
          let rows ← look
          let job := submission.job id parent.rootId (parent.depth + 1) .queued now
          match rejection parent (rows.childCount parentId) with
          | some reason => insertRejected job reason
          | none => insertQueued job

end Ledger

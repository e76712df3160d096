import Myndaix.Relational.Table
import Myndaix.Transactions.Semantics

/-! The ledger's tables, the row locks and unique-index entries that its transactions take, and
the statements that change rows.
-/

namespace Ledger

open Relational Transactions

/-- uuids: only their identity matters, `ORDER BY id` compares them. -/
abbrev Id : Type := Nat

/-- Seconds, as `statement_timestamp()` reads them. -/
abbrev Time : Type := Nat

inductive JobStatus : Type where
  | queued
  | leased
  | running
  | done
  | failed
  | dead
deriving DecidableEq, Repr

/-- `status IN ('leased','running')`. -/
def JobStatus.live : JobStatus → Bool
  | .leased | .running => true
  | _ => false

/-- No status-guarded update moves a job out of these. -/
def JobStatus.terminal : JobStatus → Bool
  | .done | .failed | .dead => true
  | _ => false

inductive AttemptStatus : Type where
  | open_
  | ok
  | failed
deriving DecidableEq, Repr

/-- How an attempt can end; nothing opens one again. -/
inductive AttemptEnd : Type where
  | ok
  | failed
deriving DecidableEq, Repr

def AttemptEnd.status : AttemptEnd → AttemptStatus
  | .ok => .ok
  | .failed => .failed

inductive OutboundStatus : Type where
  | pending
  | leased
  | sent
  | failed
deriving DecidableEq, Repr

inductive ErrorClass : Type where
  | retryable
  | terminal
  | needsHuman
deriving DecidableEq, Repr

inductive ResultStatus : Type where
  | ok
  | error
  | timeout
  | killed
  | needsHuman
deriving DecidableEq, Repr

/-- What a worker reports about one attempt. -/
structure Result where
  status : ResultStatus
  text : String
  errorClass : Option ErrorClass
  artifactRef : Option String
deriving DecidableEq, Repr

/-- The parts of a transport envelope that the ledger reads. -/
structure TransportEnvelope where
  transport : String
  replyTarget : Option String
  dedupeKey : String
deriving DecidableEq, Repr

structure InboundEvent where
  id : Id
  envelope : TransportEnvelope
  body : String
deriving DecidableEq, Repr

structure Job where
  id : Id
  parentId : Option Id
  rootId : Id
  depth : Nat
  createdBy : String
  inboundEventId : Option Id
  toAgent : String
  body : String
  priority : Int
  status : JobStatus
  repoId : Option String
  baseRef : Option String
  artifactRef : Option String
  createdAt : Time
deriving DecidableEq, Repr

structure Attempt where
  id : Id
  jobId : Id
  workerId : String
  leaseExpiresAt : Time
  endedAt : Option Time
  status : AttemptStatus
  result : Option Result
  errorClass : Option ErrorClass
deriving DecidableEq, Repr

structure RepoConcurrency where
  repoId : String
  active : Int
deriving DecidableEq, Repr

structure Outbound where
  id : Id
  jobId : Id
  transport : String
  replyTarget : String
  body : String
  status : OutboundStatus
  providerMsgId : Option String
  tries : Nat
deriving DecidableEq, Repr

structure DeadLetter where
  sourceId : Id
  reason : String
deriving DecidableEq, Repr

structure Database where
  inboundEvents : List InboundEvent
  jobs : List Job
  attempts : List Attempt
  repoConcurrency : List RepoConcurrency
  outbound : List Outbound
  deadLetters : List DeadLetter
deriving DecidableEq, Repr

/-- The ledger before its first verb. -/
def Database.empty : Database :=
  ⟨[], [], [], [], [], []⟩

namespace Database

variable (database : Database)

def inbound? (id : Id) : Option InboundEvent :=
  lookup InboundEvent.id id database.inboundEvents

def job? (id : Id) : Option Job :=
  lookup Job.id id database.jobs

def attempt? (id : Id) : Option Attempt :=
  lookup Attempt.id id database.attempts

def repo? (repo : String) : Option RepoConcurrency :=
  lookup RepoConcurrency.repoId repo database.repoConcurrency

def outbound? (id : Id) : Option Outbound :=
  lookup Outbound.id id database.outbound

/-- `active` of a repository, 0 when it has no row. -/
def activeOf (repo : String) : Int :=
  ((database.repo? repo).map RepoConcurrency.active).getD 0

/-- The attempt is open and belongs to a leased or running job of the repository. -/
def liveOn (repo : String) (attempt : Attempt) : Bool :=
  attempt.status = .open_
  && (database.job? attempt.jobId).any
      (fun job => job.repoId = some repo && job.status.live)

/-- The hard count: `count(*)` over the open attempts of a repository's live jobs. -/
def openNow (repo : String) : Nat :=
  database.attempts.countP (database.liveOn repo)

/-- All attempts a job ever had. -/
def attemptCount (job : Id) : Nat :=
  database.attempts.countP (fun attempt => attempt.jobId = job)

def openCount (job : Id) : Nat :=
  database.attempts.countP (fun attempt => attempt.jobId = job && attempt.status = .open_)

/-- `count(*) FROM job WHERE parent_id = $1 AND status <> 'dead'`. -/
def childCount (parent : Id) : Nat :=
  database.jobs.countP (fun job => job.parentId = some parent && job.status ≠ .dead)

end Database

/-- Rows that can be locked and unique-index entries that an insert can wait for. -/
inductive Key : Type where
  | attempt (id : Id)
  | job (id : Id)
  | outbound (id : Id)
  | repo (repoId : String)
  | inboundEntry (id : Id)
  | dedupeEntry (dedupeKey : String)
  | jobEntry (id : Id)
  | jobOfInbound (inboundEventId : Id)
  | attemptEntry (id : Id)
  | openAttempt (jobId : Id)
  | outboundEntry (id : Id)
  | providerMsg (providerMsgId : String)
deriving DecidableEq, Repr

/-- Whether an insert with this key would meet a row that has it; the first three are locks of
rows that exist.
-/
def Key.present (key : Key) (database : Database) : Bool :=
  match key with
  | .attempt _ | .job _ | .outbound _ => true
  | .attemptEntry id => (database.attempt? id).isSome
  | .jobEntry id => (database.job? id).isSome
  | .outboundEntry id => (database.outbound? id).isSome
  | .repo repoId => (database.repo? repoId).isSome
  | .inboundEntry id => (database.inbound? id).isSome
  | .dedupeEntry dedupeKey =>
      database.inboundEvents.any (fun event => event.envelope.dedupeKey = dedupeKey)
  | .jobOfInbound event => database.jobs.any (fun job => job.inboundEventId = some event)
  | .openAttempt jobId =>
      database.attempts.any (fun attempt => attempt.jobId = jobId && attempt.status = .open_)
  | .providerMsg provider =>
      database.outbound.any (fun row => row.providerMsgId = some provider)

/-- The changes that the verbs' statements make; a `none` among the columns of `closeAttempts`
leaves the column as it is.
-/
inductive Change : Type where
  | insertInbound (row : InboundEvent)
  | insertJob (row : Job)
  | insertAttempt (row : Attempt)
  | insertRepo (row : RepoConcurrency)
  | insertOutbound (row : Outbound)
  | insertDeadLetter (row : DeadLetter)
  | setJobs (ids : List Id) (status : JobStatus)
  | finishJob (id : Id) (artifactRef : Option String)
  | closeAttempts (ids : List Id) (ended : AttemptEnd) (endedAt : Time)
    (result : Option Result) (errorClass : Option ErrorClass)
  | extendLease (id : Id) (expiresAt : Time)
  | setActive (repo : String) (active : Int)
  | decrement (repo : String) (slots : Nat)
  | claimOutbound (id : Id)
  | setOutbound (id : Id) (status : OutboundStatus)
  | sendOutbound (id : Id) (providerMsgId : String)
deriving DecidableEq, Repr

/-- The unique-index entries of a job's row. -/
def Job.entries (job : Job) : List Key :=
  .jobEntry job.id :: (job.inboundEventId.map Key.jobOfInbound).toList

/-- The rows a change writes and the index entries it adds. -/
def Change.keys : Change → List Key
  | .insertInbound row => [.inboundEntry row.id, .dedupeEntry row.envelope.dedupeKey]
  | .insertJob row => row.entries
  | .insertAttempt row => [.attemptEntry row.id, .openAttempt row.jobId]
  | .insertRepo row => [.repo row.repoId]
  | .insertOutbound row =>
      .outboundEntry row.id :: (row.providerMsgId.map Key.providerMsg).toList
  | .insertDeadLetter _ => []
  | .setJobs ids _ => ids.map .job
  | .finishJob id _ => [.job id]
  | .closeAttempts ids _ _ _ _ => ids.map .attempt
  | .extendLease id _ => [.attempt id]
  | .setActive repo _ => [.repo repo]
  | .decrement repo _ => [.repo repo]
  | .claimOutbound id => [.outbound id]
  | .setOutbound id _ => [.outbound id]
  | .sendOutbound id providerMsgId => [.outbound id, .providerMsg providerMsgId]

/-- The effect of one closing update on an attempt's row. -/
def Attempt.close (ended : AttemptEnd) (endedAt : Time) (result : Option Result)
    (errorClass : Option ErrorClass) (attempt : Attempt)
    : Attempt :=
  {
    attempt with
    status := ended.status,
    endedAt := some endedAt,
    result := result.or attempt.result,
    errorClass := errorClass.or attempt.errorClass
  }

/-- Apply a change; `floor` is what a decrement does to the difference, `GREATEST(_, 0)` in the
code.
-/
def Change.apply (floor : Int → Int) (change : Change) (database : Database) : Database :=
  match change with
  | .insertInbound row => { database with inboundEvents := database.inboundEvents ++ [row] }
  | .insertJob row => { database with jobs := database.jobs ++ [row] }
  | .insertAttempt row => { database with attempts := database.attempts ++ [row] }
  | .insertRepo row => { database with repoConcurrency := database.repoConcurrency ++ [row] }
  | .insertOutbound row => { database with outbound := database.outbound ++ [row] }
  | .insertDeadLetter row => { database with deadLetters := database.deadLetters ++ [row] }
  | .setJobs ids status =>
      {
        database with
        jobs := update (fun job => job.id ∈ ids) (fun job => { job with status := status })
          database.jobs
      }
  | .finishJob id artifactRef =>
      {
        database with
        jobs := update (fun job => job.id = id)
          (fun job => { job with status := .done, artifactRef := artifactRef }) database.jobs
      }
  | .closeAttempts ids ended endedAt result errorClass =>
      {
        database with
        attempts := update (fun attempt => attempt.id ∈ ids)
          (Attempt.close ended endedAt result errorClass) database.attempts
      }
  | .extendLease id expiresAt =>
      {
        database with
        attempts := update (fun attempt => attempt.id = id)
          (fun attempt => { attempt with leaseExpiresAt := expiresAt }) database.attempts
      }
  | .setActive repo active =>
      {
        database with
        repoConcurrency := update (fun row => row.repoId = repo)
          (fun row => { row with active := active }) database.repoConcurrency
      }
  | .decrement repo slots =>
      {
        database with
        repoConcurrency := update (fun row => row.repoId = repo)
          (fun row => { row with active := floor (row.active - slots) })
          database.repoConcurrency
      }
  | .claimOutbound id =>
      {
        database with
        outbound := update (fun row => row.id = id)
          (fun row => { row with status := .leased, tries := row.tries + 1 })
          database.outbound
      }
  | .setOutbound id status =>
      {
        database with
        outbound := update (fun row => row.id = id) (fun row => { row with status := status })
          database.outbound
      }
  | .sendOutbound id providerMsgId =>
      {
        database with
        outbound := update (fun row => row.id = id)
          (fun row => { row with status := .sent, providerMsgId := some providerMsgId })
          database.outbound
      }

/-- The ledger as a store whose decrements end in `floor`. -/
def storeWith (floor : Int → Int) : Store Database Key Change where
  apply := Change.apply floor
  present := Key.present

/-- The ledger of the code: `GREATEST(active - n, 0)`. -/
def store : Store Database Key Change :=
  storeWith (fun difference => max difference 0)

end Ledger

import Myndaix.Ledger.Changes
import Myndaix.Ledger.Verbs

/-! What one commit of each kind does to the ledger. Every verb's transaction is shown to end in
one of these commits, and every property of the ledger's runs is derived from them.
-/

namespace Ledger

open Relational Transactions

/-- The verb completes an attempt, the only thing that may queue a reply by itself. -/
def Verb.completes : Verb → Bool
  | .completeAttempt .. => true
  | _ => false

/-- The verb writes dead letters for jobs. -/
def Verb.buries : Verb → Bool
  | .failAttempt .. | .reclaimExpired .. => true
  | _ => false

/-- The verb claims or marks outbound rows. -/
def Verb.delivers : Verb → Bool
  | .claimOutbound .. | .markOutboundSent .. | .markOutboundSentInline .. => true
  | .markOutboundFailed .. => true
  | _ => false

/-- What a verb of the outbox does to one row: a claim takes a pending row, a sender's mark a
leased one, an inline mark a pending one.
-/
def Verb.sends (verb : Verb) (before after : Outbound) : Prop :=
  match verb with
  | .claimOutbound transport =>
      before.transport = transport
      ∧ before.status = .pending
      ∧ after = { before with status := .leased, tries := before.tries + 1 }
  | .markOutboundSent id providerMsgId =>
      before.id = id
      ∧ before.status = .leased
      ∧ (after = { before with status := .sent, providerMsgId := some providerMsgId }
        ∨ after = { before with status := .failed })
  | .markOutboundSentInline id providerMsgId =>
      before.id = id
      ∧ before.status = .pending
      ∧ (after = { before with status := .sent, providerMsgId := some providerMsgId }
        ∨ after = { before with status := .failed })
  | .markOutboundFailed id =>
      before.id = id
      ∧ before.status = .leased
      ∧ (after = { before with status := .pending } ∨ after = { before with status := .failed })
  | _ => False

def Verb.fails : Verb → Bool
  | .failAttempt .. => true
  | _ => false

/-- The attempt that a worker's verb is about. -/
def Verb.fences : Verb → Option Id
  | .completeAttempt attemptId _ _ _ => some attemptId
  | .failAttempt attemptId _ _ => some attemptId
  | .heartbeatAttempt attemptId _ => some attemptId
  | _ => none

/-- How many open attempts of a repository a commit closes. -/
def freed (database : Database) (closeRow : Attempt → Attempt) (repo : String) : Nat :=
  database.attempts.countP
    (fun attempt =>
      attempt.status = .open_
      && (closeRow attempt).status ≠ .open_
      && (database.job? attempt.jobId).any (fun job => job.repoId = some repo))

/-- A commit that closes nothing frees nothing. -/
@[simp] theorem freed_id (database : Database) (repo : String) : freed database id repo = 0 := by
  simp only [freed, List.countP_eq_zero, id_eq, Bool.and_eq_true, decide_eq_true_eq]
  rintro attempt _ ⟨⟨isOpen, closed⟩, _⟩
  exact closed isOpen

/-- What a commit that closes attempts does to the soft counters. -/
def Accounted (exact : Prop) (verb : Verb) (database later : Database)
    (closeRow : Attempt → Attempt)
    : Prop :=
  match verb with
  | .leaseJob .. =>
      ∀ repo,
        freed database closeRow repo = 0
        ∧ (exact
          → later.activeOf repo = database.activeOf repo
            ∨ later.activeOf repo = database.openNow repo)
  | .reconcileRepoConcurrency .. | .drift .. => True
  | _ =>
      ∀ repo,
        later.activeOf repo
          = if freed database closeRow repo = 0 then database.activeOf repo
            else max (database.activeOf repo - freed database closeRow repo) 0

/-- A commit that rewrites attempts and jobs: it closes attempts, ends or requeues their jobs,
and adds replies and letters. `exact` says that no other transaction ran meanwhile.
-/
structure Settles (config : Config) (exact : Prop) (verb : Verb) (database later : Database)
    (closeRow : Attempt → Attempt) (moveRow : Job → Job) (replies : List Outbound)
    (letters : List DeadLetter)
    : Prop where
  inboundEvents : later.inboundEvents = database.inboundEvents
  attempts : later.attempts = database.attempts.map closeRow
  jobs : later.jobs = database.jobs.map moveRow
  outbound : later.outbound = database.outbound ++ replies
  deadLetters : later.deadLetters = database.deadLetters ++ letters
  uniqueRepo : Unique RepoConcurrency.repoId later.repoConcurrency
  uniqueOutbound : Unique Outbound.id later.outbound
  closeKept
    : ∀ attempt, (closeRow attempt).id = attempt.id ∧ (closeRow attempt).jobId = attempt.jobId
  moveKept
    : ∀ job,
        moveRow job
          = {
              job with
              status := (moveRow job).status,
              artifactRef := (moveRow job).artifactRef
            }
  closes
    : ∀ attempt ∈ database.attempts,
        attempt.status ≠ .open_ → closeRow attempt = attempt
  moves
    : ∀ job ∈ database.jobs,
        moveRow job = job
        ∨ (job.status.terminal = false ∧ (moveRow job).status.live = false)
  settled
    : ∀ attempt ∈ database.attempts, ∀ job,
        database.job? attempt.jobId = some job
        → attempt.status = .open_
        → (closeRow attempt).status = .open_
        → moveRow job = job ∨ ((moveRow job).status = .dead ∧ ¬exact)
  released
    : ∀ attempt ∈ database.attempts, ∀ job,
        database.job? attempt.jobId = some job
        → attempt.status = .open_
        → (closeRow attempt).status ≠ .open_
        → (moveRow job).status.live = false
  requeued
    : ∀ job ∈ database.jobs,
        (moveRow job).status = .queued
        → moveRow job = job
          ∨ (config.requeueSafe job.toAgent = true
            ∧ database.attemptCount job.id < maxAttempts)
  replied
    : ∀ job ∈ database.jobs,
        replies.countP (fun row => row.jobId = job.id)
          = if job.status ≠ .done ∧ (moveRow job).status = .done
              ∧ job.inboundEventId.isSome = true
            then 1 else 0
  replyRows
    : ∀ row ∈ replies,
        verb.completes = true ∧ (database.job? row.jobId).isSome = true
        ∧ row.status = .pending ∧ row.providerMsgId = none
  buried
    : verb.buries = true
      → ∀ job ∈ database.jobs,
          job.status.live = true
          → letters.countP (fun letter => letter.sourceId = job.id)
              = if (moveRow job).status = .dead then 1 else 0
  letterRows
    : ∀ letter ∈ letters,
        verb.buries = true
        ∧ ∃ job ∈ database.jobs,
            job.id = letter.sourceId ∧ (job.status.live = true ∨ verb.fails = true)
  accounted : Accounted exact verb database later closeRow

/-- A commit that leases a queued job: under the job's lock and, for a job with a repository,
under its counter's lock and below the cap.
-/
structure Claims (config : Config) (exact : Prop) (held : List Key)
    (database later : Database) (job : Job) (attempt : Attempt)
    : Prop where
  inboundEvents : later.inboundEvents = database.inboundEvents
  attempts : later.attempts = database.attempts ++ [attempt]
  jobs
    : later.jobs
        = database.jobs.map
            (fun row => if row.id = job.id then { row with status := .leased } else row)
  outbound : later.outbound = database.outbound
  deadLetters : later.deadLetters = database.deadLetters
  uniqueRepo : Unique RepoConcurrency.repoId later.repoConcurrency
  found : database.job? job.id = some job
  queued : job.status = .queued
  lockedJob : Key.job job.id ∈ held
  fresh : database.attempt? attempt.id = none
  sameJob : attempt.jobId = job.id
  opened : attempt.status = .open_
  capped
    : ∀ repo,
        job.repoId = some repo
        → Key.repo repo ∈ held
          ∧ (later.repo? repo).isSome = true
          ∧ database.openNow repo < config.maxPerRepo
  accounted
    : exact
      → ∀ repo,
          later.activeOf repo
            = if job.repoId = some repo then (database.openNow repo : Int) + 1
              else database.activeOf repo

/-- A commit that adds a job, queued or rejected, under its parent's lock. -/
structure Admits (held : List Key) (database later : Database) (job : Job)
    (letters : List DeadLetter)
    : Prop where
  inboundEvents : later.inboundEvents = database.inboundEvents
  attempts : later.attempts = database.attempts
  jobs : later.jobs = database.jobs ++ [job]
  repoConcurrency : later.repoConcurrency = database.repoConcurrency
  outbound : later.outbound = database.outbound
  deadLetters : later.deadLetters = database.deadLetters ++ letters
  fresh : database.job? job.id = none
  status
    : (job.status = .queued ∧ letters = [])
      ∨ (job.status = .dead ∧ ∃ reason, letters = [⟨job.id, reason⟩])
  inbound
    : ∀ event,
        job.inboundEventId = some event
        → (database.inbound? event).isSome = true
          ∧ ∀ other ∈ database.jobs, other.inboundEventId ≠ some event
  root : job.parentId = none → job.depth = 0 ∧ job.rootId = job.id ∧ job.status = .queued
  child
    : ∀ parentId,
        job.parentId = some parentId
        → Key.job parentId ∈ held
          ∧ ∃ parent,
              database.job? parentId = some parent
              ∧ job.depth = parent.depth + 1
              ∧ job.rootId = parent.rootId
              ∧ (job.status = .queued
                → parent.status.terminal = false
                  ∧ job.depth ≤ maxDepth
                  ∧ database.childCount parentId < maxChildren)

/-- A commit that records a new inbound event. -/
structure Receives (database later : Database) (event : InboundEvent) : Prop where
  same : later = { database with inboundEvents := database.inboundEvents ++ [event] }
  fresh : database.inbound? event.id = none
  deduped
    : ∀ other ∈ database.inboundEvents,
        other.envelope.dedupeKey ≠ event.envelope.dedupeKey

/-- A commit that moves outbound rows along. -/
structure Delivers (verb : Verb) (database later : Database) (sendRow : Outbound → Outbound)
    (letters : List DeadLetter)
    : Prop where
  same
    : later
        = {
            database with
            outbound := database.outbound.map sendRow,
            deadLetters := database.deadLetters ++ letters
          }
  kept
    : ∀ row,
        sendRow row
          = {
              row with
              status := (sendRow row).status,
              providerMsgId := (sendRow row).providerMsgId,
              tries := (sendRow row).tries
            }
  moves : ∀ row ∈ database.outbound, sendRow row = row ∨ verb.sends row (sendRow row)

/-- A commit that queues a reply by hand. -/
structure Enqueues (database later : Database) (row : Outbound) : Prop where
  same : later = { database with outbound := database.outbound ++ [row] }
  fresh : database.outbound? row.id = none
  job : (database.job? row.jobId).isSome = true

/-- The commits of the ledger. -/
inductive Commit (config : Config) (exact : Prop)
    : Verb → List Key → Database → Database → Prop
  | quiet {verb held database} : Commit config exact verb held database database
  | settle {verb held database later closeRow moveRow replies letters}
    (settles : Settles config exact verb database later closeRow moveRow replies letters)
    : Commit config exact verb held database later
  | claim {worker skipRepos attemptId now held database later job attempt}
    (claims : Claims config exact held database later job attempt)
    : Commit config exact (.leaseJob worker skipRepos attemptId now) held database later
  | admission {submission id now held database later job letters}
    (admits : Admits held database later job letters)
    : Commit config exact (.submitJob submission id now) held database later
  | ingest {id envelope body held database later event}
    (receives : Receives database later event)
    : Commit config exact (.ingestInbound id envelope body) held database later
  | deliver {verb held database later sendRow letters} (outbox : verb.delivers = true)
    (delivers : Delivers verb database later sendRow letters)
    : Commit config exact verb held database later
  | enqueue {jobId body id held database later row}
    (enqueues : Enqueues database later row)
    : Commit config exact (.enqueueOutbound jobId body id) held database later

end Ledger

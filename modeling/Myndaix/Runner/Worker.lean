import Mathlib.Data.Rat.Defs
import Mathlib.Algebra.Order.Ring.Rat
import Myndaix.Interaction.Steady
import Myndaix.Ledger.Schema

/-! A pool worker and the attempt it has leased: the agent runs under a heartbeat, its result is
recorded, and whatever else happens on the way is caught by the pool, which fails the attempt.
-/

namespace Worker

open Interaction Ledger

-- What a worker asks

/-- The exceptions of a ledger's verb; any other one is told by its text. -/
inductive Failure where
  | lostLease
  | other (error : String)
deriving DecidableEq, Repr

/-- The parts of a job that its worker reads. -/
structure Job where
  toAgent : String
  repoId : Option String
  baseRef : Option String
deriving DecidableEq, Repr

inductive Query where
  | leaseJob (workerId : String)
  | getAttemptJob (attemptId : Id)
  | createWorktree (repoId baseRef : String) (attemptId : Id)
  /-- The agent is awaited to its end. -/
  | invoke (job : Job)
  | startAgent (job : Job)
  | waitAgent (timeout : ℚ)
  | heartbeatAttempt (attemptId : Id)
  | agentDone
  /-- `task.cancel()`, and the task is awaited. -/
  | cancelAgent
  | captureDiff (worktree : String)
  | completeAttempt (attemptId : Id) (result : Result)
  | failAttempt (attemptId : Id) (result : Result)
  | unlink (path : Option String)
  | cleanup (repoId worktree : String)
  /-- The `fail_attempt` of the pool's catch-all. -/
  | failFaulted (attemptId : Id) (result : Result)
  | sleep (seconds : ℚ)
  /-- The rounds of the heartbeat are used up: a call without an answer. -/
  | forever
deriving DecidableEq, Repr

abbrev Answer : Query → Type
  | .leaseJob _ => Except String (Option Id)
  | .getAttemptJob _ => Except String (Option Job)
  | .createWorktree .. => Except String Unit
  | .invoke _ => Except String Result
  | .waitAgent _ => Option (Except String Result)
  | .heartbeatAttempt _ | .completeAttempt .. | .failAttempt .. | .failFaulted .. =>
      Except Failure Unit
  | .agentDone => Bool
  | .captureDiff _ => Except String (Option String)
  | .cleanup .. => Except String Unit
  | .startAgent _ | .cancelAgent | .unlink _ | .sleep _ => Unit
  | .forever => Empty

abbrev Run (Result : Type) : Type :=
  Program Query Answer Result

abbrev ask (query : Query) : Run (Answer query) :=
  Program.ask query

-- The worker

section Attempt

/-- The `finally` of `_invoke` after a ping that raised. -/
def reap (failure : Failure) : Run (Except Failure Result) := do
  if ← ask .agentDone then pure (.error failure)
  else do
    ask .cancelAgent
    pure (.error failure)

/-- The loop of `_invoke`, for so many rounds. -/
def watch (attemptId : Id) (heartbeatInterval : ℚ) : ℕ → Run (Except Failure Result)
  | 0 => do nomatch ← ask .forever
  | rounds + 1 => do
      match ← ask (.waitAgent heartbeatInterval) with
      | some (.ok result) => pure (.ok result)
      | some (.error error) => pure (.error (.other error))
      | none =>
          match ← ask (.heartbeatAttempt attemptId) with
          | .ok _ => watch attemptId heartbeatInterval rounds
          | .error failure => reap failure

/-- `_invoke`. -/
def invoke (attemptId : Id) (job : Job) (heartbeatInterval : Option ℚ) (rounds : ℕ)
    : Run (Except Failure Result) := do
  match heartbeatInterval.filter (· ≠ 0) with
  | none =>
      match ← ask (.invoke job) with
      | .ok result => pure (.ok result)
      | .error error => pure (.error (.other error))
  | some interval =>
      ask (.startAgent job)
      watch attemptId interval rounds

/-- A diff of an attempt that was lost by the time it was to be recorded is removed. -/
def conclude (result : Result) : Except Failure Unit → Run (Except Failure (Option ResultStatus))
  | .ok _ => pure (.ok (some result.status))
  | .error .lostLease => do
      ask (.unlink result.artifactRef)
      pure (.ok none)
  | .error (.other error) => pure (.error (.other error))

/-- The result goes to the ledger. -/
def finalize (attemptId : Id) (result : Result) : Run (Except Failure (Option ResultStatus)) := do
  if result.status = .ok then conclude result (← ask (.completeAttempt attemptId result))
  else conclude result (← ask (.failAttempt attemptId result))

/-- The diff of the worktree, if there is one and the agent was successful. -/
def capture (worktree : Option (String × String))
    (result : Result) : Run (Except Failure Result) := do
  match worktree with
  | none => pure (.ok result)
  | some (_, path) =>
      if result.status = .ok then
        match ← ask (.captureDiff path) with
        | .ok artifactRef => pure (.ok { result with artifactRef })
        | .error error => pure (.error (.other error))
      else pure (.ok result)

/-- The body of the outer `try` of `process_attempt`, once the worktree is there. -/
def carryOut (attemptId : Id) (job : Job) (worktree : Option (String × String))
    (heartbeatInterval : Option ℚ) (rounds : ℕ)
    : Run (Except Failure (Option ResultStatus)) := do
  match ← invoke attemptId job heartbeatInterval rounds with
  | .error .lostLease => pure (.ok none)
  | .error failure => pure (.error failure)
  | .ok result =>
      match ← capture worktree result with
      | .error failure => pure (.error failure)
      | .ok result => finalize attemptId result

variable (isWorkspaceActor : String → Bool) (worktreePath : Id → String)

/-- The repository and the path of the worktree that a job needs. -/
def worktreeOf (attemptId : Id) (job : Job) : Option (String × String) :=
  if isWorkspaceActor job.toAgent then
    (job.repoId.filter (· ≠ "")).map (fun repoId => (repoId, worktreePath attemptId))
  else none

/-- `job.base_ref or "HEAD"`. -/
def Job.base (job : Job) : String :=
  (job.baseRef.filter (· ≠ "")).getD "HEAD"

def processAttempt (attemptId : Id) (heartbeatInterval : Option ℚ) (rounds : ℕ)
    : Run (Except Failure (Option ResultStatus)) := do
  match ← ask (.getAttemptJob attemptId) with
  | .error error => pure (.error (.other error))
  | .ok none => pure (.ok none)
  | .ok (some job) =>
      match worktreeOf isWorkspaceActor worktreePath attemptId job with
      | none => carryOut attemptId job none heartbeatInterval rounds
      | some (repoId, worktree) =>
          let ended ←
            match ← ask (.createWorktree repoId job.base attemptId) with
            | .ok _ => carryOut attemptId job (some (repoId, worktree)) heartbeatInterval rounds
            | .error error => pure (.error (.other error))
          -- The cleanup of the `finally`; what it raises takes the place of the outcome.
          match ← ask (.cleanup repoId worktree) with
          | .ok _ => pure ended
          | .error error => pure (.error (.other error))

end Attempt

-- The pool

/-- The counters of a worker. -/
structure Counts where
  processed : ℕ
  workerFaults : ℕ
  leaseFaults : ℕ
deriving DecidableEq, Repr

/-- What the catch-all records. -/
def unexpected : Result where
  status := .error
  text := "worker caught an unexpected error"
  errorClass := some .terminal
  artifactRef := none

section Pool

variable (isWorkspaceActor : String → Bool) (worktreePath : Id → String) (pool : Pool)

end Pool

end Worker

import Myndaix.Interaction.Parallel
import Myndaix.Ledger.Policy
import Myndaix.Runner.Worker

/-! The artifacts of attempts on disk: workers that process their attempts at the same time, clients
that close attempts, and sweeps that collect the worktrees of closed attempts with their patches.
-/

namespace Workspace

open Interaction Ledger
open Worker (Failure Query Answer Run)

-- The world

/-- The seconds of the ledger's lease: the janitor lets `reapable_attempt_ids` ask for attempts that
are closed for as long.
-/
def LEASE_SECONDS : Nat :=
  Ledger.leaseSeconds

inductive Attempt where
  | opened
  | closed (endedAt : Nat)
deriving DecidableEq, Repr

abbrev Content : Type :=
  List UInt8

/-- The ledger's attempts, the artifact references of the jobs that an attempt has done, the files
and the worktrees. What the agent of an attempt has named as its artifact is in nobody's store.
-/
structure World where
  now : Nat
  attempts : Id → Option Attempt
  delivered : Id → Option (Option String)
  named : Id → Option String
  files : String → Option Content
  worktrees : String → Bool

namespace World

variable (world : World)

def openAttempt (id : Id) : World :=
  { world with attempts := Function.update world.attempts id (some .opened) }

def closeAttempt (id : Id) : World :=
  { world with attempts := Function.update world.attempts id (some (.closed world.now)) }

/-- The commit of `complete_attempt`: the job is done, with this artifact. -/
def complete (id : Id) (artifactRef : Option String) : World :=
  {
    world.closeAttempt id with
    delivered := Function.update world.delivered id (some artifactRef)
  }

def write (path : String) (data : Option Content) : World :=
  { world with files := Function.update world.files path data }

def setWorktree (path : String) (there : Bool) : World :=
  { world with worktrees := Function.update world.worktrees path there }

def name (id : Id) (artifactRef : Option String) : World :=
  { world with named := Function.update world.named id artifactRef }

/-- `reapable_attempt_ids`. -/
def reapable (id : Id) : Bool :=
  match world.attempts id with
  | some (.closed endedAt) => endedAt + LEASE_SECONDS ≤ world.now
  | _ => false

end World

-- The calls of a worker

/-- The file of `capture_diff`. -/
def patchPath (worktree : String) : String :=
  worktree ++ ".patch"

/-- An agent that comes to its end has named its artifact, and written no file outside its worktree
but that one.
-/
def Ends (id : Id) (before : World) (result : Result) (after : World) : Prop :=
  ∃ files,
    after = { before.name id result.artifactRef with files := files }
    ∧ ∀ path, result.artifactRef ≠ some path → files path = before.files path

/-- How the calls of the worker of an attempt are answered, and what they leave behind. -/
def Responds (worktreePath : Id → String) (id : Id)
    : (query : Query) → World → Answer query → World → Prop
  | .createWorktree _ _ own, before, answer, after =>
      ∃ there, (answer = .ok () → there = true)
        ∧ after = before.setWorktree (worktreePath own) there
  | .invoke _, before, .ok result, after => Ends id before result after
  | .waitAgent _, before, some (.ok result), after => Ends id before result after
  | .captureDiff _, before, .ok none, after => after = before
  | .captureDiff worktree, before, .ok (some path), after =>
      path = patchPath worktree ∧ ∃ data, after = before.write path (some data)
  | .captureDiff worktree, before, .error _, after =>
      after = before ∨ ∃ data, after = before.write (patchPath worktree) data
  -- The update finds the attempt open; what fails otherwise may have been committed.
  | .completeAttempt own result, before, .ok _, after =>
      before.attempts own = some .opened ∧ after = before.complete own result.artifactRef
  | .completeAttempt _ _, before, .error .lostLease, after => after = before
  | .completeAttempt own result, before, .error (.other _), after =>
      after = before
      ∨ before.attempts own = some .opened ∧ after = before.complete own result.artifactRef
  | .failAttempt own _, before, _, after =>
      after = before ∨ before.attempts own = some .opened ∧ after = before.closeAttempt own
  | .unlink (some path), before, _, after => after = before ∨ after = before.write path none
  | .cleanup _ worktree, before, _, after => ∃ there, after = before.setWorktree worktree there
  | .forever, _, _, _ => False
  | _, before, _, after => after = before

-- The pool

/-- A sweep with the attempts that it may reap, and the one whose patch it is about to unlink. -/
structure Sweep where
  reapable : Id → Bool
  unlinking : Option Id

structure State where
  world : World
  running : Id → Option (Run (Except Failure (Option ResultStatus)))
  sweeps : Nat → Option Sweep

inductive Action where
  | pass
  | lease (id : Id) (heartbeatInterval : Option ℚ) (rounds : ℕ)
  /-- The worker of an attempt makes its next call, and the world is like this then. -/
  | call (id : Id) (event : Event Query Answer) (after : World)
  /-- The worker has come to its end, or its process is killed. -/
  | stop (id : Id)
  /-- A lease is reclaimed, or a job cancelled. -/
  | close (id : Id)
  | sweep (number : Nat)
  | sweepWorktree (number : Nat) (id : Id)
  | sweepPatch (number : Nat)
  | sweepStop (number : Nat)

section Steps

variable (isWorkspaceActor : String → Bool) (worktreePath : Id → String)

inductive Step (state : State) : Action → State → Prop where
  | pass : Step state .pass { state with world := { state.world with now := state.world.now + 1 } }
  | lease {id : Id} {heartbeatInterval : Option ℚ} {rounds : ℕ}
    (fresh : state.world.attempts id = none)
    : Step state (.lease id heartbeatInterval rounds)
        {
          state with
          world := state.world.openAttempt id
          running :=
            Function.update state.running id
              (some
                (Worker.processAttempt isWorkspaceActor worktreePath id heartbeatInterval rounds))
        }
  | call {id : Id} {query : Query} {answer : Answer query} {after : World}
    {next : Answer query → Run (Except Failure (Option ResultStatus))}
    (asks : state.running id = some (.call query next))
    (responds : Responds worktreePath id query state.world answer after)
    : Step state (.call id ⟨query, answer⟩ after)
        {
          state with
          world := after
          running := Function.update state.running id (some (next answer))
        }
  | stop {id : Id}
    : Step state (.stop id) { state with running := Function.update state.running id none }
  | close {id : Id} (opened : state.world.attempts id = some .opened)
    : Step state (.close id) { state with world := state.world.closeAttempt id }
  | sweep {number : Nat} (idle : state.sweeps number = none)
    : Step state (.sweep number)
        {
          state with
          sweeps := Function.update state.sweeps number (some ⟨state.world.reapable, none⟩)
        }
  | sweepWorktree {number : Nat} {id : Id} {reapable : Id → Bool} {there : Bool}
    (sweeps : state.sweeps number = some ⟨reapable, none⟩) (reaps : reapable id)
    (found : state.world.worktrees (worktreePath id))
    : Step state (.sweepWorktree number id)
        {
          state with
          world := state.world.setWorktree (worktreePath id) there
          sweeps := Function.update state.sweeps number (some ⟨reapable, some id⟩)
        }
  | sweepPatch {number : Nat} {id : Id} {reapable : Id → Bool} {data : Option Content}
    (sweeps : state.sweeps number = some ⟨reapable, some id⟩)
    (unlinked : data = none ∨ data = state.world.files (patchPath (worktreePath id)))
    : Step state (.sweepPatch number)
        {
          state with
          world := state.world.write (patchPath (worktreePath id)) data
          sweeps := Function.update state.sweeps number (some ⟨reapable, none⟩)
        }
  | sweepStop {number : Nat}
    : Step state (.sweepStop number)
        { state with sweeps := Function.update state.sweeps number none }

/-- Before the first attempt. -/
structure State.Fresh (state : State) : Prop where
  attempts : ∀ id, state.world.attempts id = none
  delivered : ∀ id, state.world.delivered id = none
  named : ∀ id, state.world.named id = none
  running : ∀ id, state.running id = none
  sweeps : ∀ number, state.sweeps number = none

/-- The states of a run all of whose steps meet the guard. -/
inductive Reaches (guard : State → Action → Prop) : State → Prop where
  | start {state : State} (fresh : state.Fresh) : Reaches guard state
  | step {state later : State} {action : Action} (reaches : Reaches guard state)
    (allowed : guard state action) (step : Step isWorkspaceActor worktreePath state action later)
    : Reaches guard later

end Steps

-- What is asked of the artifacts

/-- The file that a done job names is neither removed nor overwritten. -/
def KeepsDelivered (before after : World) : Prop :=
  ∀ id path data,
    before.delivered id = some (some path) → before.files path = some data
    → after.files path = some data

/-- What the answer of a call says about the end of the agent. -/
def named : Event Query Answer → Option String
  | ⟨.invoke _, .ok result⟩ => result.artifactRef
  | ⟨.waitAgent _, some (.ok result)⟩ => result.artifactRef
  | _ => none

/-- No agent names a patch of the workspace as its artifact, or a file that the agent of another
attempt has named; and no sweep finds the worktree of an attempt that has delivered its patch.
-/
def Orderly (worktreePath : Id → String) (state : State) : Action → Prop
  | .call id event after =>
      ∀ path ∈ named event,
        (∀ other, path ≠ patchPath (worktreePath other))
        ∧ ∀ other ≠ id,
            state.world.named other = some path
            → state.world.files path = none ∧ after.files path = none
  | .sweepWorktree _ id => state.world.delivered id ≠ some (some (patchPath (worktreePath id)))
  | _ => True

end Workspace

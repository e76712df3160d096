import Mathlib.Logic.Function.Basic
import Myndaix.Systems.Machine

/-! `deploy-sync.sh --apply`: any number of runs that copy the audited files from a commit, one
after the other, under a lock directory.
-/

namespace Deploy

open Systems

variable {Sha Content : Type}

-- What is deployed

inductive Target where
  | playFix
  | playReview
  | phone
deriving DecidableEq, Repr

/-- The audited surface, in the order of the loop. -/
def FILES : List Target :=
  [.playFix, .playReview, .phone]

/-- What stands in the place of a deployed file. -/
inductive Entry (Content : Type) where
  | regular (content : Content)
  | symlink
  | special
  /-- A directory, or a link to one. -/
  | directory
deriving DecidableEq, Repr

/-- The text of `.deployed-sha`; a write that fails can leave it cut off. -/
inductive Stamp (Sha : Type) where
  | sha (sha : Sha)
  | cut
deriving DecidableEq, Repr

/-- The three files and the stamp. -/
@[ext] structure Deployment (Sha Content : Type) where
  files : Target → Option (Entry Content)
  stamp : Option (Stamp Sha)

-- Runs

/-- How far the loop is with a file. -/
inductive CopyStep (Content : Type) where
  /-- Before the next file, or behind the last. -/
  | begin
  /-- `ref_blob` has answered, and the temporary file is there. -/
  | wanted (target : Target) (want : Content)
  | shown (target : Target) (want tmp : Content)
  /-- The temporary file has the hash that is wanted. -/
  | checked (target : Target) (want : Content)
  | installed (target : Target) (want : Content)
  /-- The temporary file has gone into a directory that stands in the place of the file. -/
  | inside (target : Target)

/-- The file that is in its place although the loop is not done with it. -/
def CopyStep.placed : CopyStep Content → List Target
  | .begin | .wanted _ _ | .shown _ _ _ | .checked _ _ | .inside _ => []
  | .installed target _ => [target]

/-- The loop over the files of a commit, and what was deployed when its run took the lock. -/
structure Job (Sha Content : Type) where
  before : Deployment Sha Content
  sha : Sha
  replaced : List Target
  rest : List Target

inductive Stage (Sha Content : Type) where
  | away
  | started
  | locked (before : Deployment Sha Content)
  | copying (job : Job Sha Content) (step : CopyStep Content)
  /-- The stamp is written, the last line of the log is not. -/
  | stamped (before : Deployment Sha Content) (sha : Sha)
  | failed
  | succeeded (sha : Sha)

/-- What was deployed when the run took the lock that it has. -/
def Stage.before : Stage Sha Content → Option (Deployment Sha Content)
  | .locked before => some before
  | .copying job _ => some job.before
  | .stamped before _ => some before
  | _ => none

structure State (Sha Content : Type) where
  deployment : Deployment Sha Content
  /-- The directory `.deploy.lock` is there. -/
  lock : Bool
  stage : Nat → Stage Sha Content

inductive Action (Sha Content : Type) where
  | start (run : Nat)
  /-- `mkdir "$_LOCK"`. -/
  | lock (run : Nat)
  /-- The fetch, `rev-parse` and the guard against skew, with the commit that the ref is pinned to.
  -/
  | resolve (run : Nat) (sha : Sha)
  | want (run : Nat)
  /-- `git show`, with what it writes. -/
  | materialize (run : Nat) (tmp : Content)
  | check (run : Nat)
  /-- The backup, and `mv -f "$tmp" "$dst"`. -/
  | install (run : Nat)
  | inspect (run : Nat)
  | stamp (run : Nat)
  /-- The stamp is opened, but not written. -/
  | cut (run : Nat)
  | finish (run : Nat)
  /-- The next command fails, without an effect on what is deployed. -/
  | fail (run : Nat)
  /-- The process is killed, and no trap runs. -/
  | kill (run : Nat)

namespace State

def setStage (state : State Sha Content) (run : Nat) (stage : Stage Sha Content)
    : State Sha Content :=
  { state with stage := Function.update state.stage run stage }

/-- The end of a run; the trap removes the lock if the run has it. -/
def leave (state : State Sha Content) (run : Nat) (stage : Stage Sha Content)
    : State Sha Content :=
  {
    state.setStage run stage with
    lock := if (state.stage run).before.isSome then false else state.lock
  }

def install (state : State Sha Content) (target : Target) (content : Content)
    : State Sha Content :=
  {
    state with
    deployment :=
      {
        state.deployment with
        files := Function.update state.deployment.files target (some (.regular content))
      }
  }

def setStamp (state : State Sha Content) (stamp : Stamp Sha) : State Sha Content :=
  { state with deployment := { state.deployment with stamp := some stamp } }

end State

section Apply

variable [DecidableEq Content]

-- The content of the files at the commits.
variable (tree : Sha → Target → Option Content)

def step : Action Sha Content → State Sha Content → Option (State Sha Content)
  | .start run, state =>
      match state.stage run with
      | .away | .failed | .succeeded _ => some (state.setStage run .started)
      | _ => none
  | .lock run, state =>
      match state.stage run with
      | .started =>
          if state.lock then some (state.setStage run .failed)
          else some { state.setStage run (.locked state.deployment) with lock := true }
      | _ => none
  | .resolve run sha, state =>
      match state.stage run with
      | .locked before => some (state.setStage run (.copying ⟨before, sha, [], FILES⟩ .begin))
      | _ => none
  | .want run, state =>
      match state.stage run with
      | .copying ⟨before, sha, replaced, target :: rest⟩ .begin =>
          match tree sha target with
          | some want =>
              some (state.setStage run
                (.copying ⟨before, sha, replaced, rest⟩ (.wanted target want)))
          | none => none
      | _ => none
  | .materialize run tmp, state =>
      match state.stage run with
      | .copying job (.wanted target want) =>
          some (state.setStage run (.copying job (.shown target want tmp)))
      | _ => none
  | .check run, state =>
      match state.stage run with
      | .copying job (.shown target want tmp) =>
          if tmp = want then some (state.setStage run (.copying job (.checked target want)))
          else none
      | _ => none
  | .install run, state =>
      match state.stage run with
      | .copying job (.checked target want) =>
          if state.deployment.files target = some .directory then
            some (state.setStage run (.copying job (.inside target)))
          else
            some ((state.setStage run (.copying job (.installed target want))).install target want)
      | _ => none
  | .inspect run, state =>
      match state.stage run with
      | .copying job (.installed target want) =>
          if state.deployment.files target = some (.regular want) then
            some
              (state.setStage run
                (.copying { job with replaced := job.replaced ++ [target] } .begin))
          else none
      | _ => none
  | .stamp run, state =>
      match state.stage run with
      | .copying ⟨before, sha, _, []⟩ .begin =>
          some ((state.setStage run (.stamped before sha)).setStamp (.sha sha))
      | _ => none
  | .cut run, state =>
      match state.stage run with
      | .copying ⟨_, _, _, []⟩ .begin => some ((state.leave run .failed).setStamp .cut)
      | _ => none
  | .finish run, state =>
      match state.stage run with
      | .stamped _ sha => some (state.leave run (.succeeded sha))
      | _ => none
  | .fail run, state =>
      match state.stage run with
      | .started | .locked _ | .copying _ _ | .stamped _ _ => some (state.leave run .failed)
      | _ => none
  | .kill run, state => some (state.setStage run .away)

/-- The runs on one machine, whatever is deployed there. -/
def sync : Machine (State Sha Content) (Action Sha Content) where
  initial state := state.lock = false ∧ state.stage = fun _ => .away
  step := step tree

end Apply

-- What is asked of a deploy

section Asked

variable (tree : Sha → Target → Option Content)

/-- All files are those of the commit that the stamp names. -/
def Deployed (sha : Sha) (deployment : Deployment Sha Content) : Prop :=
  (∀ target,
      ∃ content, tree sha target = some content ∧ deployment.files target = some (.regular content))
  ∧ deployment.stamp = some (.sha sha)

/-- What was deployed when the run came to the lock. -/
def State.beforeRun (state : State Sha Content) (run : Nat) : Deployment Sha Content :=
  (state.stage run).before.getD state.deployment

/-- What a run has put into place was there before: the same files, and the same stamp. -/
def Stage.Idle : Stage Sha Content → Prop
  | .copying job step =>
      ∀ target ∈ job.replaced ++ step.placed,
        ∃ content,
          tree job.sha target = some content ∧ job.before.files target = some (.regular content)
  | .stamped before sha => Deployed tree sha before
  | _ => True

/-- A run fails, if it does, before it has changed anything. -/
def Early (state : State Sha Content) : Action Sha Content → Prop
  | .fail run => (state.stage run).Idle tree
  | .cut run => (state.stage run).Idle tree ∧ (state.beforeRun run).stamp = some .cut
  | _ => True

end Asked

end Deploy

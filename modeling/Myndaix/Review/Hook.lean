import Mathlib.Logic.Function.Basic
import Mathlib.Tactic.SplitIfs
import Myndaix.Systems.Machine

/-! The pre-push hook on one ref: its FRONT, which walks the skip markers and starts a worker
for each push, and the workers, which remember a skipped range in a marker of its tip.

The model takes the pruning of old markers away, and lets the lock of the repository contend any
worker that starts: who holds it, and for which ref, is not its matter.
-/

namespace Review

open Systems

-- The walk over the skip markers

/-- What `fold_walk` asks of a sha. -/
structure Git (Sha : Type) where
  /-- `^[0-9a-f]{40}$` matches it. -/
  fullHex : Sha → Bool
  /-- `git cat-file -e "${_prev}^{commit}"`. -/
  isCommit : Sha → Bool
  /-- `git merge-base --is-ancestor`. -/
  isAncestor : Sha → Sha → Bool

section Walk

variable {Sha : Type} [DecidableEq Sha]

/-- The base that a turn of the loop of `fold_walk` goes on to, unless it stops. -/
def foldHop (git : Git Sha) (skipped : Sha → Option Sha) (localsha b : Sha) : Option Sha :=
  match skipped b with
  | none => none
  | some prev =>
      if git.fullHex prev = false then none
      else if prev = localsha then none
      else if git.isCommit prev = false then none
      else if git.isAncestor prev localsha = false then none
      else some prev

/-- The same, with the number of hops that are left. -/
def foldNext (git : Git Sha) (skipped : Sha → Option Sha) (localsha b : Sha)
    : Nat → Option (Sha × Nat)
  | 0 => none
  | hops + 1 => (foldHop git skipped localsha b).map (fun prev => (prev, hops))

/-- The number of skips that a walk folds. -/
def foldHops : Nat := 10

/-- A hop is folded where its skip marker says. -/
theorem foldHop_marked {git : Git Sha} {skipped : Sha → Option Sha} {localsha b prev : Sha}
    (found : foldHop git skipped localsha b = some prev)
    : skipped b = some prev := by
  unfold foldHop at found
  cases there : skipped b with
  | none =>
      rw [there] at found
      cases found
  | some content =>
      simp only [there] at found
      split_ifs at found
      exact found

/-- The base that a walk goes on to is the content of a marker. -/
theorem foldNext_marked {git : Git Sha} {skipped : Sha → Option Sha} {localsha b prev : Sha}
    {hops left : Nat} (next : foldNext git skipped localsha b hops = some (prev, left))
    : skipped b = some prev := by
  cases hops with
  | zero => cases next
  | succ hops =>
      simp only [foldNext, Option.map_eq_some_iff, Prod.mk.injEq] at next
      obtain ⟨_, found, rfl, _⟩ := next
      exact foldHop_marked found

end Walk

-- The hook's processes and what they share

/-- What a worker is about to do. -/
inductive HookStage where
  /-- Take the lock of the repository. -/
  | starting
  /-- Record the skip, as the lock is held. -/
  | contended
  /-- Look for the done marker of its tip. -/
  | locked
  /-- Walk the skip markers again, with so many hops left. -/
  | walking (hops : Nat)
  /-- Record its own push as skipped until it is delivered. -/
  | recording
  /-- Check the caps and the canaries, and review the range. -/
  | reviewing
  /-- Ask the remote whether the ref is at its tip. -/
  | confirming
  /-- Write the verdict to the inbox. -/
  | delivering (pushed : Bool)
  /-- Write or remove the skip marker; the ref had so many values at the delivery. -/
  | settling (seen : Nat)
  /-- Write the done marker. -/
  | marking
  | exited
deriving DecidableEq

structure HookWorker (Sha : Type) where
  base : Sha
  origBase : Sha
  tip : Sha
  /-- `backlog_base` is set, which is to `orig_base` always. -/
  backlog : Bool
  stage : HookStage

/-- A verdict in the inbox: its range, whether the worker fell back to its own hop, and how many
values the ref had had.
-/
structure Delivery (Sha : Type) where
  base : Sha
  tip : Sha
  backlog : Bool
  seen : Nat

/-- The push that is under way: its FRONT walks, or the remote has yet to answer. -/
inductive Front (Sha : Type) where
  | idle
  | walking (localsha b : Sha) (hops : Nat)
  | sent (localsha : Sha)

structure HookState (Sha : Type) where
  /-- The base that the ref starts from, then every value that it was pushed to. -/
  values : List Sha
  /-- The last of them. -/
  remote : Sha
  /-- The ref is there: until its first push it is not, and has no value but a base. -/
  standing : Bool
  skipped : Sha → Option Sha
  done : Sha → Bool
  front : Front Sha
  /-- How many values the newest push found, and the base that its FRONT folded to. -/
  newest : Nat × Sha
  workers : List (HookWorker Sha)
  deliveries : List (Delivery Sha)

inductive HookAction (Sha : Type) where
  /-- A push of the ref, forced or not. -/
  | push (localsha : Sha)
  /-- A turn of the FRONT's walk. -/
  | hop
  /-- The remote takes the push, or the push fails. -/
  | answer (accepted : Bool)
  /-- A worker finds the lock held. -/
  | contend (worker : Nat)
  /-- What a worker is about to do succeeds. -/
  | proceed (worker : Nat)
  /-- What a worker is about to do fails. -/
  | fail (worker : Nat)
  /-- The folded range is over a cap, and the worker falls back to its own. -/
  | fallBack (worker : Nat)
  /-- A worker is killed, or aborts. -/
  | exit (worker : Nat)

namespace HookState

variable {Sha : Type} [DecidableEq Sha]

def setWorker (state : HookState Sha) (index : Nat) (worker : HookWorker Sha) : HookState Sha :=
  { state with workers := state.workers.set index worker }

/-- `write_skip_marker`. -/
def writeSkipMarker (state : HookState Sha) (tip content : Sha) : HookState Sha :=
  { state with skipped := Function.update state.skipped tip (some content) }

def removeSkipMarker (state : HookState Sha) (tip : Sha) : HookState Sha :=
  { state with skipped := Function.update state.skipped tip none }

def markDone (state : HookState Sha) (tip : Sha) : HookState Sha :=
  { state with done := Function.update state.done tip true }

def deliver (state : HookState Sha) (worker : HookWorker Sha) : HookState Sha :=
  {
    state with
    deliveries :=
      state.deliveries
        ++ [⟨worker.base, worker.tip, worker.backlog, state.values.length⟩]
  }

/-- The FRONT starts the worker of a push. -/
def spawn (state : HookState Sha) (localsha base : Sha) : HookState Sha :=
  {
    state with
    front := .sent localsha,
    newest := (state.values.length, base),
    workers := state.workers ++ [⟨base, state.remote, localsha, false, .starting⟩]
  }

/-- A push of the value that the ref has is none. -/
def push (state : HookState Sha) (localsha : Sha) : Option (HookState Sha) :=
  match state.front with
  | .idle =>
      if localsha = state.remote then none
      else if state.standing then
        some { state with front := .walking localsha state.remote foldHops }
      else some (state.spawn localsha state.remote)
  | _ => none

def hop (git : Git Sha) (state : HookState Sha) : Option (HookState Sha) :=
  match state.front with
  | .walking localsha b hops =>
      match foldNext git state.skipped localsha b hops with
      | some (prev, left) => some { state with front := .walking localsha prev left }
      | none => some (state.spawn localsha b)
  | _ => none

def answer (state : HookState Sha) : Bool → Option (HookState Sha)
  | true =>
      match state.front with
      | .sent localsha =>
          some {
            state with
            values := state.values ++ [localsha],
            remote := localsha,
            standing := true,
            front := .idle
          }
      | _ => none
  | false =>
      match state.front with
      | .idle => none
      | _ => some { state with front := .idle }

/-- What a worker is about to do succeeds. -/
def proceed (git : Git Sha) (state : HookState Sha) (index : Nat) (worker : HookWorker Sha)
    : Option (HookState Sha) :=
  let next (stage : HookStage) : HookWorker Sha := { worker with stage := stage }
  match worker.stage with
  | .starting => some (state.setWorker index (next .locked))
  | .contended =>
      some ((state.writeSkipMarker worker.tip worker.base).setWorker index (next .exited))
  | .locked =>
      some (state.setWorker index
        (next (if state.done worker.tip then .exited else .walking foldHops)))
  | .walking hops =>
      match foldNext git state.skipped worker.tip worker.base hops with
      | some (prev, left) =>
          some (state.setWorker index { worker with base := prev, stage := .walking left })
      | none => some (state.setWorker index (next .recording))
  | .recording =>
      some ((state.writeSkipMarker worker.tip worker.origBase).setWorker index (next .reviewing))
  | .reviewing => some (state.setWorker index (next .confirming))
  | .confirming =>
      some (state.setWorker index
        (next (.delivering (state.standing && state.remote = worker.tip))))
  | .delivering pushed =>
      some ((state.deliver worker).setWorker index
        (next (if pushed then .settling state.values.length else .exited)))
  | .settling _ =>
      if worker.backlog then
        some ((state.writeSkipMarker worker.tip worker.origBase).setWorker index
          (next .marking))
      else some ((state.removeSkipMarker worker.tip).setWorker index (next .marking))
  | .marking => some ((state.markDone worker.tip).setWorker index (next .exited))
  | .exited => none

/-- The stage after what a worker was about to do has failed. -/
def afterFailure : HookStage → Option HookStage
  | .contended => some .exited
  | .recording => some .reviewing
  | .confirming => some (.delivering false)
  | .delivering _ => some .exited
  | .settling _ => some .marking
  | .marking => some .exited
  | _ => none

/-- What an action of a worker does. -/
def act (git : Git Sha) (state : HookState Sha) (index : Nat) (worker : HookWorker Sha)
    : HookAction Sha → Option (HookState Sha)
  | .contend _ =>
      if worker.stage = .starting then
        some (state.setWorker index { worker with stage := .contended })
      else none
  | .proceed _ => state.proceed git index worker
  | .fail _ =>
      (afterFailure worker.stage).map
        (fun stage => state.setWorker index { worker with stage := stage })
  | .fallBack _ =>
      if worker.stage = .reviewing ∧ worker.base ≠ worker.origBase then
        some (state.setWorker index { worker with base := worker.origBase, backlog := true })
      else none
  | .exit _ => some (state.setWorker index { worker with stage := .exited })
  | _ => none

end HookState

/-- The worker that an action is one of. -/
def HookAction.worker? {Sha : Type} : HookAction Sha → Option Nat
  | .contend worker | .proceed worker | .fail worker | .fallBack worker | .exit worker =>
      some worker
  | .push _ | .hop | .answer _ => none

variable {Sha : Type} [DecidableEq Sha]

/-- The pushes of one ref from one clone, one after the other, and the workers that they start.
-/
def hookMachine (git : Git Sha) : Machine (HookState Sha) (HookAction Sha) where
  initial state :=
    state.values = [state.remote]
    ∧ (∀ sha, state.skipped sha = none)
    ∧ state.front = .idle
    ∧ state.newest = (1, state.remote)
    ∧ state.workers = []
    ∧ state.deliveries = []
  step
    | .push localsha, state => state.push localsha
    | .hop, state => state.hop git
    | .answer accepted, state => state.answer accepted
    | action, state => do
        let index ← action.worker?
        let worker ← state.workers[index]?
        state.act git index worker action

end Review

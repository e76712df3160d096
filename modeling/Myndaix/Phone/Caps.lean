import Mathlib.Logic.Function.Basic
import Myndaix.Systems.Machine

/-! The caps of the phone surface: sessions count up, under the lock of their verb, the counter of
the window that they have read from the clock before they have the lock.

Days and hours are numbered, and time passes in hours.
-/

namespace Phone

open Systems

-- Calls

inductive Verb where
  | status
  | ask
  | get
  | reel
deriving DecidableEq, Repr

inductive Window where
  | day
  | hour
deriving DecidableEq, Repr

/-- The window that a verb gives to `cap_or_deny`. -/
def Verb.window : Verb → Window
  | .status => .hour
  | .ask | .get | .reel => .day

/-- The window that the clock is in, by its number. -/
def Window.stamp : Window → Nat → Nat
  | .hour, hours => hours
  | .day, hours => hours / 24

/-- The file that a call counts in. -/
structure Counter where
  verb : Verb
  stamp : Nat
deriving DecidableEq, Repr

/-- How far a session is in `cap_take`. -/
inductive Stage where
  | away
  /-- The stamp is read, and the lock is asked for. -/
  | waiting (cf : Counter)
  | locked (cf : Counter)
  /-- The counter was read, and is below the limit. -/
  | counted (cf : Counter) (n : Nat)
  /-- The counter is moved into its place, and the loop removes the others of the verb. -/
  | sweeping (cf : Counter)
deriving DecidableEq, Repr

/-- The counter of a session that can still be granted its call. -/
def Stage.call : Stage → Option Counter
  | .away => none
  | .waiting cf | .locked cf | .counted cf _ | .sweeping cf => some cf

/-- The counter of a session that has the lock. -/
def Stage.held : Stage → Option Counter
  | .away | .waiting _ => none
  | .locked cf | .counted cf _ | .sweeping cf => some cf

/-- The state directory, the clock and the sessions; `granted` counts the calls that succeeded. -/
structure State where
  now : Nat
  counters : Counter → Option Nat
  lock : Verb → Option Nat
  stage : Nat → Stage
  granted : Counter → Nat

inductive Action where
  /-- An hour passes. -/
  | pass
  | call (session : Nat) (verb : Verb)
  | lock (session : Nat)
  | check (session : Nat)
  | store (session : Nat)
  | sweep (session : Nat) (old : Counter)
  | finish (session : Nat)
  /-- A command fails, the lock is not had in time, or the session is killed. -/
  | fail (session : Nat)
deriving DecidableEq, Repr

namespace State

/-- The number in a counter; one that is not there is zero. -/
def count (state : State) (cf : Counter) : Nat :=
  (state.counters cf).getD 0

def setStage (state : State) (session : Nat) (stage : Stage) : State :=
  { state with stage := Function.update state.stage session stage }

def lockBy (state : State) (session : Nat) (verb : Verb) : State :=
  { state with lock := Function.update state.lock verb (some session) }

/-- Store a counter, or remove it. -/
def write (state : State) (cf : Counter) (amount : Option Nat) : State :=
  { state with counters := Function.update state.counters cf amount }

def grant (state : State) (cf : Counter) : State :=
  { state with granted := Function.update state.granted cf (state.granted cf + 1) }

/-- The child is gone, and the kernel has released its lock. -/
def leave (state : State) (session : Nat) : State :=
  {
    state.setStage session .away with
    lock :=
      match (state.stage session).held with
      | some cf => Function.update state.lock cf.verb none
      | none => state.lock
  }

end State

section Caps

variable (limit : Verb → Nat)

def step : Action → State → Option State
  | .pass, state => some { state with now := state.now + 1 }
  | .call session verb, state =>
      if state.stage session = .away then
        some (state.setStage session (.waiting ⟨verb, verb.window.stamp state.now⟩))
      else none
  | .lock session, state =>
      match state.stage session with
      | .waiting cf =>
          if state.lock cf.verb = none then
            some ((state.setStage session (.locked cf)).lockBy session cf.verb)
          else none
      | _ => none
  | .check session, state =>
      match state.stage session with
      | .locked cf =>
          if state.count cf < limit cf.verb then
            some (state.setStage session (.counted cf (state.count cf)))
          else some (state.leave session)
      | _ => none
  | .store session, state =>
      match state.stage session with
      | .counted cf n => some ((state.setStage session (.sweeping cf)).write cf (some (n + 1)))
      | _ => none
  | .sweep session old, state =>
      match state.stage session with
      | .sweeping cf =>
          if old.verb = cf.verb ∧ old ≠ cf then some (state.write old none) else none
      | _ => none
  | .finish session, state =>
      match state.stage session with
      | .sweeping cf => some ((state.leave session).grant cf)
      | _ => none
  | .fail session, state => some (state.leave session)

/-- The sessions of the surface, from the day on which it is deployed. -/
def caps : Machine State Action where
  initial state :=
    state.counters = (fun _ => none) ∧ state.lock = (fun _ => none) ∧ state.stage = (fun _ => .away)
    ∧ state.granted = fun _ => 0
  step := step limit

end Caps

-- What is asked of the caps

/-- Calls can still be granted in this window: it is not over, or a session has its stamp. -/
def State.Live (state : State) (cf : Counter) : Prop :=
  cf.verb.window.stamp state.now ≤ cf.stamp ∨ ∃ session, (state.stage session).call = some cf

/-- No counter of a live window is removed or lowered. -/
def KeepsLive (state later : State) : Prop :=
  ∀ cf n, state.Live cf → state.counters cf = some n → ∃ m, later.counters cf = some m ∧ n ≤ m

/-- No other counter of the verb is of a live window. -/
def State.Alone (state : State) (cf : Counter) : Prop :=
  ∀ other, other.verb = cf.verb → other ≠ cf → state.Live other → state.counters other = none

/-- A call below its limit gets the lock only when no other window of its verb has both a counter
and calls to come.
-/
def Timely (limit : Verb → Nat) (state : State) : Action → Prop
  | .lock session =>
      ∀ cf, state.stage session = .waiting cf → state.count cf < limit cf.verb → state.Alone cf
  | _ => True

end Phone

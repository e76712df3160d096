/-! Machines that take labelled steps, the runs all of whose steps meet a guard, and the rule
that carries an invariant along them.
-/

namespace Systems

/-- What can be the first state, and where an action leads from a state it is possible in. -/
structure Machine (State Action : Type) where
  initial : State → Prop
  step : Action → State → Option State

namespace Machine

variable {State Action : Type} (machine : Machine State Action)
variable {guard weaker : State → Action → Prop} {state later : State}

/-- The states that a run whose every step meets the guard comes to. -/
inductive Runs (guard : State → Action → Prop) : State → Prop
  | start {state : State} (initial : machine.initial state) : Runs guard state
  | step {state later : State} {action : Action} (run : Runs guard state)
    (allowed : guard state action) (taken : machine.step action state = some later)
    : Runs guard later

variable {machine}

/-- What every first state has and every allowed step keeps, every state of a run has. -/
theorem Runs.invariant {holds : State → Prop}
    (base : ∀ state, machine.initial state → holds state)
    (keeps
      : ∀ state later action,
          holds state
          → guard state action
          → machine.step action state = some later
          → holds later)
    (run : machine.Runs guard state)
    : holds state := by
  induction run with
  | start initial => exact base _ initial
  | step _ allowed taken ih => exact keeps _ _ _ ih allowed taken

/-- A run stays one under a guard that asks for less. -/
theorem Runs.weaken (implied : ∀ state action, guard state action → weaker state action)
    (run : machine.Runs guard state)
    : machine.Runs weaker state := by
  induction run with
  | start initial => exact .start initial
  | step _ allowed taken ih => exact ih.step (implied _ _ allowed) taken

/-- Take the actions in turn, as long as the guard allows them. -/
def play (machine : Machine State Action) (guard : State → Action → Prop)
    [∀ state action, Decidable (guard state action)] : List Action → State → Option State
  | [], state => some state
  | action :: actions, state =>
      if guard state action then
        (machine.step action state).bind (machine.play guard actions)
      else none

theorem Runs.play [∀ state action, Decidable (guard state action)]
    (run : machine.Runs guard state) (actions : List Action)
    (played : machine.play guard actions state = some later)
    : machine.Runs guard later := by
  induction actions generalizing state with
  | nil => exact Option.some.inj played ▸ run
  | cons action actions ih =>
      simp only [Machine.play] at played
      split at played
      · rename_i allowed
        obtain ⟨next, taken, rest⟩ := Option.bind_eq_some_iff.mp played
        exact ih (run.step allowed taken) rest
      · cases played

end Machine

end Systems

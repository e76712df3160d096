import Myndaix.Interaction.Contracts

/-! Programs that run one after another in a world that outlives them: each comes to its end or is
cut off between two of its calls, and leaves its effects behind.
-/

namespace Interaction.Program

variable {Query : Type} {Answer : Query → Type} {First State Error : Type}

/-- From one state the program comes to another, where it has its result or has none yet. -/
def Executes (setting : Setting Query Answer State)
    : Program Query Answer First → State → Option First → State → Prop
  | .done value, state, result, after =>
      setting.interferes state after ∧ (result = some value ∨ result = none)
  | .call query next, state, result, after =>
      result = none ∧ setting.interferes state after
      ∨ ∃ now answer later,
          setting.interferes state now ∧ setting.answers query now answer later
          ∧ (next answer).Executes setting later result after

variable {setting : Setting Query Answer State} {program : Program Query Answer First}
  {post : First → State → Prop} {state after : State} {result : Option First}

/-- Running alone is one way to execute. -/
theorem Executes.of_run
    {respond : (query : Query) → State → Except Error (Answer query × State)}
    (answers
      : ∀ {query state answered},
          respond query state = .ok answered
          → setting.answers query state answered.1 answered.2)
    {value : First} (ran : program.run respond state = .ok (value, after))
    : program.Executes setting state (some value) after := by
  induction program generalizing state with
  | done result =>
      cases ran
      exact ⟨setting.interferes_refl _, .inl rfl⟩
  | call query next ih =>
      unfold run at ran
      split at ran
      · rename_i answer later answered
        exact .inr ⟨state, answer, later, setting.interferes_refl _, answers answered, ih _ ran⟩
      · cases ran

/-- What happens before the first call can as well have happened earlier. -/
theorem Executes.interfere {earlier : State}
    (executes : program.Executes setting state result after)
    (moved : setting.interferes earlier state)
    : program.Executes setting earlier result after := by
  cases program with
  | done value => exact ⟨setting.interferes_trans moved executes.1, executes.2⟩
  | call query next =>
      rcases executes with ⟨rfl, ended⟩ | ⟨now, answer, later, before, answered, executes⟩
      · exact .inl ⟨rfl, setting.interferes_trans moved ended⟩
      · exact .inr ⟨now, answer, later, setting.interferes_trans moved before, answered, executes⟩

/-- Wherever an execution has come to, the next call is permitted there or the end was reached, and
a result meets the contract. By induction on the program.
-/
theorem Ensures.executed (ensures : program.Ensures setting post state)
    (executes : program.Executes setting state result after)
    : (∀ value, result = some value → post value after)
      ∧ ((∃ query, setting.permits after query) ∨ ∃ value, post value after) := by
  induction program generalizing state with
  | done value =>
      obtain ⟨moved, ended⟩ := executes
      have holds := ensures after moved
      refine ⟨fun other same => ?_, .inr ⟨value, holds⟩⟩
      rcases ended with rfl | rfl
      · cases same
        exact holds
      · cases same
  | call query next ih =>
      rcases executes with ⟨rfl, moved⟩ | ⟨now, answer, later, moved, answered, executes⟩
      · exact ⟨nofun, .inl ⟨query, (ensures after moved).1⟩⟩
      · exact ih answer ((ensures now moved).2 answer later answered) executes

/-- The states between the runs of one program after another, each of which came to its end or was
cut off where that can happen.
-/
inductive Repeats (setting : Setting Query Answer State) (program : Program Query Answer First)
    (cuttable : State → Prop) (start : State)
    : State → Prop
  | start : Repeats setting program cuttable start start
  | again {state after : State} {result : Option First}
    (earlier : Repeats setting program cuttable start state)
    (executes : program.Executes setting state result after)
    (cut : result = none → cuttable after)
    : Repeats setting program cuttable start after

/-- What each run keeps, and what holds wherever one is cut off, holds between all runs. -/
theorem Repeats.invariant {cuttable holds : State → Prop} {start : State}
    (repeats : Repeats setting program cuttable start state) (initially : holds start)
    (keeps : ∀ state, holds state → program.Ensures setting (fun _ later => holds later) state)
    (calls : ∀ state query, cuttable state → setting.permits state query → holds state)
    : holds state := by
  induction repeats with
  | start => exact initially
  | @again state after result _ executes cut ih =>
      obtain ⟨ended, within⟩ := (keeps state ih).executed executes
      cases result with
      | some value => exact ended value rfl
      | none =>
          rcases within with ⟨query, permitted⟩ | ⟨_, holds⟩
          · exact calls after query (cut rfl) permitted
          · exact holds

end Interaction.Program

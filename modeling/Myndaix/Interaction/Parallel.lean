import Mathlib.Logic.Function.Basic
import Myndaix.Interaction.Contracts

/-! Programs that run at the same time in one world. Each has its contract in its own setting, and
what one is permitted to do there interferes with none of the others.
-/

namespace Interaction.Program

variable {Process Query : Type} {Answer : Query → Type} {First State : Type}
variable (settings : Process → Setting Query Answer State)
  (post : Process → First → State → Prop)

/-- Every program that runs meets its contract from here on. -/
def Verified (running : Process → Option (Program Query Answer First)) (state : State) : Prop :=
  ∀ process program,
    running process = some program
    → program.Ensures (settings process) (post process) state

variable {settings post} {running : Process → Option (Program Query Answer First)}
  {state later : State} {process : Process} {program : Program Query Answer First}

theorem Verified.interfere (verified : Verified settings post running state)
    (moved : ∀ process, (settings process).interferes state later)
    : Verified settings post running later :=
  fun process program runs => (verified process program runs).interfere (moved process)

variable [DecidableEq Process]

theorem Verified.start (verified : Verified settings post running state)
    (ensures : program.Ensures (settings process) (post process) state)
    : Verified settings post (Function.update running process (some program)) state := by
  intro other own runs
  by_cases same : other = process
  · subst same
    rw [Function.update_self] at runs
    cases runs
    exact ensures
  · rw [Function.update_of_ne same] at runs
    exact verified other own runs

/-- A program comes to its end, or is killed. -/
theorem Verified.stop (verified : Verified settings post running state) (process : Process)
    : Verified settings post (Function.update running process none) state := by
  intro other own runs
  by_cases same : other = process
  · subst same
    rw [Function.update_self] at runs
    cases runs
  · rw [Function.update_of_ne same] at runs
    exact verified other own runs

/-- A call is permitted, and the answer leaves all contracts in force. -/
theorem Verified.call {query : Query} {next : Answer query → Program Query Answer First}
    (verified : Verified settings post running state)
    (asks : running process = some (.call query next))
    : (settings process).permits state query
      ∧ ∀ answer,
          (settings process).answers query state answer later
          → (∀ other ≠ process, (settings other).interferes state later)
          → Verified settings post
            (Function.update running process (some (next answer))) later := by
  obtain ⟨permitted, continues⟩ :=
    verified process _ asks state ((settings process).interferes_refl _)
  refine ⟨permitted, fun answer answered moved other own runs => ?_⟩
  by_cases same : other = process
  · subst same
    rw [Function.update_self] at runs
    cases runs
    exact continues answer later answered
  · rw [Function.update_of_ne same] at runs
    exact (verified other own runs).interfere (moved other same)

end Interaction.Program

import Myndaix.Interaction.Contracts

/-! Executions with their history: each call with the state it found and the state it left. A
contract over the history speaks about every execution, up to its end or up to where it was cut off.
-/

namespace Interaction

/-- A call, from the state in which it was answered to the state after its answer. -/
structure Moment (Query : Type) (Answer : Query → Type) (State : Type) where
  before : State
  query : Query
  answer : Answer query
  after : State

variable {Query : Type} {Answer : Query → Type} {First State : Type}

/-- The setting in which the history counts as state, and what may be asked depends on it. -/
def Setting.recorded (setting : Setting Query Answer State)
    (permits : List (Moment Query Answer State) → State → Query → Prop)
    : Setting Query Answer (State × List (Moment Query Answer State)) where
  interferes := fun first second => setting.interferes first.1 second.1 ∧ first.2 = second.2
  answers := fun query first answer second =>
    setting.answers query first.1 answer second.1
    ∧ second.2 = first.2 ++ [⟨first.1, query, answer, second.1⟩]
  permits := fun first query => permits first.2 first.1 query
  interferes_refl := fun first => ⟨setting.interferes_refl first.1, rfl⟩
  interferes_trans := fun first second =>
    ⟨setting.interferes_trans first.1 second.1, first.2.trans second.2⟩

namespace Program

/-- From one state the program makes these calls on its way to another, where it has its result or
is cut off.
-/
def Performs (setting : Setting Query Answer State)
    : Program Query Answer First → State → List (Moment Query Answer State) → Option First → State
      → Prop
  | .done value, state, moments, result, after =>
      moments = [] ∧ setting.interferes state after ∧ (result = some value ∨ result = none)
  | .call query next, state, moments, result, after =>
      moments = [] ∧ setting.interferes state after ∧ result = none
      ∨ ∃ now answer later rest,
          moments = ⟨now, query, answer, later⟩ :: rest
          ∧ setting.interferes state now ∧ setting.answers query now answer later
          ∧ (next answer).Performs setting later rest result after

variable {setting : Setting Query Answer State}
  {permits : List (Moment Query Answer State) → State → Query → Prop}
  {post : First → State × List (Moment Query Answer State) → Prop}
  {program : Program Query Answer First} {state after : State} {result : Option First}
  {history moments : List (Moment Query Answer State)}

/-- A call is allowed in whatever state it finds, and what follows is right after every answer. -/
theorem Ensures.notes {query : Query} {next : Answer query → Program Query Answer First}
    (continues
      : ∀ now, setting.interferes state now
          → permits history now query
            ∧ ∀ answer later, setting.answers query now answer later
                → (next answer).Ensures (setting.recorded permits) post
                    (later, history ++ [⟨now, query, answer, later⟩]))
    : (ask query >>= next).Ensures (setting.recorded permits) post (state, history) := by
  refine Ensures.call fun ⟨now, known⟩ ⟨moved, same⟩ => ?_
  obtain rfl : history = known := same
  obtain ⟨permitted, follows⟩ := continues now moved
  refine ⟨permitted, fun answer ⟨later, known⟩ ⟨answered, grown⟩ => ?_⟩
  obtain rfl : known = history ++ [⟨now, query, answer, later⟩] := grown
  exact follows answer later answered

theorem Ensures.noted {result : First}
    (holds : ∀ later, setting.interferes state later → post result (later, history))
    : (Program.done result : Program Query Answer First).Ensures (setting.recorded permits) post
        (state, history) := by
  refine Ensures.done fun ⟨later, known⟩ ⟨moved, same⟩ => ?_
  obtain rfl : history = known := same
  exact holds later moved

/-- A contract over the history holds of every execution, by induction on the program. -/
theorem Ensures.performed
    (ensures : program.Ensures (setting.recorded permits) post (state, history))
    (performs : program.Performs setting state moments result after)
    : (∀ before moment rest,
        moments = before ++ moment :: rest
        → permits (history ++ before) moment.before moment.query
          ∧ setting.answers moment.query moment.before moment.answer moment.after)
      ∧ ∀ value, result = some value → post value (after, history ++ moments) := by
  induction program generalizing state history moments with
  | done value =>
      obtain ⟨rfl, moved, ended⟩ := performs
      refine ⟨fun before moment rest same => ?_, fun other isResult => ?_⟩
      · cases before <;> cases same
      · rcases ended with rfl | rfl
        · cases isResult
          rw [List.append_nil]
          exact ensures (after, history) ⟨moved, rfl⟩
        · cases isResult
  | call query next ih =>
      rcases performs with ⟨rfl, _, rfl⟩ |
        ⟨now, answer, later, rest, rfl, moved, answered, performs⟩
      · refine ⟨fun before moment rest same => ?_, fun _ isResult => by cases isResult⟩
        cases before <;> cases same
      · obtain ⟨permitted, continues⟩ := ensures (now, history) ⟨moved, rfl⟩
        have follows :=
          continues answer (later, history ++ [⟨now, query, answer, later⟩]) ⟨answered, rfl⟩
        obtain ⟨inner, ends⟩ := ih answer follows performs
        refine ⟨fun before moment more same => ?_, fun value isResult => ?_⟩
        · cases before with
          | nil =>
              cases same
              rw [List.append_nil]
              exact ⟨permitted, answered⟩
          | cons first before =>
              cases same
              have allowed := inner before moment more rfl
              rwa [List.append_assoc] at allowed
        · have holds := ends value isResult
          rwa [List.append_assoc] at holds

-- Replaying a history

/-- Each call was answered as the setting allows, in a state that the one before can have led to. -/
def Linked (setting : Setting Query Answer State)
    : State → List (Moment Query Answer State) → State → Prop
  | state, [], after => setting.interferes state after
  | state, moment :: rest, after =>
      setting.interferes state moment.before
      ∧ setting.answers moment.query moment.before moment.answer moment.after
      ∧ Linked setting moment.after rest after

/-- Where a program comes to with these answers, if these are the calls that it makes. -/
def replay [DecidableEq Query]
    : Program Query Answer First → List (Moment Query Answer State) → Option (Option First)
  | .done value, [] => some (some value)
  | .done _, _ :: _ => none
  | .call _ _, [] => some none
  | .call query next, moment :: rest =>
      if same : moment.query = query then (next (same ▸ moment.answer)).replay rest else none

/-- By induction on the program. -/
theorem performs_replay [DecidableEq Query] (linked : Linked setting state moments after)
    (replayed : program.replay moments = some result)
    : program.Performs setting state moments result after := by
  induction program generalizing state moments with
  | done value =>
      cases moments with
      | nil =>
          cases replayed
          exact ⟨rfl, linked, .inl rfl⟩
      | cons moment rest => cases replayed
  | call query next ih =>
      cases moments with
      | nil =>
          cases replayed
          exact .inl ⟨rfl, linked, rfl⟩
      | cons moment rest =>
          obtain ⟨moved, answered, linked⟩ := linked
          obtain ⟨now, asked, answer, later⟩ := moment
          simp only [replay] at replayed
          split at replayed
          · rename_i same
            cases same
            exact .inr ⟨now, answer, later, rest, rfl, moved, answered, ih answer linked replayed⟩
          · cases replayed

end Program

end Interaction

import Myndaix.Interaction.Contracts

/-! The traces of a program: what it asked and was answered, up to its end or up to where it was cut
off. A contract over the recorded history speaks about every trace.
-/

namespace Interaction

/-- A query with its answer. -/
abbrev Event (Query : Type) (Answer : Query → Type) : Type :=
  (query : Query) × Answer query

namespace Program

variable {Query : Type} {Answer : Query → Type} {First Second : Type}

/-- The program asks and is answered like this, and then has the result, or is cut off. -/
def Traces : Program Query Answer First → List (Event Query Answer) → Option First → Prop
  | .done value, trace, result => trace = [] ∧ (result = some value ∨ result = none)
  | .call query next, trace, result =>
      trace = [] ∧ result = none
      ∨ ∃ answer rest, trace = ⟨query, answer⟩ :: rest ∧ (next answer).Traces rest result

/-- Every program can be cut off before it asks anything. -/
theorem traces_nil (program : Program Query Answer First) : program.Traces [] none := by
  cases program with
  | done value => exact ⟨rfl, .inr rfl⟩
  | call query next => exact .inl ⟨rfl, rfl⟩

/-- A sequence is cut off in its first part, or goes through it and on, by induction on that part.
-/
theorem traces_bind {program : Program Query Answer First}
    {next : First → Program Query Answer Second} {trace : List (Event Query Answer)}
    {result : Option Second} (traces : (program >>= next).Traces trace result)
    : program.Traces trace none ∧ result = none
      ∨ ∃ before after middle,
          trace = before ++ after ∧ program.Traces before (some middle)
          ∧ (next middle).Traces after result := by
  induction program generalizing trace with
  | done value => exact .inr ⟨[], trace, value, rfl, ⟨rfl, .inl rfl⟩, traces⟩
  | call query rest ih =>
      rcases traces with ⟨rfl, rfl⟩ | ⟨answer, later, rfl, traces⟩
      · exact .inl ⟨.inl ⟨rfl, rfl⟩, rfl⟩
      · rcases ih answer traces with ⟨cut, isNone⟩ | ⟨before, after, middle, rfl, first, second⟩
        · exact .inl ⟨.inr ⟨answer, later, rfl, cut⟩, isNone⟩
        · exact .inr ⟨⟨query, answer⟩ :: before, after, middle, rfl,
            .inr ⟨answer, before, rfl, first⟩, second⟩

/-- A program that came to its end has first been answered what it asks first. -/
theorem traces_ask {query : Query} {next : Answer query → Program Query Answer First}
    {trace : List (Event Query Answer)} {value : First}
    (traces : (ask query >>= next).Traces trace (some value))
    : ∃ answer rest, trace = ⟨query, answer⟩ :: rest ∧ (next answer).Traces rest (some value) := by
  rcases traces with ⟨_, cut⟩ | continued
  · cases cut
  · exact continued

theorem traces_done {result value : First} {trace : List (Event Query Answer)}
    (traces : (Program.done result : Program Query Answer First).Traces trace (some value))
    : trace = [] ∧ value = result := by
  obtain ⟨rfl, same | cut⟩ := traces
  · exact ⟨rfl, Option.some.inj same⟩
  · cases cut

/-- A program that only asks is over with the answer. -/
theorem traces_answer {query : Query} {trace : List (Event Query Answer)} {value : Answer query}
    (traces : (ask query : Program Query Answer (Answer query)).Traces trace (some value))
    : trace = [⟨query, value⟩] := by
  rw [← bind_done (ask query)] at traces
  obtain ⟨answer, rest, rfl, ended⟩ := traces_ask traces
  obtain ⟨rfl, rfl⟩ := traces_done ended
  rfl

/-- Wrapping the result asks nothing. -/
theorem traces_map {program : Program Query Answer First} {wrap : First → Second}
    {trace : List (Event Query Answer)} {value : Second}
    (traces : (program >>= fun result => .done (wrap result)).Traces trace (some value))
    : ∃ result, value = wrap result ∧ program.Traces trace (some result) := by
  rcases traces_bind traces with ⟨_, cut⟩ | ⟨before, after, middle, rfl, first, second⟩
  · cases cut
  · obtain ⟨rfl, rfl⟩ := traces_done second
    exact ⟨middle, rfl, by rwa [List.append_nil]⟩

/-- The result of a program that makes exactly these calls and gets these answers. -/
def follow [DecidableEq Query] : Program Query Answer First → List (Event Query Answer)
    → Option First
  | .done value, [] => some value
  | .done _, _ :: _ => none
  | .call _ _, [] => none
  | .call query next, event :: rest =>
      if same : event.1 = query then (next (same ▸ event.2)).follow rest else none

/-- By induction on the program. -/
theorem traces_follow [DecidableEq Query] {program : Program Query Answer First}
    {trace : List (Event Query Answer)} {value : First}
    (followed : program.follow trace = some value)
    : program.Traces trace (some value) := by
  induction program generalizing trace with
  | done result =>
      cases trace with
      | nil => exact ⟨rfl, .inl followed.symm⟩
      | cons event rest => cases followed
  | call query next ih =>
      cases trace with
      | nil => cases followed
      | cons event rest =>
          obtain ⟨asked, answer⟩ := event
          simp only [follow] at followed
          split at followed
          · rename_i same
            cases same
            exact .inr ⟨answer, rest, rfl, ih answer followed⟩
          · cases followed

/-- What happens if each query always gets the same answer. -/
def log (respond : (query : Query) → Answer query)
    : Program Query Answer First → List (Event Query Answer)
  | .done _ => []
  | .call query next => ⟨query, respond query⟩ :: (next (respond query)).log respond

/-- The state is what was asked and answered so far; what may be asked depends on it. -/
def recording (permits : List (Event Query Answer) → Query → Prop)
    : Setting Query Answer (List (Event Query Answer)) where
  interferes := fun before after => before = after
  answers := fun query before answer after => after = before ++ [⟨query, answer⟩]
  permits := permits
  interferes_refl := fun _ => rfl
  interferes_trans := Eq.trans

variable {permits : List (Event Query Answer) → Query → Prop}
  {post : First → List (Event Query Answer) → Prop} {history : List (Event Query Answer)}

/-- A call is allowed now, and what follows is right after every answer. -/
theorem Ensures.records {query : Query} {next : Answer query → Program Query Answer First}
    (permitted : permits history query)
    (continues
      : ∀ answer,
          (next answer).Ensures (recording permits) post (history ++ [⟨query, answer⟩]))
    : (ask query >>= next).Ensures (recording permits) post history := by
  refine Ensures.call fun later same => ?_
  cases same
  exact ⟨permitted, fun answer after isNext => isNext ▸ continues answer⟩

/-- A program that only asks ends with any answer. -/
theorem Ensures.records_answer {query : Query}
    {post : Answer query → List (Event Query Answer) → Prop} (permitted : permits history query)
    (holds : ∀ answer, post answer (history ++ [⟨query, answer⟩]))
    : (ask query : Program Query Answer (Answer query)).Ensures
      (recording permits) post history := by
  refine Ensures.call fun later same => ?_
  cases same
  refine ⟨permitted, fun answer after isNext => Ensures.done fun later same => ?_⟩
  cases same
  exact isNext ▸ holds answer

theorem Ensures.recorded {result : First} (holds : post result history)
    : (Program.done result : Program Query Answer First).Ensures (recording permits) post history :=
  Ensures.done fun _ same => same ▸ holds

/-- A contract over the history holds of every trace, by induction on the program. -/
theorem Ensures.traced {program : Program Query Answer First}
    (ensures : program.Ensures (recording permits) post history)
    {trace : List (Event Query Answer)} {result : Option First}
    (traces : program.Traces trace result)
    : (∀ before event after,
        trace = before ++ event :: after → permits (history ++ before) event.1)
      ∧ ∀ value, result = some value → post value (history ++ trace) := by
  induction program generalizing history trace with
  | done value =>
      obtain ⟨rfl, ended⟩ := traces
      refine ⟨fun before event after same => ?_, fun other isResult => ?_⟩
      · cases before <;> cases same
      · rcases ended with rfl | rfl
        · cases isResult
          rw [List.append_nil]
          exact ensures history rfl
        · cases isResult
  | call query next ih =>
      obtain ⟨permitted, continues⟩ := ensures history rfl
      rcases traces with ⟨rfl, rfl⟩ | ⟨answer, rest, rfl, traces⟩
      · refine ⟨fun before event after same => ?_, fun _ isResult => by cases isResult⟩
        cases before <;> cases same
      · obtain ⟨inner, ends⟩ := ih answer (continues answer _ rfl) traces
        refine ⟨fun before event after same => ?_, fun value isResult => ?_⟩
        · cases before with
          | nil =>
              cases same
              rw [List.append_nil]
              exact permitted
          | cons first before =>
              cases same
              have allowed := inner before event after rfl
              rwa [List.append_assoc] at allowed
        · have holds := ends value isResult
          rwa [List.append_assoc] at holds

/-- A contract for a fresh history is one for every history, if the permission only needs the part
that is recorded from there.
-/
theorem Ensures.after {program : Program Query Answer First}
    {permitsAfter : List (Event Query Answer) → Query → Prop}
    {earlier : List (Event Query Answer)}
    (ensures : program.Ensures (recording permits) post history)
    (extends_ : ∀ later query, permits later query → permitsAfter (earlier ++ later) query)
    : program.Ensures (recording permitsAfter)
        (fun value whole => ∃ later, whole = earlier ++ later ∧ post value later)
        (earlier ++ history) := by
  induction program generalizing history with
  | done value =>
      intro later same
      cases same
      exact ⟨history, rfl, ensures history rfl⟩
  | call query next ih =>
      intro later same
      cases same
      obtain ⟨permitted, continues⟩ := ensures history rfl
      refine ⟨extends_ history query permitted, fun answer after isNext => ?_⟩
      cases isNext
      rw [List.append_assoc]
      exact ih answer (continues answer _ rfl)

end Program

end Interaction

import Myndaix.Interaction.Contracts

/-! What a program can come to when the answers to its queries are known only in part: each query
may be answered in any allowed way, whenever it is asked.
-/

namespace Interaction.Program

variable {Query : Type} {Answer : Query → Type} {First Second : Type}

/-- With some answers that are allowed, the program ends with this result. -/
def Yields (allowed : (query : Query) → Answer query → Prop)
    : Program Query Answer First → First → Prop
  | .done value, result => value = result
  | .call query next, result => ∃ answer, allowed query answer ∧ (next answer).Yields allowed result

/-- What the program ends with if each query always gets the same answer. -/
def answered (respond : (query : Query) → Answer query) : Program Query Answer First → First
  | .done value => value
  | .call query next => (next (respond query)).answered respond

@[simp] theorem answered_ask {respond : (query : Query) → Answer query} {query : Query}
    {next : Answer query → Program Query Answer First}
    : (ask query >>= next).answered respond = (next (respond query)).answered respond :=
  rfl

/-- By induction on the first program. -/
theorem answered_bind {respond : (query : Query) → Answer query}
    (program : Program Query Answer First) (next : First → Program Query Answer Second)
    : (program >>= next).answered respond
      = (next (program.answered respond)).answered respond := by
  induction program with
  | done value => rfl
  | call query rest ih => exact ih (respond query)

variable {allowed : (query : Query) → Answer query → Prop}

/-- By induction on the program. -/
theorem yields_answered {respond : (query : Query) → Answer query}
    (allows : ∀ query, allowed query (respond query)) (program : Program Query Answer First)
    : program.Yields allowed (program.answered respond) := by
  induction program with
  | done value => rfl
  | call query next ih => exact ⟨respond query, allows query, ih (respond query)⟩

@[simp] theorem yields_done {value result : First}
    : (Program.done value : Program Query Answer First).Yields allowed result ↔ value = result :=
  Iff.rfl

@[simp] theorem yields_call {query : Query} {next : Answer query → Program Query Answer First}
    {result : First}
    : (Program.call query next).Yields allowed result
      ↔ ∃ answer, allowed query answer ∧ (next answer).Yields allowed result :=
  Iff.rfl

/-- A sequence comes to what its second part comes to from what the first came to. -/
theorem yields_bind {program : Program Query Answer First}
    {next : First → Program Query Answer Second} {result : Second}
    : (program >>= next).Yields allowed result
      ↔ ∃ middle, program.Yields allowed middle ∧ (next middle).Yields allowed result := by
  induction program with
  | done value => simp
  | call query rest ih =>
      rw [call_bind, yields_call]
      constructor
      · rintro ⟨answer, allows, yields⟩
        obtain ⟨middle, first, second⟩ := (ih answer).mp yields
        exact ⟨middle, ⟨answer, allows, first⟩, second⟩
      · rintro ⟨middle, ⟨answer, allows, first⟩, second⟩
        exact ⟨answer, allows, (ih answer).mpr ⟨middle, first, second⟩⟩

/-- A loop keeps what each of its rounds keeps, by induction on the items. -/
theorem Yields.fold {body : First → Second → Program Query Answer First}
    (holds : First → Prop) {items : List Second}
    (round
      : ∀ accumulated, ∀ item ∈ items, ∀ next,
          holds accumulated → (body accumulated item).Yields allowed next → holds next)
    {accumulated last : First} (start : holds accumulated)
    (yields : (Program.fold body accumulated items).Yields allowed last)
    : holds last := by
  induction items generalizing accumulated with
  | nil =>
      cases yields
      exact start
  | cons item items ih =>
      obtain ⟨middle, first, second⟩ := yields_bind.mp yields
      refine ih (fun accumulated item mem => round accumulated item (List.mem_cons_of_mem _ mem))
        ?_ second
      exact round accumulated item List.mem_cons_self middle start first

-- Contracts whatever the answers

/-- Nothing to interfere with, and any answer at any time; some queries may not be asked. -/
def anywhere (permits : Query → Prop) : Setting Query Answer Unit where
  interferes := fun _ _ => True
  answers := fun _ _ _ _ => True
  permits := fun _ query => permits query
  interferes_refl := fun _ => trivial
  interferes_trans := fun _ _ => trivial

variable {permits : Query → Prop} {post : First → Unit → Prop}

/-- A call is allowed, and so is what follows each of its answers. -/
theorem Ensures.asks {query : Query} {next : Answer query → Program Query Answer First}
    (permitted : permits query)
    (continues : ∀ answer, (next answer).Ensures (anywhere permits) post ())
    : (ask query >>= next).Ensures (anywhere permits) post () :=
  Ensures.call fun _ _ => ⟨permitted, fun answer _ _ => continues answer⟩

theorem Ensures.returns {result : First} (holds : post result ())
    : (pure result : Program Query Answer First).Ensures (anywhere permits) post () :=
  Ensures.done fun _ _ => holds

/-- What a contract promises holds at the end of every run, by induction on the program. -/
theorem Ensures.answered {program : Program Query Answer First}
    (ensures : program.Ensures (anywhere permits) post ())
    (respond : (query : Query) → Answer query)
    : post (program.answered respond) () := by
  induction program with
  | done value => exact ensures () trivial
  | call query next ih =>
      exact ih (respond query) ((ensures () trivial).2 (respond query) () trivial)

/-- Where a program asks only such queries as keep an assertion, it keeps the assertion, by
induction on the program.
-/
theorem Ensures.within {State : Type} {setting : Setting Query Answer State}
    {program : Program Query Answer First} (holds : State → Prop)
    (ensures : program.Ensures (anywhere permits) post ())
    (stable : ∀ {state later}, holds state → setting.interferes state later → holds later)
    (allowed : ∀ {state query}, permits query → holds state → setting.permits state query)
    (step
      : ∀ {query state answer later},
          permits query → holds state → setting.answers query state answer later → holds later)
    {state : State} (start : holds state)
    : program.Ensures setting (fun result later => post result () ∧ holds later) state := by
  induction program generalizing state with
  | done value => exact fun later moved => ⟨ensures () trivial, stable start moved⟩
  | call query next ih =>
      intro later moved
      obtain ⟨permitted, continues⟩ := ensures () trivial
      have here := stable start moved
      exact ⟨allowed permitted here, fun answer after answered =>
        ih answer (continues answer () trivial) (step permitted here answered)⟩

end Interaction.Program

import Myndaix.Interaction.Program

/-! Contracts for programs that run among others. Before every call and before the end, the
others may have changed the state by any amount of interference; a contract holds only when
it survives that at every point.
-/

namespace Interaction

/-- Where programs run: what others may do unobserved, which answers a query can get and what
it does to the state, and which queries a program is allowed to ask there.
-/
structure Setting (Query : Type) (Answer : Query → Type) (State : Type) where
  interferes : State → State → Prop
  answers : (query : Query) → State → Answer query → State → Prop
  permits : State → Query → Prop
  interferes_refl : ∀ state, interferes state state
  interferes_trans
    : ∀ {first second third}, interferes first second → interferes second third
        → interferes first third

namespace Program

variable {Query : Type} {Answer : Query → Type} {First Second State : Type}
variable (setting : Setting Query Answer State)

/-- Started in `state`, the program asks only permitted queries, and whatever the answers and
the interference, ends with a result and a state that satisfy `post`.
-/
def Ensures (program : Program Query Answer First) (post : First → State → Prop)
    (state : State)
    : Prop :=
  match program with
  | .done result => ∀ later, setting.interferes state later → post result later
  | .call query next =>
      ∀ later, setting.interferes state later
        → setting.permits later query
          ∧ ∀ answer after, setting.answers query later answer after
              → (next answer).Ensures post after

variable {setting}

/-- A contract survives interference before the program starts, by transitivity. -/
theorem Ensures.interfere {program : Program Query Answer First}
    {post : First → State → Prop} {state later : State}
    (ensures : program.Ensures setting post state) (moved : setting.interferes state later)
    : program.Ensures setting post later := by
  cases program with
  | done result =>
      exact fun last next => ensures last (setting.interferes_trans moved next)
  | call query rest =>
      exact fun last next => ensures last (setting.interferes_trans moved next)

/-- A contract may promise less, by induction on the program. -/
theorem Ensures.weaken {program : Program Query Answer First}
    {post weaker : First → State → Prop} {state : State}
    (ensures : program.Ensures setting post state)
    (implies : ∀ result later, post result later → weaker result later)
    : program.Ensures setting weaker state := by
  induction program generalizing state with
  | done result => exact fun later moved => implies result later (ensures later moved)
  | call query rest ih =>
      intro later moved
      obtain ⟨permitted, continues⟩ := ensures later moved
      exact ⟨permitted, fun answer after answered => ih answer (continues answer after answered)⟩

/-- Two contracts about one program are one contract, by induction on the program. -/
theorem Ensures.and {program : Program Query Answer First} {post other : First → State → Prop}
    {state : State} (ensures : program.Ensures setting post state)
    (too : program.Ensures setting other state)
    : program.Ensures setting
      (fun result later => post result later ∧ other result later) state := by
  induction program generalizing state with
  | done result => exact fun later moved => ⟨ensures later moved, too later moved⟩
  | call query rest ih =>
      intro later moved
      obtain ⟨permitted, continues⟩ := ensures later moved
      refine ⟨permitted, fun answer after answered => ?_⟩
      exact ih answer (continues answer after answered) ((too later moved).2 answer after answered)

/-- Sequencing: the second program's contract is the first one's postcondition. -/
theorem Ensures.bind {program : Program Query Answer First}
    {next : First → Program Query Answer Second} {middle : First → State → Prop}
    {post : Second → State → Prop} {state : State}
    (first : program.Ensures setting middle state)
    (second : ∀ result later, middle result later → (next result).Ensures setting post later)
    : (program >>= next).Ensures setting post state := by
  induction program generalizing state with
  | done result =>
      exact second result state (first state (setting.interferes_refl state))
  | call query rest ih =>
      intro later moved
      obtain ⟨permitted, continues⟩ := first later moved
      exact ⟨permitted, fun answer after answered => ih answer (continues answer after answered)⟩

/-- Wrapping the result, by induction on the program. -/
theorem Ensures.map {program : Program Query Answer First} {wrap : First → Second}
    {post : Second → State → Prop} {state : State}
    (ensures : program.Ensures setting (fun result => post (wrap result)) state)
    : (program >>= fun result => .done (wrap result)).Ensures setting post state := by
  induction program generalizing state with
  | done result => exact ensures
  | call query rest ih =>
      intro later moved
      obtain ⟨permitted, continues⟩ := ensures later moved
      exact ⟨permitted, fun answer after answered => ih answer (continues answer after answered)⟩

/-- A finished program meets every postcondition that interference preserves. -/
theorem Ensures.done {result : First} {post : First → State → Prop} {state : State}
    (holds : ∀ later, setting.interferes state later → post result later)
    : (Program.done result : Program Query Answer First).Ensures setting post state :=
  holds

/-- One call is verified by its permission and by the continuation after every answer. -/
theorem Ensures.call {query : Query} {next : Answer query → Program Query Answer First}
    {post : First → State → Prop} {state : State}
    (continues
      : ∀ later, setting.interferes state later
          → setting.permits later query
            ∧ ∀ answer after, setting.answers query later answer after
                → (next answer).Ensures setting post after)
    : (Program.call query next).Ensures setting post state :=
  continues

/-- What every permitted call and all interference keep may be assumed at the end. -/
theorem Ensures.keeps {program : Program Query Answer First} {kept : State → Prop}
    {post : First → State → Prop} {state : State}
    (stable : ∀ {state later}, kept state → setting.interferes state later → kept later)
    (step
      : ∀ {state query answer after},
          kept state → setting.permits state query
          → setting.answers query state answer after → kept after)
    (ensures : program.Ensures setting post state) (start : kept state)
    : program.Ensures setting (fun result later => kept later ∧ post result later) state := by
  induction program generalizing state with
  | done result =>
      exact fun later moved => ⟨stable start moved, ensures later moved⟩
  | call query next ih =>
      intro later moved
      obtain ⟨permitted, continues⟩ := ensures later moved
      exact ⟨permitted, fun answer after answered =>
        ih answer (continues answer after answered) (step (stable start moved) permitted answered)⟩

/-- A loop is verified by an invariant over what it has accumulated and what is left, which
survives interference and which every round preserves. Witness: induction on the items.
-/
theorem Ensures.fold {body : First → Second → Program Query Answer First}
    (inv : First → List Second → State → Prop)
    (stable
      : ∀ {accumulated items state later},
          inv accumulated items state → setting.interferes state later
          → inv accumulated items later)
    (round
      : ∀ {accumulated item items state},
          inv accumulated (item :: items) state
          → (body accumulated item).Ensures setting (fun next => inv next items) state)
    {items : List Second} {accumulated : First} {state : State}
    (start : inv accumulated items state)
    : (Program.fold body accumulated items).Ensures setting (fun last => inv last []) state := by
  induction items generalizing accumulated state with
  | nil => exact Ensures.done (fun later moved => stable start moved)
  | cons item items ih => exact (round start).bind (fun next later holds => ih holds)

end Program

end Interaction

import Myndaix.Interaction.Answers
import Myndaix.Interaction.Executions
import Myndaix.Interaction.Traces

/-! Assertions that survive the calls of a program: rules for contracts in which only a few calls
matter and all others are passed over.
-/

namespace Interaction.Program

variable {Query : Type} {Answer : Query → Type} {First Second State : Type}

/-- An assertion that interference keeps, and quiet calls, which it allows. -/
structure Steady (setting : Setting Query Answer State) (quiet : Query → Prop)
    (holds : State → Prop)
    : Prop where
  stable : ∀ {state later}, holds state → setting.interferes state later → holds later
  permits : ∀ {state query}, quiet query → holds state → setting.permits state query
  step
    : ∀ {query state answer later},
        quiet query → holds state → setting.answers query state answer later → holds later

variable {program : Program Query Answer First}

section Rules

variable {setting : Setting Query Answer State} {quiet : Query → Prop} {holds : State → Prop}
  {post : First → State → Prop} {state : State} {query : Query}
  {next : Answer query → Program Query Answer First}

/-- A call that is not passed over. -/
theorem Steady.calls (steady : Steady setting quiet holds) (start : holds state)
    (permitted : ∀ later, holds later → setting.permits later query)
    (continues
      : ∀ answer before after,
          holds before → setting.answers query before answer after
          → (next answer).Ensures setting post after)
    : (ask query >>= next).Ensures setting post state := by
  refine Ensures.call fun before moved => ?_
  have here := steady.stable start moved
  exact ⟨permitted before here, fun answer after answered =>
    continues answer before after here answered⟩

/-- After a quiet call the assertion still holds. -/
theorem Steady.asks (steady : Steady setting quiet holds) (isQuiet : quiet query)
    (start : holds state)
    (continues : ∀ answer after, holds after → (next answer).Ensures setting post after)
    : (ask query >>= next).Ensures setting post state :=
  steady.calls start (fun _ here => steady.permits isQuiet here) fun answer _ after here answered =>
    continues answer after (steady.step isQuiet here answered)

/-- So it does after a program of quiet calls. -/
theorem Steady.runs (steady : Steady setting quiet holds) {facts : First → Prop}
    (quietly : program.Ensures (anywhere quiet) (fun result _ => facts result) ())
    (start : holds state)
    : program.Ensures setting (fun result later => facts result ∧ holds later) state :=
  quietly.within holds steady.stable steady.permits steady.step start

theorem Steady.ends (steady : Steady setting quiet holds) {result : First} (start : holds state)
    (ended : ∀ later, holds later → post result later)
    : (pure result : Program Query Answer First).Ensures setting post state :=
  Ensures.done fun later moved => ended later (steady.stable start moved)

/-- So it does after such a program whose contract is over the history, where the states keep the
history as well. By induction on the program.
-/
theorem Steady.logs (steady : Steady setting quiet holds) (log : State → List (Event Query Answer))
    (still : ∀ {state later}, setting.interferes state later → log later = log state)
    (noted
      : ∀ {query state answer later},
          quiet query → setting.answers query state answer later
          → log later = log state ++ [⟨query, answer⟩])
    {found : First → List (Event Query Answer) → Prop}
    (ensures : program.Ensures (recording (fun _ => quiet)) found (log state)) (start : holds state)
    : program.Ensures setting
      (fun result later => found result (log later) ∧ holds later) state := by
  induction program generalizing state with
  | done value =>
      intro later moved
      exact ⟨still moved ▸ ensures (log state) rfl, steady.stable start moved⟩
  | call query next ih =>
      intro later moved
      obtain ⟨isQuiet, continues⟩ := ensures (log state) rfl
      have here := steady.stable start moved
      refine ⟨steady.permits isQuiet here, fun answer after answered => ?_⟩
      have grown : log after = log state ++ [⟨query, answer⟩] :=
        still moved ▸ noted isQuiet answered
      exact ih answer (grown ▸ continues answer _ rfl) (steady.step isQuiet here answered)

/-- Fewer calls may count as quiet. -/
theorem Steady.fewer {fewer : Query → Prop} (steady : Steady setting quiet holds)
    (included : ∀ {query}, fewer query → quiet query)
    : Steady setting fewer holds where
  stable := steady.stable
  permits := fun isQuiet => steady.permits (included isQuiet)
  step := fun isQuiet => steady.step (included isQuiet)

/-- Two assertions that survive the same calls survive them together. -/
theorem Steady.and {other : State → Prop} (steady : Steady setting quiet holds)
    (too : Steady setting quiet other)
    : Steady setting quiet (fun state => holds state ∧ other state) where
  stable := fun both moved => ⟨steady.stable both.1 moved, too.stable both.2 moved⟩
  permits := fun isQuiet both => steady.permits isQuiet both.1
  step := fun isQuiet both answered =>
    ⟨steady.step isQuiet both.1 answered, too.step isQuiet both.2 answered⟩

theorem Steady.congr {other : State → Prop} (steady : Steady setting quiet holds)
    (same : ∀ state, holds state ↔ other state)
    : Steady setting quiet other := by
  have equal : holds = other := funext fun state => propext (same state)
  exact equal ▸ steady

/-- Of any number of assertions each survives, where the calls are permitted anyway. -/
theorem Steady.all {Item : Sort*} {each : Item → State → Prop}
    (permitted : ∀ {state query}, quiet query → setting.permits state query)
    (steady : ∀ item, Steady setting quiet (each item))
    : Steady setting quiet (fun state => ∀ item, each item state) where
  stable := fun here moved item => (steady item).stable (here item) moved
  permits := fun isQuiet _ => permitted isQuiet
  step := fun isQuiet here answered item => (steady item).step isQuiet (here item) answered

end Rules

-- Programs that can die

section Attempts

variable {Error : Type} {setting : Setting Query Answer State} {quiet : Query → Prop}
  {holds : State → Prop} {post : First → State → Prop} {raises : Error → State → Prop}
  {state : State}

/-- A contract for a program that can die: what holds at its end, and what holds where it dies. -/
def Attains (setting : Setting Query Answer State)
    (program : ExceptT Error (Program Query Answer) First) (post : First → State → Prop)
    (raises : Error → State → Prop) (state : State)
    : Prop :=
  program.run.Ensures setting
    (fun result later =>
      match result with
      | .ok value => post value later
      | .error error => raises error later)
    state

/-- Sequencing: where the first program dies, so does the whole. By induction on the first program.
-/
theorem Attains.bind {program : ExceptT Error (Program Query Answer) First}
    {next : First → ExceptT Error (Program Query Answer) Second} {last : Second → State → Prop}
    (first : Attains setting program post raises state)
    (second : ∀ value later, post value later → Attains setting (next value) last raises later)
    : Attains setting (program >>= next) last raises state := by
  change Program Query Answer (Except Error First) at program
  induction program generalizing state with
  | done result =>
      cases result with
      | ok value => exact second value state (first state (setting.interferes_refl state))
      | error error => exact first
  | call query rest ih =>
      intro later moved
      obtain ⟨permitted, continues⟩ := first later moved
      exact ⟨permitted, fun answer after answered => ih answer (continues answer after answered)⟩

/-- What is done where the program dies begins where it died. By induction on the program. -/
theorem Attains.rescue {program : ExceptT Error (Program Query Answer) First}
    {handle : Error → ExceptT Error (Program Query Answer) First}
    {others : Error → State → Prop} (attains : Attains setting program post raises state)
    (handles : ∀ error later, raises error later → Attains setting (handle error) post others later)
    : Attains setting (tryCatch program handle) post others state := by
  change Program Query Answer (Except Error First) at program
  induction program generalizing state with
  | done result =>
      cases result with
      | ok value => exact attains
      | error error => exact handles error state (attains state (setting.interferes_refl state))
  | call query rest ih =>
      intro later moved
      obtain ⟨permitted, continues⟩ := attains later moved
      exact ⟨permitted, fun answer after answered => ih answer (continues answer after answered)⟩

/-- A program that always ends, as one that can die. -/
theorem Attains.lift (ensures : program.Ensures setting post state)
    : Attains setting (ExceptT.lift program) post raises state := by
  have mapped
      : Attains setting (Except.ok <$> program : Program Query Answer (Except Error First))
          post raises state :=
    Ensures.map ensures
  exact mapped

theorem Attains.weaken {program : ExceptT Error (Program Query Answer) First}
    {weaker : First → State → Prop} {others : Error → State → Prop}
    (attains : Attains setting program post raises state)
    (implies : ∀ value later, post value later → weaker value later)
    (allows : ∀ error later, raises error later → others error later)
    : Attains setting program weaker others state := by
  refine Ensures.weaken attains fun result later holds => ?_
  cases result with
  | ok value => exact implies value later holds
  | error error => exact allows error later holds

/-- A call that is not passed over, before the rest of a program that can die. -/
theorem Steady.tries {query : Query}
    {next : Answer query → ExceptT Error (Program Query Answer) First}
    (steady : Steady setting quiet holds) (start : holds state)
    (permitted : ∀ later, holds later → setting.permits later query)
    (continues
      : ∀ answer before after,
          holds before → setting.answers query before answer after
          → Attains setting (next answer) post raises after)
    : Attains setting (ExceptT.lift (ask query) >>= next) post raises state :=
  steady.calls start permitted continues

theorem Steady.attempts {query : Query}
    {next : Answer query → ExceptT Error (Program Query Answer) First}
    (steady : Steady setting quiet holds) (isQuiet : quiet query) (start : holds state)
    (continues : ∀ answer after, holds after → Attains setting (next answer) post raises after)
    : Attains setting (ExceptT.lift (ask query) >>= next) post raises state :=
  steady.asks isQuiet start continues

theorem Steady.returns {result : First} (steady : Steady setting quiet holds) (start : holds state)
    (ended : ∀ later, holds later → post result later)
    : Attains setting (pure result) post raises state :=
  steady.ends start ended

theorem Steady.dies {error : Error} (steady : Steady setting quiet holds) (start : holds state)
    (died : ∀ later, holds later → raises error later)
    : Attains setting (throw error : ExceptT Error (Program Query Answer) First) post
      raises state :=
  Ensures.done fun later moved => died later (steady.stable start moved)

end Attempts

/-- A state in the course of a run, after others that ended or were cut off where that can happen.
-/
def During (setting : Setting Query Answer State) (program : Program Query Answer First)
    (cuttable : State → Prop) (start state : State)
    : Prop :=
  ∃ before result,
    Repeats setting program cuttable start before ∧ program.Executes setting before result state

/-- What holds between all runs, and wherever a call is permitted, holds at any time. -/
theorem During.invariant {setting : Setting Query Answer State}
    {cuttable holds anytime : State → Prop} {start state : State}
    (during : During setting program cuttable start state) (initially : holds start)
    (keeps : ∀ state, holds state → program.Ensures setting (fun _ later => holds later) state)
    (calls : ∀ state query, cuttable state → setting.permits state query → holds state)
    (between : ∀ state, holds state → anytime state)
    (within : ∀ state query, setting.permits state query → anytime state)
    : anytime state := by
  obtain ⟨before, result, repeats, executes⟩ := during
  have holds := repeats.invariant initially keeps calls
  rcases ((keeps before holds).executed executes).2 with ⟨query, permitted⟩ | ⟨_, ended⟩
  · exact within state query permitted
  · exact between state ended

/-- What interference and every permitted call keep is kept wherever an execution has come to, by
induction on the program.
-/
theorem Ensures.executes {setting : Setting Query Answer State} {post : First → State → Prop}
    {kept : State → Prop} {state after : State} {result : Option First}
    (ensures : program.Ensures setting post state)
    (executes : program.Executes setting state result after)
    (stable : ∀ {state later}, kept state → setting.interferes state later → kept later)
    (step
      : ∀ {state query answer later},
          kept state → setting.permits state query → setting.answers query state answer later
          → kept later)
    (start : kept state)
    : kept after := by
  induction program generalizing state with
  | done value => exact stable start executes.1
  | call query next ih =>
      rcases executes with ⟨_, moved⟩ | ⟨now, answer, later, moved, answered, executes⟩
      · exact stable start moved
      · obtain ⟨permitted, continues⟩ := ensures now moved
        exact ih answer (continues answer later answered) executes
          (step (stable start moved) permitted answered)

/-- So it is at any time in the course of any number of runs, by induction on these. -/
theorem During.keeps {setting : Setting Query Answer State} {cuttable : State → Prop}
    (kept : State → Prop) {start state : State}
    (during : During setting program cuttable start state)
    (ensures : ∀ state, ∃ post, program.Ensures setting post state)
    (stable : ∀ {state later}, kept state → setting.interferes state later → kept later)
    (step
      : ∀ {state query answer later},
          kept state → setting.permits state query → setting.answers query state answer later
          → kept later)
    (initially : kept start)
    : kept state := by
  obtain ⟨before, result, repeats, last⟩ := during
  have goesOn {state after : State} {result : Option First}
      (executes : program.Executes setting state result after)
      (here : kept state) : kept after := by
    obtain ⟨post, ensured⟩ := ensures state
    exact ensured.executes executes stable step here
  refine goesOn last ?_
  clear last
  induction repeats with
  | start => exact initially
  | again _ executes _ ih => exact goesOn executes ih

/-- Where each query always gets the same answer, a run can be cut off after any of its calls, by
induction on the program.
-/
theorem executes_log {setting : Setting Query Answer State}
    {respond : (query : Query) → Answer query}
    {effect : State → Event Query Answer → State} {holds : State → Prop}
    (program : Program Query Answer First) (calls : Nat)
    (step
      : ∀ event ∈ (program.log respond).take calls,
          ∀ state,
            holds state
            → setting.answers event.1 state event.2 (effect state event)
              ∧ holds (effect state event))
    {state : State} (start : holds state)
    : program.Executes setting state none (((program.log respond).take calls).foldl effect state)
      ∧ holds (((program.log respond).take calls).foldl effect state) := by
  induction program generalizing state calls with
  | done value =>
      rw [log, List.take_nil]
      exact ⟨⟨setting.interferes_refl _, .inr rfl⟩, start⟩
  | call query next ih =>
      cases calls with
      | zero => exact ⟨.inl ⟨rfl, setting.interferes_refl _⟩, start⟩
      | succ calls =>
          rw [log, List.take_succ_cons] at step ⊢
          obtain ⟨answered, holds⟩ := step ⟨query, respond query⟩ List.mem_cons_self state start
          obtain ⟨executes, ends⟩ := ih (respond query) calls
            (fun event mem => step event (List.mem_cons_of_mem _ mem)) holds
          exact ⟨.inr
            ⟨state, respond query, _, setting.interferes_refl _, answered, executes⟩, ends⟩

end Interaction.Program

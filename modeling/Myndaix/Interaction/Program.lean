import Mathlib.Order.Basic

/-! Programs that call out: a tree of typed queries, each continued by whatever answer comes
back. A program fixes the order of its calls and how it reacts to every answer; who answers,
and what happens between two calls, is left to the setting it runs in.
-/

namespace Interaction

/-- A program that either has its result or asks one query and continues with the answer. -/
inductive Program (Query : Type) (Answer : Query → Type) (Result : Type) : Type where
  | done (result : Result)
  | call (query : Query) (next : Answer query → Program Query Answer Result)

namespace Program

variable {Query : Type} {Answer : Query → Type} {First Second Third State Error : Type}

/-- Sequencing grafts the second program onto every result of the first. -/
def bind (program : Program Query Answer First)
    (next : First → Program Query Answer Second)
    : Program Query Answer Second :=
  match program with
  | .done result => next result
  | .call query rest => .call query (fun answer => (rest answer).bind next)

instance : Monad (Program Query Answer) where
  pure := .done
  bind := bind

/-- One query whose answer is the result. -/
def ask (query : Query) : Program Query Answer (Answer query) :=
  .call query .done

@[simp] theorem pure_eq_done (result : First)
    : (pure result : Program Query Answer First) = .done result :=
  rfl

@[simp] theorem done_bind (result : First) (next : First → Program Query Answer Second)
    : (Program.done result >>= next) = next result :=
  rfl

@[simp] theorem call_bind (query : Query) (rest : Answer query → Program Query Answer First)
    (next : First → Program Query Answer Second)
    : (Program.call query rest >>= next)
      = .call query (fun answer => rest answer >>= next) :=
  rfl

@[simp] theorem ask_bind (query : Query) (next : Answer query → Program Query Answer First)
    : (ask query >>= next) = .call query next :=
  rfl

/-- Sequencing is associative, by induction on the first program. -/
theorem bind_assoc (program : Program Query Answer First)
    (next : First → Program Query Answer Second) (last : Second → Program Query Answer Third)
    : (program >>= next >>= last) = (program >>= fun result => next result >>= last) := by
  induction program with
  | done result => rfl
  | call query rest ih => simp only [call_bind, ih]

/-- Returning the result unchanged adds nothing, by induction on the program. -/
theorem bind_done (program : Program Query Answer First)
    : (program >>= Program.done) = program := by
  induction program with
  | done result => rfl
  | call query rest ih => simp only [call_bind, ih]

instance : LawfulMonad (Program Query Answer) :=
  LawfulMonad.mk' (Program Query Answer) (fun program => bind_done program)
    (fun _ _ => rfl) bind_assoc

/-- Run one program for each item, handing an accumulator on. -/
def fold (body : First → Second → Program Query Answer First)
    : First → List Second → Program Query Answer First
  | accumulated, [] => .done accumulated
  | accumulated, item :: items => body accumulated item >>= fun next => fold body next items

/-- Running alone: every query is answered at once from the current state, or stops the run
with an error.
-/
def run (respond : (query : Query) → State → Except Error (Answer query × State))
    : Program Query Answer First → State → Except Error (First × State)
  | .done result, state => .ok (result, state)
  | .call query next, state =>
      match respond query state with
      | .ok (answer, state) => (next answer).run respond state
      | .error error => .error error

variable (respond : (query : Query) → State → Except Error (Answer query × State))

@[simp] theorem run_done (result : First) (state : State)
    : (Program.done result : Program Query Answer First).run respond state
      = .ok (result, state) :=
  rfl

/-- A sequenced run is the second run from where the first one stopped. -/
theorem run_bind (program : Program Query Answer First)
    (next : First → Program Query Answer Second) (state : State)
    : (program >>= next).run respond state
      = (program.run respond state).bind
          (fun stopped => (next stopped.1).run respond stopped.2) := by
  induction program generalizing state with
  | done result => rfl
  | call query rest ih =>
      simp only [call_bind, run]
      cases respond query state with
      | error error => rfl
      | ok answered => exact ih answered.1 answered.2

end Program

end Interaction

import Mathlib.Data.List.Basic

/-! Regular expressions with assertions, read at a place inside a text. The ways to read an
expression come in the order in which a backtracking engine tries them.
-/

namespace Patterns

/-- A place in a text: what stands before it, the nearest symbol first, and what is left. -/
structure Place (Symbol : Type) where
  before : List Symbol
  after : List Symbol
deriving Repr, DecidableEq

namespace Place

variable {Symbol : Type}

def start (text : List Symbol) : Place Symbol :=
  { before := [], after := text }

/-- This place and all later ones, counted by what is left. -/
def onward (before : List Symbol) : List Symbol → List (Place Symbol)
  | [] => [{ before := before, after := [] }]
  | symbol :: after =>
      { before := before, after := symbol :: after } :: onward (symbol :: before) after

def all (text : List Symbol) : List (Place Symbol) :=
  onward [] text

end Place

/-- Expressions. An assertion reads nothing; repetition takes as much as it can. -/
inductive Regex (Symbol : Type) : Type where
  | here (holds : Place Symbol → Bool)
  | one (accepts : Symbol → Bool)
  | seq (first second : Regex Symbol)
  | alt (first second : Regex Symbol)
  | many (body : Regex Symbol)

namespace Regex

variable {Symbol : Type}

/-- Repeat a step that must move on, with no more than this many rounds; more rounds first. -/
def rounds (step : Place Symbol → List (Place Symbol)) : Nat → Place Symbol → List (Place Symbol)
  | 0, place => [place]
  | fuel + 1, place =>
      ((step place).filter (fun next => next.after.length < place.after.length)).flatMap
          (rounds step fuel)
        ++ [place]

/-- Where the expression can end when it is read from here, the preferred ends first. -/
def ends : Regex Symbol → Place Symbol → List (Place Symbol)
  | .here holds, place => if holds place then [place] else []
  | .one accepts, place =>
      match place.after with
      | [] => []
      | symbol :: after =>
          if accepts symbol then [{ before := symbol :: place.before, after := after }] else []
  | .seq first second, place => (first.ends place).flatMap second.ends
  | .alt first second, place => first.ends place ++ second.ends place
  -- Each round takes at least one symbol, so there are no more rounds than symbols left.
  | .many body, place => rounds body.ends place.after.length place

/-- The expression can be read somewhere in the text. -/
def search (regex : Regex Symbol) (text : List Symbol) : Bool :=
  (Place.all text).any (fun place => !(regex.ends place).isEmpty)

def skip : Regex Symbol :=
  .here (fun _ => true)

def never : Regex Symbol :=
  .here (fun _ => false)

def sequence : List (Regex Symbol) → Regex Symbol
  | [] => skip
  | [regex] => regex
  | regex :: rest => .seq regex (sequence rest)

def choice : List (Regex Symbol) → Regex Symbol
  | [] => never
  | [regex] => regex
  | regex :: rest => .alt regex (choice rest)

def optional (regex : Regex Symbol) : Regex Symbol :=
  .alt regex skip

def repeated (regex : Regex Symbol) : Regex Symbol :=
  .seq regex (.many regex)

def literal [DecidableEq Symbol] (text : List Symbol) : Regex Symbol :=
  sequence (text.map (fun symbol => .one (fun other => decide (other = symbol))))

/-- The begin of the text. -/
def start : Regex Symbol :=
  .here (fun place => place.before.isEmpty)

/-- The end of the text. -/
def stop : Regex Symbol :=
  .here (fun place => place.after.isEmpty)

-- What is read

@[simp] theorem ends_here (holds : Place Symbol → Bool) (place : Place Symbol)
    : (here holds).ends place = if holds place then [place] else [] :=
  rfl

@[simp] theorem ends_one_nil (accepts : Symbol → Bool) (before : List Symbol)
    : (one accepts).ends { before := before, after := [] } = [] :=
  rfl

@[simp] theorem ends_one_cons (accepts : Symbol → Bool) (before after : List Symbol)
    (symbol : Symbol)
    : (one accepts).ends { before := before, after := symbol :: after }
      = if accepts symbol then [{ before := symbol :: before, after := after }] else [] :=
  rfl

@[simp] theorem ends_seq (first second : Regex Symbol) (place : Place Symbol)
    : (seq first second).ends place = (first.ends place).flatMap second.ends :=
  rfl

@[simp] theorem ends_alt (first second : Regex Symbol) (place : Place Symbol)
    : (alt first second).ends place = first.ends place ++ second.ends place :=
  rfl

theorem ends_many (body : Regex Symbol) (place : Place Symbol)
    : (many body).ends place = rounds body.ends place.after.length place :=
  rfl

/-- Repetition only moves along what its rounds move along, by induction on the rounds. -/
theorem rounds_suffix {step : Place Symbol → List (Place Symbol)}
    (moves : ∀ place, ∀ next ∈ step place, next.after <:+ place.after) (fuel : Nat)
    {place next : Place Symbol} (mem : next ∈ rounds step fuel place)
    : next.after <:+ place.after := by
  induction fuel generalizing place with
  | zero =>
      obtain rfl := List.mem_singleton.mp mem
      exact List.suffix_rfl
  | succ fuel ih =>
      rcases List.mem_append.mp mem with more | last
      · obtain ⟨middle, first, rest⟩ := List.mem_flatMap.mp more
        exact (ih rest).trans (moves place middle (List.mem_filter.mp first).1)
      · obtain rfl := List.mem_singleton.mp last
        exact List.suffix_rfl

/-- Reading goes forward, by induction on the expression. -/
theorem ends_suffix (regex : Regex Symbol) {place next : Place Symbol}
    (mem : next ∈ regex.ends place)
    : next.after <:+ place.after := by
  induction regex generalizing place next with
  | here holds =>
      rw [ends_here] at mem
      split at mem
      · obtain rfl := List.mem_singleton.mp mem
        exact List.suffix_rfl
      · cases mem
  | one accepts =>
      obtain ⟨before, after⟩ := place
      cases after with
      | nil => cases mem
      | cons symbol after =>
          rw [ends_one_cons] at mem
          split at mem
          · obtain rfl := List.mem_singleton.mp mem
            exact List.suffix_cons symbol after
          · cases mem
  | seq first second firstIh secondIh =>
      obtain ⟨middle, begun, ended⟩ := List.mem_flatMap.mp mem
      exact (secondIh ended).trans (firstIh begun)
  | alt first second firstIh secondIh =>
      rcases List.mem_append.mp mem with begun | begun
      · exact firstIh begun
      · exact secondIh begun
  | many body ih => exact rounds_suffix (fun _ _ => ih) _ mem

/-- An alternative is found where one of its sides is. -/
theorem search_alt (first second : Regex Symbol) (text : List Symbol)
    : (alt first second).search text = (first.search text || second.search text) := by
  unfold search
  induction Place.all text with
  | nil => rfl
  | cons place places ih =>
      have split
          : (!(first.ends place ++ second.ends place).isEmpty)
            = (!(first.ends place).isEmpty || !(second.ends place).isEmpty) := by
        cases first.ends place <;> simp
      rw [List.any_cons, List.any_cons, List.any_cons, ih, ends_alt, split]
      simp only [Bool.or_assoc, Bool.or_left_comm]

-- Expressions that read the same texts alike

/-- Wherever all that is left is made of such symbols, the two expressions read the same. -/
def Agree (within : Symbol → Prop) (first second : Regex Symbol) : Prop :=
  ∀ place, (∀ symbol ∈ place.after, within symbol) → first.ends place = second.ends place

namespace Agree

variable {within : Symbol → Prop} {first second firstOther secondOther : Regex Symbol}

theorem refl (regex : Regex Symbol) : Agree within regex regex :=
  fun _ _ => rfl

theorem seq (begins : Agree within first firstOther) (goes : Agree within second secondOther)
    : Agree within (.seq first second) (.seq firstOther secondOther) := by
  intro place all
  rw [ends_seq, ends_seq, ← begins place all]
  refine List.flatMap_congr (fun middle begun => goes middle fun symbol mem => ?_)
  exact all symbol ((first.ends_suffix begun).subset mem)

theorem alt (left : Agree within first firstOther) (right : Agree within second secondOther)
    : Agree within (.alt first second) (.alt firstOther secondOther) := by
  intro place all
  rw [ends_alt, ends_alt, left place all, right place all]

theorem ends_never (place : Place Symbol) : (never : Regex Symbol).ends place = [] :=
  rfl

/-- What cannot begin cannot be read. -/
theorem seq_never (begins : Agree within first never) : Agree within (.seq first second) never := by
  intro place all
  rw [ends_seq, begins place all, ends_never, List.flatMap_nil]

/-- An alternative that cannot be read adds nothing. -/
theorem alt_never (right : Agree within second never) : Agree within (.alt first second) first := by
  intro place all
  rw [ends_alt, right place all, ends_never, List.append_nil]

theorem trans {middle : Regex Symbol} (left : Agree within first middle)
    (right : Agree within middle second)
    : Agree within first second :=
  fun place all => (left place all).trans (right place all)

/-- By induction on the rounds: each one ends where all that is left is still in range. -/
theorem many (body : Agree within first second) : Agree within (.many first) (.many second) := by
  intro place all
  rw [ends_many, ends_many]
  generalize place.after.length = fuel
  induction fuel generalizing place with
  | zero => rfl
  | succ fuel ih =>
      rw [rounds, rounds, ← body place all]
      refine congrArg (· ++ [place]) (List.flatMap_congr fun middle begun => ih middle ?_)
      intro symbol mem
      exact all symbol ((first.ends_suffix (List.mem_filter.mp begun).1).subset mem)

theorem search (agree : Agree within first second) {text : List Symbol}
    (all : ∀ symbol ∈ text, within symbol)
    : first.search text = second.search text := by
  have onward
      : ∀ before after, (∀ symbol ∈ after, within symbol)
        → (Place.onward before after).any (fun place => !(first.ends place).isEmpty)
          = (Place.onward before after).any (fun place => !(second.ends place).isEmpty) := by
    intro before after
    induction after generalizing before with
    | nil =>
        intro left
        rw [Place.onward, List.any_cons, List.any_cons, agree _ left, List.any_nil, List.any_nil]
    | cons symbol after ih =>
        intro left
        rw [Place.onward, List.any_cons, List.any_cons, agree _ left,
          ih _ fun other mem => left other (List.mem_cons_of_mem _ mem)]
  exact onward [] text all

end Agree

end Regex

end Patterns

import Mathlib.Data.List.Infix

/-! The patterns of SQL's LIKE: one symbol that stands for any text, one that stands for any symbol,
and one that makes the next symbol stand for itself.
-/

namespace Patterns

structure Wildcards (Symbol : Type) where
  escape : Symbol
  one : Symbol
  run : Symbol
  run_ne_escape : run ≠ escape

inductive Piece (Symbol : Type) : Type where
  | literal (symbol : Symbol)
  | one
  | run
deriving DecidableEq

section Like

variable {Symbol : Type} [DecidableEq Symbol] (wildcards : Wildcards Symbol)

def Wildcards.piece (symbol : Symbol) : Piece Symbol :=
  if symbol = wildcards.run then .run
  else if symbol = wildcards.one then .one
  else .literal symbol

/-- The pieces of a pattern, or none if it ends in an escape, which LIKE rejects. -/
def Wildcards.pieces : List Symbol → Option (List (Piece Symbol))
  | [] => some []
  | [symbol] => if symbol = wildcards.escape then none else some [wildcards.piece symbol]
  | symbol :: next :: pattern =>
      if symbol = wildcards.escape then (pieces pattern).map (.literal next :: ·)
      else (pieces (next :: pattern)).map (wildcards.piece symbol :: ·)

/-- Whether the pieces read a whole text. -/
def goes : List (Piece Symbol) → List Symbol → Bool
  | [], text => text.isEmpty
  | .literal symbol :: pieces, other :: text => symbol = other && goes pieces text
  | .literal _ :: _, [] => false
  | .one :: pieces, _ :: text => goes pieces text
  | .one :: _, [] => false
  | .run :: pieces, text => text.tails.any (goes pieces)

/-- `text LIKE pattern`, or none where it is an error. -/
def Wildcards.like (text pattern : List Symbol) : Option Bool :=
  (wildcards.pieces pattern).map (goes · text)

/-- A text with an escape before each symbol that would not stand for itself. -/
def Wildcards.quote (text : List Symbol) : List Symbol :=
  text.flatMap fun symbol =>
    if symbol = wildcards.escape ∨ symbol = wildcards.one ∨ symbol = wildcards.run then
      [wildcards.escape, symbol]
    else [symbol]

variable {wildcards}

theorem pieces_cons {symbol : Symbol} (unescaped : symbol ≠ wildcards.escape)
    (pattern : List Symbol)
    : wildcards.pieces (symbol :: pattern)
      = (wildcards.pieces pattern).map (wildcards.piece symbol :: ·) := by
  cases pattern with
  | nil =>
      rw [Wildcards.pieces, Wildcards.pieces, if_neg unescaped]
      rfl
  | cons next pattern => rw [Wildcards.pieces, if_neg unescaped]

theorem pieces_escaped (symbol : Symbol) (pattern : List Symbol)
    : wildcards.pieces (wildcards.escape :: symbol :: pattern)
      = (wildcards.pieces pattern).map (.literal symbol :: ·) := by
  rw [Wildcards.pieces, if_pos rfl]

/-- A quoted text is read as itself, by induction on the text. -/
theorem pieces_quote_append (text pattern : List Symbol)
    : wildcards.pieces (wildcards.quote text ++ pattern)
      = (wildcards.pieces pattern).map (text.map .literal ++ ·) := by
  induction text with
  | nil => simp [Wildcards.quote]
  | cons symbol text induction =>
      have quoted
          : wildcards.quote (symbol :: text)
            = (if symbol = wildcards.escape ∨ symbol = wildcards.one ∨ symbol = wildcards.run
              then [wildcards.escape, symbol]
              else [symbol])
              ++ wildcards.quote text :=
        List.flatMap_cons
      rw [quoted, List.append_assoc]
      by_cases special : symbol = wildcards.escape ∨ symbol = wildcards.one ∨ symbol = wildcards.run
      · rw [if_pos special, List.cons_append, List.cons_append, List.nil_append, pieces_escaped,
          induction, Option.map_map]
        rfl
      · obtain ⟨unescaped, one, run⟩ := by simpa only [not_or] using special
        have itself : wildcards.piece symbol = .literal symbol := by
          rw [Wildcards.piece, if_neg run, if_neg one]
        rw [if_neg special, List.cons_append, List.nil_append, pieces_cons unescaped, itself,
          induction, Option.map_map]
        rfl

theorem goes_run {pieces : List (Piece Symbol)} {text : List Symbol}
    : goes (.run :: pieces) text = true
      ↔ ∃ front back, text = front ++ back ∧ goes pieces back = true := by
  rw [goes, List.any_eq_true]
  constructor
  · intro found
    obtain ⟨back, suffix, reads⟩ := found
    obtain ⟨front, split⟩ := (List.mem_tails back text).mp suffix
    exact ⟨front, back, split.symm, reads⟩
  · intro found
    obtain ⟨front, back, split, reads⟩ := found
    exact ⟨back, (List.mem_tails back text).mpr ⟨front, split.symm⟩, reads⟩

/-- Literal pieces read their own symbols, by induction on these. -/
theorem goes_literals {literals : List Symbol} {pieces : List (Piece Symbol)} {text : List Symbol}
    : goes (literals.map .literal ++ pieces) text = true
      ↔ ∃ back, text = literals ++ back ∧ goes pieces back = true := by
  induction literals generalizing text with
  | nil => simp
  | cons literal literals induction =>
      rw [List.map_cons, List.cons_append]
      cases text with
      | nil => simp [goes]
      | cons symbol text =>
          rw [goes, Bool.and_eq_true, decide_eq_true_eq, induction]
          constructor
          · intro both
            obtain ⟨rfl, back, rfl, reads⟩ := both
            exact ⟨back, rfl, reads⟩
          · intro found
            obtain ⟨back, split, reads⟩ := found
            obtain ⟨rfl, rfl⟩ := List.cons.inj split
            exact ⟨rfl, back, rfl, reads⟩

/-- Between two runs a quoted text is looked for anywhere. -/
theorem like_within (text sought : List Symbol)
    : wildcards.like text
        ([wildcards.run] ++ wildcards.quote sought ++ [wildcards.run])
      = some (decide (sought <:+: text)) := by
  have last : wildcards.pieces [wildcards.run] = some [.run] := by
    rw [pieces_cons wildcards.run_ne_escape, Wildcards.pieces, Option.map_some, Wildcards.piece,
      if_pos rfl]
  have first : wildcards.piece wildcards.run = .run := if_pos rfl
  have parsed
      : wildcards.pieces ([wildcards.run] ++ wildcards.quote sought ++ [wildcards.run])
        = some (.run :: (sought.map .literal ++ [.run])) := by
    rw [List.append_assoc, List.singleton_append, pieces_cons wildcards.run_ne_escape, first,
      pieces_quote_append, last]
    rfl
  rw [Wildcards.like, parsed, Option.map_some, Option.some_inj, Bool.eq_iff_iff, decide_eq_true_eq,
    goes_run]
  simp only [goes_literals]
  constructor
  · intro found
    obtain ⟨front, _, rfl, back, rfl, -⟩ := found
    exact ⟨front, back, List.append_assoc ..⟩
  · intro found
    obtain ⟨front, back, rfl⟩ := found
    refine ⟨front, sought ++ back, List.append_assoc .., back, rfl, ?_⟩
    exact goes_run.mpr ⟨back, [], (List.append_nil back).symm, rfl⟩

end Like

end Patterns

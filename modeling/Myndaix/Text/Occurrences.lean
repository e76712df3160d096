import Mathlib.Data.List.Infix
import Myndaix.Text.Bytes

/-! Occurrences of a text in another: across a symbol that the sought text does not have, across the
seam of two texts, and the first and the last one of all.
-/

namespace Text

variable {Symbol : Type} {sought : List Symbol}

-- Across a symbol

variable {symbol : Symbol}

/-- A text does not begin before a symbol that it lacks and end behind it. -/
theorem prefix_across {front tail : List Symbol} (absent : symbol ∉ sought)
    (begins : sought <+: front ++ symbol :: tail)
    : sought <+: front := by
  induction front generalizing sought with
  | nil =>
      cases sought with
      | nil => exact List.nil_prefix
      | cons first rest =>
          obtain ⟨rfl, _⟩ := List.cons_prefix_cons.mp begins
          exact absurd List.mem_cons_self absent
  | cons other front ih =>
      cases sought with
      | nil => exact List.nil_prefix
      | cons first rest =>
          obtain ⟨rfl, onward⟩ := List.cons_prefix_cons.mp begins
          have behind := ih (fun mem => absent (List.mem_cons_of_mem _ mem)) onward
          exact List.cons_prefix_cons.mpr ⟨rfl, behind⟩

/-- It occurs on one side of the symbol; by induction on the front. -/
theorem infix_across {front tail : List Symbol} (absent : symbol ∉ sought)
    : sought <:+: front ++ symbol :: tail ↔ sought <:+: front ∨ sought <:+: tail := by
  constructor
  · intro occurs
    induction front with
    | nil =>
        rcases List.infix_cons_iff.mp occurs with begins | occurs
        · exact Or.inl (prefix_across absent begins).isInfix
        · exact Or.inr occurs
    | cons other front ih =>
        rcases List.infix_cons_iff.mp occurs with begins | occurs
        · exact Or.inl (prefix_across absent begins).isInfix
        · exact (ih occurs).imp_left fun inside => inside.trans (List.suffix_cons _ _).isInfix
  · intro occurs
    rcases occurs with inside | inside
    · exact inside.trans (List.prefix_append _ _).isInfix
    · exact inside.trans ((List.suffix_cons _ _).trans (List.suffix_append _ _)).isInfix

/-- The first occurrence of a symbol is at one place. -/
theorem first_inj {front other tail rest : List Symbol} (absent : symbol ∉ front)
    (otherAbsent : symbol ∉ other) (same : front ++ symbol :: tail = other ++ symbol :: rest)
    : front = other ∧ tail = rest := by
  induction front generalizing other with
  | nil =>
      cases other with
      | nil => exact ⟨rfl, (List.cons.inj same).2⟩
      | cons first others =>
          obtain ⟨rfl, _⟩ := List.cons.inj same
          exact absurd List.mem_cons_self otherAbsent
  | cons first front ih =>
      cases other with
      | nil =>
          obtain ⟨rfl, _⟩ := List.cons.inj same
          exact absurd List.mem_cons_self absent
      | cons second others =>
          obtain ⟨rfl, behind⟩ := List.cons.inj same
          obtain ⟨rfl, tails⟩ :=
            ih (fun mem => absent (List.mem_cons_of_mem _ mem))
              (fun mem => otherAbsent (List.mem_cons_of_mem _ mem)) behind
          exact ⟨rfl, tails⟩

/-- Nothing occurs over the end of a text whose last symbol is not among those behind. -/
theorem infix_behind {front blanks : List Symbol} {last : Symbol} (absent : last ∉ blanks)
    : sought ++ [last] <:+: front ++ blanks ↔ sought ++ [last] <:+: front := by
  refine ⟨fun occurs => ?_, fun occurs => occurs.trans (List.prefix_append _ _).isInfix⟩
  obtain ⟨before, behind, same⟩ := occurs
  rcases List.append_eq_append_iff.mp same with ⟨kept, whole, -⟩ | ⟨past, ends, whole⟩
  · exact ⟨before, kept, whole.symm⟩
  · cases past using List.reverseRecOn with
    | nil => exact ⟨before, [], by rw [List.append_nil] at ends ⊢; exact ends⟩
    | append_singleton past final =>
        rw [← List.append_assoc, ← List.append_assoc] at ends
        obtain ⟨-, final_⟩ := List.append_inj' ends rfl
        refine absurd ?_ absent
        rw [whole, List.singleton_inj.mp final_]
        simp

/-- It occurs in ended parts when it occurs in one of them, by induction on the parts. -/
theorem infix_terminated {separator : Symbol} {parts : List (List Symbol)} (filled : sought ≠ [])
    (absent : separator ∉ sought)
    : sought <:+: terminated separator parts ↔ ∃ part ∈ parts, sought <:+: part := by
  induction parts with
  | nil => simp [terminated, filled]
  | cons part parts ih =>
      have shape
          : terminated separator (part :: parts)
            = part ++ separator :: terminated separator parts := by
        simp [terminated]
      rw [shape, infix_across absent, ih, List.exists_mem_cons_iff]

-- Across a text

/-- A text that does not hold the sought one and ends with a symbol that the sought one lacks. -/
def ClosesOff (sought literal : List Symbol) : Prop :=
  ¬ sought <:+: literal ∧ ∃ last ∈ literal.getLast?, last ∉ sought

/-- One that begins with such a symbol as well. -/
def Separates (sought literal : List Symbol) : Prop :=
  ClosesOff sought literal ∧ ∃ first ∈ literal.head?, first ∉ sought

theorem infix_closed {literal tail : List Symbol} (closes : ClosesOff sought literal)
    : sought <:+: literal ++ tail ↔ sought <:+: tail := by
  obtain ⟨outside, last, isLast, absent⟩ := closes
  obtain ⟨front, rfl⟩ := List.getLast?_eq_some_iff.mp isLast
  rw [List.append_assoc, List.singleton_append, infix_across absent]
  refine or_iff_right fun inside => outside ?_
  exact inside.trans (List.prefix_append _ _).isInfix

/-- What occurs around a separating text occurs on one side of it. -/
theorem infix_separated {front literal tail : List Symbol} (separates : Separates sought literal)
    : sought <:+: front ++ literal ++ tail ↔ sought <:+: front ∨ sought <:+: tail := by
  obtain ⟨closes, first, isFirst, absent⟩ := separates
  obtain ⟨rest, rfl⟩ := List.head?_eq_some_iff.mp isFirst
  have closed := @infix_closed _ _ _ tail closes
  rw [List.cons_append] at closed
  rw [List.append_assoc, List.cons_append, infix_across absent]
  refine or_congr_right ⟨fun inside => ?_, fun inside => ?_⟩
  · exact closed.mp (inside.trans (List.suffix_cons _ _).isInfix)
  · exact inside.trans (List.suffix_append _ _).isInfix

theorem infix_opened {front literal tail : List Symbol} (separates : Separates sought literal)
    : sought <:+: front ++ (literal ++ tail)
      ↔ sought <:+: front ∨ sought <:+: literal ++ tail := by
  rw [← List.append_assoc, infix_separated separates, infix_closed separates.1]

/-- What occurs in joined parts occurs in one of them, by induction on the parts. -/
theorem infix_intercalate {literal : List Symbol} {parts : List (List Symbol)}
    (filled : sought ≠ [])
    (separates : Separates sought literal)
    : sought <:+: literal.intercalate parts ↔ ∃ part ∈ parts, sought <:+: part := by
  induction parts with
  | nil => simp [filled]
  | cons part parts ih =>
      by_cases alone : parts = []
      · subst alone
        simp [List.intercalate_singleton]
      · rw [List.intercalate_cons_of_ne_nil alone, infix_separated separates, ih]
        simp

-- Across a seam

/-- The sought text begins in the one text and ends in the other. -/
def Straddles (sought left right : List Symbol) : Prop :=
  ∃ begun ended,
    sought = begun ++ ended ∧ begun ≠ [] ∧ ended ≠ [] ∧ begun <:+ left ∧ ended <+: right

theorem Straddles.append_left {left right : List Symbol} (straddles : Straddles sought left right)
    (front : List Symbol)
    : Straddles sought (front ++ left) right := by
  obtain ⟨begun, ended, split, some, some', ends, begins⟩ := straddles
  exact ⟨begun, ended, split, some, some', ends.trans (List.suffix_append _ _), begins⟩

variable [DecidableEq Symbol]

/-- The texts before and behind the last occurrence. -/
def rsplit (sought : List Symbol) : List Symbol → Option (List Symbol × List Symbol)
  | [] => none
  | symbol :: rest =>
      match rsplit sought rest with
      | some (before, after) => some (symbol :: before, after)
      | none =>
          if sought.isPrefixOf (symbol :: rest) then
            some ([], (symbol :: rest).drop sought.length)
          else none

theorem rsplit_none {text : List Symbol} (absent : ¬sought <:+: text)
    : rsplit sought text = none := by
  induction text with
  | nil => rfl
  | cons symbol rest ih =>
      rw [List.infix_cons_iff, not_or] at absent
      rw [rsplit, ih absent.2]
      simpa using absent.1

/-- Where an occurrence has no later one, that overlaps it or not, it is the last. -/
theorem rsplit_last {first : Symbol} {rest after : List Symbol} (before : List Symbol)
    (last : ¬first :: rest <:+: rest ++ after)
    : rsplit (first :: rest) (before ++ first :: rest ++ after) = some (before, after) := by
  induction before with
  | nil =>
      rw [List.nil_append, List.cons_append, rsplit, rsplit_none last]
      simp
  | cons symbol before ih => rw [List.cons_append, List.cons_append, rsplit, ih]

/-- What occurs has a last occurrence; by induction on the text. -/
theorem rsplit_occurs {first : Symbol} {rest text : List Symbol} (occurs : first :: rest <:+: text)
    : ∃ before after,
        rsplit (first :: rest) text = some (before, after)
        ∧ text = before ++ first :: rest ++ after
        ∧ ¬first :: rest <:+: rest ++ after := by
  induction text with
  | nil => cases List.infix_nil.mp occurs
  | cons symbol tail ih =>
      by_cases later : first :: rest <:+: tail
      · obtain ⟨before, after, split, same, last⟩ := ih later
        exact ⟨symbol :: before, after, by rw [rsplit, split], by rw [same]; rfl, last⟩
      · obtain ⟨after, same⟩ := (List.infix_cons_iff.mp occurs).resolve_right later
        obtain ⟨rfl, rfl⟩ := List.cons.inj same
        refine ⟨[], after, ?_, rfl, later⟩
        exact rsplit_last [] later

/-- Where a text is cut, it is cut at the last occurrence. -/
theorem rsplit_some {first : Symbol} {rest text before after : List Symbol}
    (cut : rsplit (first :: rest) text = some (before, after))
    : text = before ++ first :: rest ++ after ∧ ¬first :: rest <:+: rest ++ after := by
  have occurs : first :: rest <:+: text := by
    by_contra absent
    rw [rsplit_none absent] at cut
    cases cut
  obtain ⟨_, _, split, same, last⟩ := rsplit_occurs occurs
  rw [cut] at split
  cases split
  exact ⟨same, last⟩

-- The first occurrence

/-- The texts before and behind the first occurrence. -/
def lsplit (sought : List Symbol) : List Symbol → Option (List Symbol × List Symbol)
  | [] => none
  | symbol :: rest =>
      if sought.isPrefixOf (symbol :: rest) then some ([], (symbol :: rest).drop sought.length)
      else
        match lsplit sought rest with
        | some (before, after) => some (symbol :: before, after)
        | none => none

theorem lsplit_begins (filled : sought ≠ []) (after : List Symbol)
    : lsplit sought (sought ++ after) = some ([], after) := by
  obtain ⟨symbol, rest, rfl⟩ := List.exists_cons_of_ne_nil filled
  have begins : (symbol :: rest).isPrefixOf (symbol :: (rest ++ after)) := by simp
  rw [List.cons_append, lsplit, if_pos begins, ← List.cons_append, List.drop_left]

/-- Where no occurrence ends earlier, overlapping this one or not, this is the first. -/
theorem lsplit_first {begun before : List Symbol} {last : Symbol} (after : List Symbol)
    (first : ¬begun ++ [last] <:+: before ++ begun)
    : lsplit (begun ++ [last]) (before ++ (begun ++ [last]) ++ after) = some (before, after) := by
  induction before with
  | nil => exact lsplit_begins (by simp) after
  | cons symbol before ih =>
      have later : ¬begun ++ [last] <:+: before ++ begun := fun occurs =>
        first (occurs.trans (List.suffix_cons _ _).isInfix)
      have behind
          : ¬(begun ++ [last]).isPrefixOf (symbol :: before ++ (begun ++ [last]) ++ after) := by
        intro begins
        have begins := List.isPrefixOf_iff_prefix.mp begins
        have within
            : symbol :: before ++ begun <+: symbol :: before ++ (begun ++ [last]) ++ after :=
          ⟨last :: after, by simp⟩
        refine first (List.prefix_of_prefix_length_le begins within ?_).isInfix
        simp only [List.length_append, List.length_cons, List.length_nil]
        omega
      rw [List.cons_append, List.cons_append] at behind ⊢
      rw [lsplit, if_neg behind, ih later]

/-- Where a text is cut, it is cut at the first occurrence; by induction on the text. -/
theorem lsplit_some {begun text before after : List Symbol} {last : Symbol}
    (cut : lsplit (begun ++ [last]) text = some (before, after))
    : text = before ++ (begun ++ [last]) ++ after ∧ ¬begun ++ [last] <:+: before ++ begun := by
  induction text generalizing before with
  | nil => cases cut
  | cons symbol rest ih =>
      rw [lsplit] at cut
      split at cut
      · rename_i begins
        obtain ⟨tail, whole⟩ := List.isPrefixOf_iff_prefix.mp begins
        rw [← whole, List.drop_left] at cut
        cases cut
        refine ⟨whole.symm, fun occurs => ?_⟩
        have short := occurs.length_le
        simp only [List.length_append, List.length_cons, List.length_nil] at short
        omega
      · rename_i later
        split at cut
        · rename_i found
          cases cut
          obtain ⟨same, first⟩ := ih found
          refine ⟨by rw [same]; rfl, fun occurs => ?_⟩
          rcases List.infix_cons_iff.mp occurs with begins | occurs
          · refine later (List.isPrefixOf_iff_prefix.mpr (begins.trans ⟨last :: after, ?_⟩))
            rw [same]
            simp
          · exact first occurs
        · cases cut

end Text

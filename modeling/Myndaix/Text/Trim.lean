import Mathlib.Data.List.DropRight
import Mathlib.Data.List.Infix

/-! Texts without blanks at their ends, or with no more than one of them at a time. -/

namespace Text

variable {Symbol : Type} {blank : Symbol → Bool} {text : List Symbol} {symbol : Symbol}

def trim (blank : Symbol → Bool) (text : List Symbol) : List Symbol :=
  ((text.dropWhile blank).reverse.dropWhile blank).reverse

/-- Every run of blanks is one filler. -/
def squeeze (blank : Symbol → Bool) (filler : Symbol) : List Symbol → List Symbol
  | [] => []
  | symbol :: rest =>
      if blank symbol then
        if rest.head?.any blank then squeeze blank filler rest
        else filler :: squeeze blank filler rest
      else symbol :: squeeze blank filler rest

/-- Neither end is blank. -/
structure Trimmed (blank : Symbol → Bool) (text : List Symbol) : Prop where
  head : ∀ symbol, text.head? = some symbol → blank symbol = false
  last : ∀ symbol, text.getLast? = some symbol → blank symbol = false

theorem trim_eq_rdropWhile (blank : Symbol → Bool) (text : List Symbol)
    : trim blank text = (text.dropWhile blank).rdropWhile blank :=
  rfl

theorem trim_infix (blank : Symbol → Bool) (text : List Symbol) : trim blank text <:+: text :=
  (List.rdropWhile_prefix _ _).isInfix.trans (List.dropWhile_suffix _).isInfix

/-- What is dropped at the ends is blank. -/
theorem trim_split (blank : Symbol → Bool) (text : List Symbol)
    : ∃ front back,
        text = front ++ trim blank text ++ back
        ∧ (∀ symbol ∈ front, blank symbol = true)
        ∧ (∀ symbol ∈ back, blank symbol = true) := by
  let open_ := text.dropWhile blank
  have back : open_ = trim blank text ++ (open_.reverse.takeWhile blank).reverse := by
    rw [Text.trim, ← List.reverse_append, List.takeWhile_append_dropWhile, List.reverse_reverse]
  refine ⟨text.takeWhile blank, (open_.reverse.takeWhile blank).reverse, ?_, ?_, ?_⟩
  · rw [List.append_assoc, ← back, List.takeWhile_append_dropWhile]
  · exact fun symbol mem => List.mem_takeWhile_imp mem
  · exact fun symbol mem => List.mem_takeWhile_imp (List.mem_reverse.mp mem)

theorem Trimmed.trim (trimmed : Trimmed blank text) : trim blank text = text := by
  have front : text.dropWhile blank = text := by
    cases text with
    | nil => rfl
    | cons first rest =>
        rw [List.dropWhile_cons_of_neg]
        simp [trimmed.head first rfl]
  rw [trim_eq_rdropWhile, front, List.rdropWhile_eq_self_iff]
  intro filled
  simp [trimmed.last _ (List.getLast?_eq_some_getLast filled)]

theorem trimmed_trim (blank : Symbol → Bool) (text : List Symbol)
    : Trimmed blank (Text.trim blank text) := by
  rw [trim_eq_rdropWhile]
  constructor
  · intro symbol isHead
    obtain ⟨rest, kept⟩ := List.rdropWhile_prefix blank (text.dropWhile blank)
    have front : (text.dropWhile blank).head? = some symbol := by
      rw [← kept, List.head?_append, isHead]
      rfl
    have open_ := List.head?_dropWhile_not blank text
    rw [front] at open_
    exact open_
  · intro symbol isLast
    have filled : (text.dropWhile blank).rdropWhile blank ≠ [] := fun empty => by
      rw [empty] at isLast
      cases isLast
    rw [List.getLast?_eq_some_getLast filled] at isLast
    cases isLast
    simpa using List.rdropWhile_last_not blank _ filled

theorem trim_eq_self : trim blank text = text ↔ Trimmed blank text :=
  ⟨fun same => same ▸ trimmed_trim blank text, Trimmed.trim⟩

/-- Only blanks are dropped. -/
theorem mem_trim (filled : blank symbol = false) : symbol ∈ trim blank text ↔ symbol ∈ text := by
  have drop (text : List Symbol) : symbol ∈ text.dropWhile blank ↔ symbol ∈ text := by
    refine ⟨fun mem => List.dropWhile_subset _ mem, fun mem => ?_⟩
    rw [← List.takeWhile_append_dropWhile (p := blank) (l := text)] at mem
    rcases List.mem_append.mp mem with dropped | kept
    · rw [List.mem_takeWhile_imp dropped] at filled
      cases filled
    · exact kept
  rw [trim, List.mem_reverse, drop, List.mem_reverse, drop]

/-- A trimmed text is got back from blanks around it. -/
theorem trim_blanks {front back : List Symbol} (trimmed : Trimmed blank text) (filled : text ≠ [])
    (before : ∀ symbol ∈ front, blank symbol = true) (behind : ∀ symbol ∈ back, blank symbol = true)
    : trim blank (front ++ text ++ back) = text := by
  obtain ⟨first, rest, rfl⟩ := List.exists_cons_of_ne_nil filled
  have solid := trimmed.head first rfl
  obtain ⟨others, last, same⟩ := (List.eq_nil_or_concat' (first :: rest)).resolve_left filled
  have solid' : blank last = false := trimmed.last last (by rw [same]; simp)
  rw [trim, List.append_assoc, List.dropWhile_append_of_pos before, List.cons_append,
    List.dropWhile_cons_of_neg (by simp [solid]), ← List.cons_append, List.reverse_append,
    List.dropWhile_append_of_pos fun symbol mem => behind symbol (List.mem_reverse.mp mem),
    same, List.reverse_append, List.reverse_singleton, List.singleton_append,
    List.dropWhile_cons_of_neg (by simp [solid'])]
  simp

/-- What begins with a trimmed text and ends with one is trimmed. -/
theorem Trimmed.append {front middle back : List Symbol} (trimmed : Trimmed blank front)
    (filled : front ≠ []) (trimmed' : Trimmed blank back) (filled' : back ≠ [])
    : Trimmed blank (front ++ middle ++ back) where
  head symbol first := by
    rw [List.append_assoc, List.head?_append_of_ne_nil _ filled] at first
    exact trimmed.head symbol first
  last symbol last := by
    rw [List.getLast?_append_of_ne_nil _ filled'] at last
    exact trimmed'.last symbol last

/-- A first symbol that is not blank stays. -/
theorem trim_cons {rest : List Symbol} (solid : blank symbol = false)
    : ∃ kept, trim blank (symbol :: rest) = symbol :: kept := by
  obtain ⟨front, back, whole, before, behind⟩ := trim_split blank (symbol :: rest)
  cases front with
  | cons first front =>
      obtain ⟨rfl, -⟩ := List.cons.inj whole
      rw [before symbol List.mem_cons_self] at solid
      cases solid
  | nil =>
      rw [List.nil_append] at whole
      cases kept : trim blank (symbol :: rest) with
      | nil =>
          rw [kept, List.nil_append] at whole
          rw [behind symbol (whole ▸ List.mem_cons_self)] at solid
          cases solid
      | cons first kept' =>
          rw [kept] at whole
          obtain ⟨rfl, -⟩ := List.cons.inj whole
          exact ⟨kept', rfl⟩

/-- What is squeezed has fillers for its blanks. -/
theorem mem_squeeze {filler : Symbol} (mem : symbol ∈ squeeze blank filler text)
    : symbol = filler ∨ blank symbol = false := by
  fun_induction squeeze blank filler text with
  | case1 => cases mem
  | case2 _ _ _ _ ih => exact ih mem
  | case3 _ _ _ _ ih =>
      rcases List.mem_cons.mp mem with rfl | inside
      · exact .inl rfl
      · exact ih inside
  | case4 _ _ solid ih =>
      rcases List.mem_cons.mp mem with rfl | inside
      · exact .inr (Bool.eq_false_iff.mpr solid)
      · exact ih inside

theorem squeeze_subset {filler : Symbol} (mem : symbol ∈ squeeze blank filler text)
    : symbol = filler ∨ symbol ∈ text := by
  fun_induction squeeze blank filler text with
  | case1 => cases mem
  | case2 first rest _ _ ih => exact (ih mem).imp_right (List.mem_cons_of_mem first)
  | case3 first rest _ _ ih =>
      rcases List.mem_cons.mp mem with same | inside
      · exact .inl same
      · exact (ih inside).imp_right (List.mem_cons_of_mem first)
  | case4 first rest _ ih =>
      rcases List.mem_cons.mp mem with same | inside
      · exact .inr (same ▸ List.mem_cons_self)
      · exact (ih inside).imp_right (List.mem_cons_of_mem first)

/-- The two sides of a symbol that is not blank are squeezed on their own. -/
theorem squeeze_across {filler : Symbol} {front tail : List Symbol} (solid : blank symbol = false)
    : squeeze blank filler (front ++ symbol :: tail)
      = squeeze blank filler front ++ symbol :: squeeze blank filler tail := by
  induction front with
  | nil => simp [squeeze, solid]
  | cons first front ih =>
      have next : (front ++ symbol :: tail).head?.any blank = front.head?.any blank := by
        cases front with
        | nil => simp [solid]
        | cons second front => rfl
      simp only [List.cons_append, squeeze, next, ih]
      split_ifs <;> rfl

section Tighten

variable [DecidableEq Symbol] {mark : Symbol}

/-- Blanks around a mark are dropped; `behind` tells whether the text stands behind a mark. -/
def tighten (blank : Symbol → Bool) (mark : Symbol) (behind : Bool) : List Symbol → List Symbol
  | [] => []
  | symbol :: rest =>
      if symbol = mark then mark :: tighten blank mark true rest
      else if blank symbol && (behind || (rest.dropWhile blank).head? = some mark) then
        tighten blank mark behind rest
      else symbol :: tighten blank mark false rest

theorem tighten_sublist (behind : Bool) (text : List Symbol)
    : (tighten blank mark behind text).Sublist text := by
  induction text generalizing behind with
  | nil => exact .slnil
  | cons first rest ih =>
      rw [tighten]
      split_ifs with isMark
      · exact isMark ▸ (ih true).cons_cons mark
      · exact (ih behind).cons first
      · exact (ih false).cons_cons first

/-- The two sides of a symbol that is neither blank nor the mark are tightened on their own. -/
theorem tighten_across {front tail : List Symbol} {behind : Bool} (solid : blank symbol = false)
    (other : symbol ≠ mark)
    : tighten blank mark behind (front ++ symbol :: tail)
      = tighten blank mark behind front ++ symbol :: tighten blank mark false tail := by
  induction front generalizing behind with
  | nil => simp [tighten, solid, other]
  | cons first front ih =>
      have next
          : ((front ++ symbol :: tail).dropWhile blank).head? = some mark
            ↔ (front.dropWhile blank).head? = some mark := by
        rw [List.dropWhile_append]
        cases front.dropWhile blank with
        | nil => simp [solid, other]
        | cons second kept => simp
      simp only [List.cons_append, tighten, next, ih]
      split_ifs <;> rfl

end Tighten

/-- Blanks behind another symbol are dropped, and nothing else. -/
theorem rdropWhile_behind {front blanks : List Symbol} (solid : blank symbol = false)
    (blanks_ : ∀ symbol ∈ blanks, blank symbol = true)
    : (front ++ symbol :: blanks).rdropWhile blank = front ++ [symbol] := by
  have backward : ∀ symbol ∈ blanks.reverse, blank symbol = true := fun symbol mem =>
    blanks_ symbol (List.mem_reverse.mp mem)
  rw [List.rdropWhile, List.reverse_append, List.reverse_cons, List.append_assoc,
    List.dropWhile_append_of_pos backward, List.singleton_append,
    List.dropWhile_cons_of_neg (by simp [solid]), List.reverse_cons, List.reverse_reverse]

end Text

import Myndaix.Knowledge.Hits
import Myndaix.Text.Clipped

/-! Texts whose line ends are translated: what is kept, and which lines there are afterwards. -/

namespace Knowledge

open Curate (Str universalNewlines)
open Outcomes (isSpace)
open Text

variable {text : Str} {char : Char}

/-- Only carriage returns are translated. -/
theorem universalNewlines_eq_self : universalNewlines text = text ↔ '\r' ∉ text := by
  constructor
  · intro same mem
    rw [← same] at mem
    rcases mem_universalNewlines mem with other | ⟨other, _⟩
    · cases other
    · exact other rfl
  · intro absent
    fun_induction universalNewlines text with
    | case1 rest ih => exact absurd List.mem_cons_self absent
    | case2 rest _ ih => exact absurd List.mem_cons_self absent
    | case3 other rest _ noReturn ih =>
        rw [ih fun mem => absent (List.mem_cons_of_mem _ mem)]
    | case4 => rfl

theorem mem_universalNewlines_of_ne (mem : char ∈ text) (other : char ≠ '\r')
    : char ∈ universalNewlines text := by
  fun_induction universalNewlines text with
  | case1 rest ih =>
      rcases List.mem_cons.mp mem with same | mem
      · exact absurd same other
      · rcases List.mem_cons.mp mem with rfl | mem
        · exact List.mem_cons_self
        · exact List.mem_cons_of_mem _ (ih mem)
  | case2 rest _ ih =>
      rcases List.mem_cons.mp mem with same | mem
      · exact absurd same other
      · exact List.mem_cons_of_mem _ (ih mem)
  | case3 first rest _ noReturn ih =>
      rcases List.mem_cons.mp mem with rfl | mem
      · exact List.mem_cons_self
      · exact List.mem_cons_of_mem _ (ih mem)
  | case4 => cases mem

/-- A text with something else than blanks does not go when it is stripped. -/
theorem trim_universalNewlines (mem : char ∈ text) (filled : isSpace char = false)
    : trim isSpace (universalNewlines text) ≠ [] := by
  have other : char ≠ '\r' := by
    rintro rfl
    revert filled
    decide
  have kept := mem_universalNewlines_of_ne mem other
  obtain ⟨front, back, whole, frontBlank, backBlank⟩ := trim_split isSpace (universalNewlines text)
  intro empty
  rw [empty, List.append_nil] at whole
  rw [whole, List.mem_append] at kept
  rcases kept with kept | kept
  · rw [frontBlank char kept] at filled
    cases filled
  · rw [backBlank char kept] at filled
    cases filled

-- Lines

section Lines

variable {front back rest line : Str} {first second : Char}

/-- A line without the carriage return that its line feed takes with it. -/
def dropReturn (line : Str) : Str :=
  if line.getLast? = some '\r' then line.dropLast else line

theorem dropReturn_cons_cons
    : dropReturn (first :: second :: rest) = first :: dropReturn (second :: rest) := by
  rw [dropReturn, dropReturn, List.getLast?_cons_cons, List.dropLast_cons_cons]
  split <;> rfl

theorem dropReturn_cons (other : first ≠ '\r')
    : dropReturn (first :: rest) = first :: dropReturn rest := by
  cases rest with
  | nil => simp [dropReturn, other]
  | cons second rest => exact dropReturn_cons_cons

theorem universalNewlines_cons (other : first ≠ '\r') (rest : Str)
    : universalNewlines (first :: rest) = first :: universalNewlines rest := by
  rw [universalNewlines]
  · rintro _ rfl
    exact absurd rfl other
  · rintro rfl
    exact absurd rfl other

theorem universalNewlines_return (rest : Str) (noFeed : rest.head? ≠ some '\n')
    : universalNewlines ('\r' :: rest) = '\n' :: universalNewlines rest := by
  rw [universalNewlines]
  rintro other rfl
  exact noFeed rfl

/-- A line feed ends a line on its own, but for the carriage return before it; by induction on the
line.
-/
theorem universalNewlines_feed (front back : Str)
    : universalNewlines (front ++ '\n' :: back)
      = universalNewlines (dropReturn front) ++ '\n' :: universalNewlines back := by
  induction front with
  | nil => rfl
  | cons first front ih =>
      by_cases other : first = '\r'
      · subst other
        cases front with
        | nil => rfl
        | cons second front =>
            rw [dropReturn_cons_cons]
            by_cases feed : second = '\n'
            · subst feed
              rw [dropReturn_cons (by decide)] at ih ⊢
              rw [List.cons_append, universalNewlines_cons (by decide),
                universalNewlines_cons (by decide), List.cons_append, List.cons_inj_right] at ih
              exact congrArg ('\n' :: ·) ih
            · have begins : (dropReturn (second :: front)).head? ≠ some '\n' := by
                rw [dropReturn]
                split
                · cases front <;> simp [feed]
                · simp [feed]
              rw [List.cons_append, universalNewlines_return _ (by simp [feed]),
                universalNewlines_return _ begins, ih]
              rfl
      · rw [dropReturn_cons other, List.cons_append, universalNewlines_cons other,
          universalNewlines_cons other, ih]
        rfl

/-- The lines that one line is read as. -/
def readLines (line : Str) : List Str :=
  (universalNewlines (dropReturn line)).splitOn '\n'

theorem readLines_ne_nil (line : Str) : readLines line ≠ [] :=
  List.splitOn_ne_nil _ _

theorem readLines_cons (noReturn : first ≠ '\r') (noFeed : first ≠ '\n') (rest : Str)
    : readLines (first :: rest) = (readLines rest).modifyHead (first :: ·) := by
  rw [readLines, dropReturn_cons noReturn, universalNewlines_cons noReturn,
    List.splitOn_cons_eq_if_modifyHead, if_neg (by simpa using noFeed), readLines]

/-- What stands before every line end stands in the first line. -/
theorem readLines_append (clean : ∀ char ∈ front, char ≠ '\r' ∧ char ≠ '\n') (rest : Str)
    : readLines (front ++ rest) = (readLines rest).modifyHead (front ++ ·) := by
  induction front with
  | nil =>
      obtain ⟨line, lines, split⟩ := List.exists_cons_of_ne_nil (readLines_ne_nil rest)
      rw [List.nil_append, split]
      rfl
  | cons first front ih =>
      have here := clean first List.mem_cons_self
      rw [List.cons_append, readLines_cons here.1 here.2,
        ih fun char mem => clean char (List.mem_cons_of_mem _ mem)]
      obtain ⟨line, lines, split⟩ := List.exists_cons_of_ne_nil (readLines_ne_nil rest)
      rw [split]
      rfl

/-- The lines that ended lines are read as, and an empty one; by induction on them. -/
theorem splitOn_universalNewlines_terminated (lines : List Str)
    : (universalNewlines (terminated '\n' lines)).splitOn '\n'
      = lines.flatMap readLines ++ [[]] := by
  induction lines with
  | nil => rfl
  | cons line lines ih =>
      have split : terminated '\n' (line :: lines) = line ++ '\n' :: terminated '\n' lines := by
        simp [terminated]
      rw [split, universalNewlines_feed, List.splitOn_append_cons_self, ih, List.flatMap_cons,
        List.append_assoc, readLines]

end Lines

end Knowledge

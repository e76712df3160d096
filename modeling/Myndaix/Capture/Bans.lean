import Myndaix.Capture.Triggers

/-! What the ban on broad triggers lets pass: an alternative that matches every path of its depth.
-/

namespace Capture

open Outcomes (isSpace splitWords strip)
open Patterns (Atom fnmatchcase ones reads)
open Text (Trimmed)

-- Paths

/-- The name of a file or directory, without white space at its ends. -/
structure IsName (name : Str) : Prop where
  filled : name ≠ []
  slashless : '/' ∉ name
  noNul : Char.ofNat 0 ∉ name
  trimmed : Trimmed isSpace name

/-- A path of this many names. -/
def PathOf (depth : Nat) (path : Str) : Prop :=
  ∃ names, names.length = depth ∧ (∀ name ∈ names, IsName name) ∧ path = ['/'].intercalate names

/-- A character that may stand alone as a name. -/
def NameChar (char : Char) : Prop :=
  char ≠ '/' ∧ char ≠ Char.ofNat 0 ∧ isSpace char = false

section Paths

variable {name : Str} {names : List Str} {char : Char}

theorem isName_singleton (nameChar : NameChar char) : IsName [char] where
  filled := List.cons_ne_nil _ _
  slashless := by simpa using nameChar.1.symm
  noNul := by simpa using nameChar.2.1.symm
  trimmed := ⟨by simpa using nameChar.2.2, by simpa using nameChar.2.2⟩

theorem isName_letters (count : Nat) : IsName (List.replicate (count + 1) 'a') where
  filled := by simp
  slashless mem := absurd (List.eq_of_mem_replicate mem) (by decide)
  noNul mem := absurd (List.eq_of_mem_replicate mem) (by decide)
  trimmed := by
    constructor
    · intro char first
      rw [List.eq_of_mem_replicate (List.mem_of_head? first)]
      rfl
    · intro char last
      rw [List.eq_of_mem_replicate (List.mem_of_getLast? last)]
      rfl

theorem IsName.head {rest : Str} (isName : IsName (char :: rest)) : NameChar char :=
  ⟨fun same => isName.slashless (same ▸ List.mem_cons_self),
    fun same => isName.noNul (same ▸ List.mem_cons_self), isName.trimmed.head char rfl⟩

theorem IsName.last {rest : Str} (isName : IsName (rest ++ [char])) : NameChar char :=
  ⟨fun same => isName.slashless (same ▸ List.mem_append_right _ (List.mem_singleton_self _)),
    fun same => isName.noNul (same ▸ List.mem_append_right _ (List.mem_singleton_self _)),
    isName.trimmed.last char (by simp)⟩

end Paths

-- Segments that match every name

/-- A segment of stars alone, or of stars around one part that reads whatever character a name
can have.
-/
def CatchAll (seg : Str) : Prop :=
  (Patterns.translate seg ≠ [] ∧ ones (Patterns.translate seg) = 0)
  ∨ ∃ before accepts after,
      Patterns.translate seg = before ++ .one accepts :: after
      ∧ ones before = 0
      ∧ ones after = 0
      ∧ (before ≠ [] ∨ after ≠ [])
      ∧ ∀ char, NameChar char → accepts char = true

section CatchAll

variable {seg : Str} {before after : List Atom} {accepts : Char → Bool} {text : Str} {char : Char}

/-- Stars, or nothing before an empty text. -/
theorem reads_around (stars : ones before = 0) (fits : before ≠ [] ∨ text = [])
    : reads before text = true := by
  by_cases none : before = []
  · subst none
    exact Patterns.reads_nil.mpr (fits.resolve_left fun some => some rfl)
  · exact Patterns.reads_stars stars none

/-- One part between stars reads a text cut at a character that it accepts. -/
theorem reads_between (stars : ones before = 0) (others : ones after = 0)
    (fits : accepts char = true) {front rest : Str} (begins : before ≠ [] ∨ front = [])
    (ends : after ≠ [] ∨ rest = [])
    : reads (before ++ .one accepts :: after) (front ++ char :: rest) = true :=
  Patterns.reads_append.mpr ⟨front, char :: rest, rfl, reads_around stars begins,
    Patterns.reads_one.mpr ⟨char, rest, rfl, fits, reads_around others ends⟩⟩

theorem catchAll_matches (all : CatchAll seg) {name : Str} (isName : IsName name)
    : fnmatchcase name seg = true := by
  unfold fnmatchcase
  rcases all with ⟨some, stars⟩ | ⟨before, accepts, after, parts, stars, others, some, whole⟩
  · exact Patterns.reads_stars stars some
  · rw [parts]
    by_cases ends : after = []
    · -- The last character is the one that is read.
      obtain ⟨front, last, rfl⟩ :=
        (List.eq_nil_or_concat' name).resolve_left isName.filled
      exact reads_between stars others (whole last isName.last)
        (some.imp_right fun other => absurd ends other) (.inr rfl)
    · obtain ⟨first, rest, rfl⟩ := List.exists_cons_of_ne_nil isName.filled
      exact @reads_between before after accepts first stars others (whole first isName.head) []
        rest (.inr rfl) (.inl ends)

/-- What else there is misses a name: one too short, or one of a single character. -/
theorem catchAll_of_matches (whole : ∀ name, IsName name → fnmatchcase name seg = true)
    : CatchAll seg := by
  have length := Patterns.reads_length (whole _ (isName_letters (ones (Patterns.translate seg))))
  have starred : .star ∈ Patterns.translate seg := by
    by_contra none
    have exact_ := length.2 none
    rw [List.length_replicate] at exact_
    omega
  have single : NameChar 'a' := ⟨by decide, by decide, rfl⟩
  have few := (Patterns.reads_length (whole ['a'] (isName_singleton single))).1
  rw [List.length_singleton] at few
  rcases Nat.lt_or_eq_of_le few with none | one
  · exact .inl ⟨List.ne_nil_of_mem starred, by omega⟩
  · obtain ⟨before, accepts, after, parts, stars, others⟩ := Patterns.ones_eq_one one
    refine .inr ⟨before, accepts, after, parts, stars, others, ?_, ?_⟩
    · by_contra neither
      rw [not_or, not_not, not_not] at neither
      rw [parts, neither.1, neither.2] at starred
      cases List.mem_singleton.mp starred
    · intro char nameChar
      have reading : reads (Patterns.translate seg) [char] = true :=
        whole [char] (isName_singleton nameChar)
      rw [parts] at reading
      obtain ⟨front, behind, split, -, single⟩ := Patterns.reads_append.mp reading
      obtain ⟨other, rest, rfl, fits, -⟩ := Patterns.reads_one.mp single
      have mem : other ∈ [char] := by
        rw [split]
        exact List.mem_append_right _ List.mem_cons_self
      rw [← List.mem_singleton.mp mem]
      exact fits

theorem catchAll_iff : CatchAll seg ↔ ∀ name, IsName name → fnmatchcase name seg = true :=
  ⟨fun all _ isName => catchAll_matches all isName, catchAll_of_matches⟩

end CatchAll

-- What passes

/-- A trigger that is let pass spares a path of every depth, with each of its alternatives. -/
def Spares (trigger : Str) : Prop :=
  isBannedTrigger trigger = false
  → ∀ alt ∈ triggerAlternatives trigger, ∀ depth,
      0 < depth → ∃ path, PathOf depth path ∧ segMatch alt path = false

section Spares

variable {trigger alt path : Str} {names : List Str}

/-- A path is read back as its names. -/
theorem splitOn_path (filled : names ≠ []) (areNames : ∀ name ∈ names, IsName name)
    : (['/'].intercalate names).splitOn '/' = names :=
  List.splitOn_intercalate '/' (fun name mem => (areNames name mem).slashless) filled

/-- Neither end of a path is white space; by induction on its names. -/
theorem trimmed_path (filled : names ≠ []) (areNames : ∀ name ∈ names, IsName name)
    : ['/'].intercalate names ≠ [] ∧ Trimmed isSpace (['/'].intercalate names) := by
  induction names with
  | nil => exact absurd rfl filled
  | cons name names induction =>
      have isName := areNames name List.mem_cons_self
      by_cases last : names = []
      · rw [last, List.intercalate_singleton]
        exact ⟨isName.filled, isName.trimmed⟩
      · obtain ⟨some, trimmed⟩ := induction last fun other mem =>
          areNames other (.tail _ mem)
        obtain ⟨first, rest, rfl⟩ := List.exists_cons_of_ne_nil isName.filled
        rw [List.intercalate_cons_of_ne_nil last]
        refine ⟨by simp, fun char first_ => ?_, fun char last_ => ?_⟩
        · exact isName.trimmed.head char (by simpa using first_)
        · rw [List.getLast?_append_of_ne_nil _ some] at last_
          exact trimmed.last char last_

/-- An alternative against a path of names. -/
theorem segMatch_path (mem : alt ∈ triggerAlternatives trigger) (filled : names ≠ [])
    (areNames : ∀ name ∈ names, IsName name)
    : segMatch alt (['/'].intercalate names) = altMatches alt names := by
  have stripped : strip (['/'].intercalate names) = ['/'].intercalate names :=
    (trimmed_path filled areNames).2.trim
  unfold segMatch
  rw [stripped, splitOn_path filled areNames, triggerAlternatives_alternative mem,
    List.any_cons, List.any_nil, Bool.or_false]

/-- Some name that a segment misses, if there is one. -/
theorem exists_missed (seg : Str)
    : ∃ name, IsName name ∧ (¬ CatchAll seg → fnmatchcase name seg = false) := by
  by_cases all : CatchAll seg
  · exact ⟨_, isName_letters 0, fun other => absurd all other⟩
  · rw [catchAll_iff] at all
    simp only [not_forall, Bool.not_eq_true] at all
    obtain ⟨name, isName, missed⟩ := all
    exact ⟨name, isName, fun _ => missed⟩

/-- An alternative spares a path of every depth if one of its segments does not match every name. -/
theorem spares_of_segment (mem : alt ∈ triggerAlternatives trigger)
    (some : ∃ seg ∈ alt.splitOn '/', ¬ CatchAll seg) {depth : Nat} (positive : 0 < depth)
    : ∃ path, PathOf depth path ∧ segMatch alt path = false := by
  by_cases deep : depth = (alt.splitOn '/').length
  · choose missed areNames misses using exists_missed
    have isPath : ∀ name ∈ (alt.splitOn '/').map missed, IsName name := fun name among => by
      obtain ⟨seg, -, rfl⟩ := List.mem_map.mp among
      exact areNames seg
    have filled : (alt.splitOn '/').map missed ≠ [] := by
      simp [List.splitOn_ne_nil]
    refine ⟨_, ⟨_, by simp [deep], isPath, rfl⟩, ?_⟩
    rw [segMatch_path mem filled isPath]
    obtain ⟨seg, among, narrow⟩ := some
    unfold altMatches
    simp only
    rw [Bool.and_eq_false_iff]
    right
    rw [List.all_eq_false]
    refine ⟨(seg, missed seg), ?_, by simp [misses seg narrow]⟩
    rw [List.zip_map_right]
    exact List.mem_map.mpr ⟨(seg, seg), mem_zip_self.mpr ⟨rfl, among⟩, rfl⟩
  · refine ⟨_, ⟨List.replicate depth ['a'], by simp, fun name among => ?_, rfl⟩, ?_⟩
    · rw [List.eq_of_mem_replicate among]
      exact isName_letters 0
    · have areNames : ∀ name ∈ List.replicate depth ['a'], IsName name := fun name among => by
        rw [List.eq_of_mem_replicate among]
        exact isName_letters 0
      rw [segMatch_path mem (by simp; omega) areNames]
      unfold altMatches
      rw [Bool.and_eq_false_iff]
      left
      simpa using Ne.symm deep

/-- If all of them do, it matches every path of its depth. -/
theorem catches_depth (mem : alt ∈ triggerAlternatives trigger)
    (all : ∀ seg ∈ alt.splitOn '/', CatchAll seg) (isPath : PathOf (alt.splitOn '/').length path)
    : segMatch alt path = true := by
  obtain ⟨names, length, areNames, rfl⟩ := isPath
  have filled : names ≠ [] := by
    intro none
    rw [none, List.length_nil] at length
    exact List.splitOn_ne_nil '/' alt (List.length_eq_zero_iff.mp length.symm)
  rw [segMatch_path mem filled areNames]
  unfold altMatches
  simp only [length, decide_true, Bool.true_and, List.all_eq_true, Prod.forall]
  intro seg name pair
  obtain ⟨among, isName⟩ := List.of_mem_zip pair
  exact catchAll_matches (all seg among) (areNames name isName)

end Spares

/-- A trigger that passes the ban spares paths of every depth exactly if each alternative has a
segment that does not match every name.
-/
theorem spares_iff (trigger : Str)
    : Spares trigger
      ↔ (isBannedTrigger trigger = false
          → ∀ alt ∈ triggerAlternatives trigger, ∃ seg ∈ alt.splitOn '/', ¬ CatchAll seg) := by
  refine forall_congr' fun passes => forall₂_congr fun alt mem => ?_
  constructor
  · intro spares
    by_contra none
    have all : ∀ seg ∈ alt.splitOn '/', CatchAll seg := fun seg among => by
      by_contra narrow
      exact none ⟨seg, among, narrow⟩
    have positive : 0 < (alt.splitOn '/').length :=
      List.length_pos_iff.mpr (List.splitOn_ne_nil '/' alt)
    obtain ⟨path, isPath, missed⟩ := spares _ positive
    rw [catches_depth mem all isPath] at missed
    cases missed
  · exact fun some depth positive => spares_of_segment mem some positive

/-- `***` passes the ban and matches every path of one name. -/
theorem three_stars_pass : ¬ Spares ['*', '*', '*'] := by
  intro spares
  have mem : ['*', '*', '*'] ∈ triggerAlternatives ['*', '*', '*'] := by decide +kernel
  obtain ⟨path, isPath, missed⟩ := spares (by decide +kernel) _ mem 1 (by decide)
  have all : ∀ seg ∈ ['*', '*', '*'].splitOn '/', CatchAll seg := by
    intro seg among
    have alone : ['*', '*', '*'].splitOn '/' = [['*', '*', '*']] := by decide +kernel
    rw [alone, List.mem_singleton] at among
    rw [among]
    exact .inl ⟨nofun, rfl⟩
  rw [catches_depth mem all isPath] at missed
  cases missed

end Capture

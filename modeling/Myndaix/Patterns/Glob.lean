import Mathlib.Data.List.Infix

/-! Shell patterns as Python's `fnmatch` reads them: stars, question marks and classes in
brackets, with everything else literal.
-/

namespace Patterns

/-- A part of a pattern: a star reads any text, everything else one character. -/
inductive Atom : Type where
  | star
  | one (accepts : Char → Bool)

def Atom.isStar : Atom → Bool
  | .star => true
  | .one _ => false

-- Classes

/-- What stands between the bracket before `rest` and the one that closes it: a `!` and a `]`
right behind the first do not close it.
-/
def bracket (rest : List Char) : Option (List Char) :=
  let bang := rest.take (if rest.head? = some '!' then 1 else 0)
  let behind := rest.drop bang.length
  let close := behind.take (if behind.head? = some ']' then 1 else 0)
  let members := behind.drop close.length
  if ']' ∈ members then some (bang ++ close ++ members.takeWhile (· ≠ ']')) else none

/-- The class cut at the hyphens of its ranges, with `least` characters before the next one. -/
def cutRanges : Nat → List Char → List Char → List (List Char)
  | _, chunk, [] => [chunk]
  | 0, chunk, char :: rest =>
      if char = '-' then chunk :: cutRanges 2 [] rest else cutRanges 0 (chunk ++ [char]) rest
  | least + 1, chunk, char :: rest => cutRanges least (chunk ++ [char]) rest

/-- A hyphen at the end is a member. -/
def closeRanges : List (List Char) → List (List Char)
  | [] => []
  | [chunk] => [chunk]
  | [chunk, []] => [chunk ++ ['-']]
  | chunk :: next :: chunks => chunk :: closeRanges (next :: chunks)

/-- Where two chunks meet, a range that runs backwards is taken out with its ends. -/
def dropEmptyRanges : List (List Char) → List (List Char)
  | [] => []
  | chunk :: chunks =>
      match dropEmptyRanges chunks with
      | [] => [chunk]
      | next :: more =>
          match chunk.getLast?, next.head? with
          | some low, some high =>
              if high < low then (chunk.dropLast ++ next.tail) :: more
              else chunk :: next :: more
          | _, _ => chunk :: next :: more

/-- The character is in a range from the end of a chunk to the start of the next one. -/
def inRanges : List (List Char) → Char → Bool
  | chunk :: next :: chunks, char =>
      (match chunk.getLast?, next.head? with
        | some low, some high => low ≤ char && char ≤ high
        | _, _ => false)
      || inRanges (next :: chunks) char
  | _, _ => false

/-- The character is a member of the class; a hyphen in front of everything is one too. -/
def inClass (chunks : List (List Char)) (char : Char) : Bool :=
  (chunks.head? = some [] && char = '-') || chunks.flatten.contains char || inRanges chunks char

def classAtom (stuff : List Char) : Atom :=
  let chunks :=
    if '-' ∈ stuff then
      dropEmptyRanges (closeRanges (cutRanges (if stuff.head? = some '!' then 2 else 1) [] stuff))
    else [stuff]
  match chunks with
  | [[]] => .one (fun _ => false)
  | [['!']] => .one (fun _ => true)
  | ('!' :: chunk) :: chunks => .one (fun char => !inClass (chunk :: chunks) char)
  | chunks => .one (inClass chunks)

-- Patterns

/-- A star before these parts, unless they begin with one. -/
def consStar : List Atom → List Atom
  | .star :: atoms => .star :: atoms
  | atoms => .star :: atoms

/-- `fnmatch.translate`, behind `skip` more characters of a class. -/
def translateFrom : Nat → List Char → List Atom
  | _, [] => []
  | skip + 1, _ :: rest => translateFrom skip rest
  | 0, char :: rest =>
      if char = '*' then consStar (translateFrom 0 rest)
      else if char = '?' then .one (fun _ => true) :: translateFrom 0 rest
      else if char = '[' then
        match bracket rest with
        | some stuff => classAtom stuff :: translateFrom (stuff.length + 1) rest
        | none => .one (· = '[') :: translateFrom 0 rest
      else .one (· = char) :: translateFrom 0 rest

theorem translateFrom_cons (char : Char) (rest : List Char)
    : translateFrom 0 (char :: rest)
      = if char = '*' then consStar (translateFrom 0 rest)
        else if char = '?' then .one (fun _ => true) :: translateFrom 0 rest
        else if char = '[' then
          match bracket rest with
          | some stuff => classAtom stuff :: translateFrom (stuff.length + 1) rest
          | none => .one (· = '[') :: translateFrom 0 rest
        else .one (· = char) :: translateFrom 0 rest :=
  rfl

def translate (pattern : List Char) : List Atom :=
  translateFrom 0 pattern

/-- The parts read the whole text. -/
def reads : List Atom → List Char → Bool
  | [], text => text.isEmpty
  | .star :: atoms, text => text.tails.any (reads atoms)
  | .one accepts :: atoms, text =>
      match text with
      | [] => false
      | char :: rest => accepts char && reads atoms rest

def fnmatchcase (name pattern : List Char) : Bool :=
  reads (translate pattern) name

/-- Somewhere in the pattern a class begins. -/
def HasClass (pattern : List Char) : Prop :=
  ∃ rest, '[' :: rest <:+ pattern ∧ (bracket rest).isSome = true

/-- A class begins here. -/
def opensClass : List Char → Bool
  | [] => false
  | char :: rest => char = '[' && (bracket rest).isSome

theorem any_opensClass (pattern : List Char)
    : pattern.tails.any opensClass = true ↔ HasClass pattern := by
  rw [List.any_eq_true]
  constructor
  · intro found
    obtain ⟨tail, isTail, opens⟩ := found
    cases tail with
    | nil => cases opens
    | cons char rest =>
        rw [opensClass, Bool.and_eq_true, decide_eq_true_eq] at opens
        obtain ⟨rfl, closed⟩ := opens
        exact ⟨rest, (List.mem_tails _ _).mp isTail, closed⟩
  · intro has
    obtain ⟨rest, isTail, closed⟩ := has
    refine ⟨'[' :: rest, (List.mem_tails _ _).mpr isTail, ?_⟩
    rw [opensClass, closed]
    rfl

instance (pattern : List Char) : Decidable (HasClass pattern) :=
  decidable_of_iff _ (any_opensClass pattern)

-- Reading

section Reads

variable {atoms first second : List Atom} {text : List Char} {accepts : Char → Bool} {char : Char}

theorem reads_nil : reads [] text = true ↔ text = [] :=
  List.isEmpty_iff

theorem reads_star
    : reads (.star :: atoms) text = true
      ↔ ∃ front rest, text = front ++ rest ∧ reads atoms rest = true := by
  rw [reads, List.any_eq_true]
  constructor
  · intro found
    obtain ⟨rest, isTail, goes⟩ := found
    obtain ⟨front, split⟩ := (List.mem_tails _ _).mp isTail
    exact ⟨front, rest, split.symm, goes⟩
  · intro found
    obtain ⟨front, rest, split, goes⟩ := found
    exact ⟨rest, (List.mem_tails _ _).mpr ⟨front, split.symm⟩, goes⟩

theorem reads_one
    : reads (.one accepts :: atoms) text = true
      ↔ ∃ char rest, text = char :: rest ∧ accepts char = true ∧ reads atoms rest = true := by
  cases text with
  | nil => simp [reads]
  | cons char rest => simp [reads]

/-- A second star adds nothing. -/
theorem reads_consStar : reads (consStar atoms) text = reads (.star :: atoms) text := by
  match atoms with
  | [] | .one _ :: _ => rfl
  | .star :: atoms =>
      rw [consStar, Bool.eq_iff_iff]
      constructor
      · intro reading
        exact reads_star.mpr ⟨[], text, rfl, reading⟩
      · intro reading
        obtain ⟨front, behind, rfl, second⟩ := reads_star.mp reading
        obtain ⟨middle, rest, rfl, goes⟩ := reads_star.mp second
        exact reads_star.mpr ⟨front ++ middle, rest, by rw [List.append_assoc], goes⟩

/-- Parts in a row read a text cut in two; by induction on the first ones. -/
theorem reads_append
    : reads (first ++ second) text = true
      ↔ ∃ front rest, text = front ++ rest ∧ reads first front = true
        ∧ reads second rest = true := by
  induction first generalizing text with
  | nil =>
      simp only [List.nil_append, reads_nil]
      exact ⟨fun reading => ⟨[], text, rfl, rfl, reading⟩,
        fun ⟨front, rest, split, empty, reading⟩ => by rw [split, empty]; exact reading⟩
  | cons atom first induction =>
      cases atom with
      | star =>
          rw [List.cons_append, reads_star]
          constructor
          · intro reading
            obtain ⟨front, behind, rfl, later⟩ := reading
            obtain ⟨middle, rest, rfl, begins, goes⟩ := induction.mp later
            exact ⟨front ++ middle, rest, by rw [List.append_assoc],
              reads_star.mpr ⟨front, middle, rfl, begins⟩, goes⟩
          · intro reading
            obtain ⟨start, rest, rfl, begins, goes⟩ := reading
            obtain ⟨front, middle, rfl, starts⟩ := reads_star.mp begins
            exact ⟨front, middle ++ rest, List.append_assoc .., induction.mpr
              ⟨middle, rest, rfl, starts, goes⟩⟩
      | one accepts =>
          rw [List.cons_append, reads_one]
          constructor
          · intro reading
            obtain ⟨char, behind, rfl, fits, later⟩ := reading
            obtain ⟨middle, rest, rfl, begins, goes⟩ := induction.mp later
            exact ⟨char :: middle, rest, rfl, reads_one.mpr ⟨char, middle, rfl, fits, begins⟩,
              goes⟩
          · intro reading
            obtain ⟨start, rest, rfl, begins, goes⟩ := reading
            obtain ⟨char, middle, rfl, fits, starts⟩ := reads_one.mp begins
            exact ⟨char, middle ++ rest, rfl, fits, induction.mpr
              ⟨middle, rest, rfl, starts, goes⟩⟩

/-- How many characters the parts read besides their stars. -/
def ones (atoms : List Atom) : Nat :=
  atoms.countP (fun atom => !atom.isStar)

@[simp] theorem ones_nil : ones [] = 0 :=
  rfl

@[simp] theorem ones_star : ones (.star :: atoms) = ones atoms :=
  rfl

@[simp] theorem ones_one : ones (.one accepts :: atoms) = ones atoms + 1 :=
  List.countP_cons_of_pos rfl

theorem ones_consStar : ones (consStar atoms) = ones atoms := by
  match atoms with
  | [] | .one _ :: _ | .star :: _ => rfl

/-- What is read is as long as the parts that read one character, or longer if there is a star. -/
theorem reads_length (reading : reads atoms text = true)
    : ones atoms ≤ text.length ∧ (.star ∉ atoms → text.length = ones atoms) := by
  induction atoms generalizing text with
  | nil => simp [reads_nil.mp reading]
  | cons atom atoms induction =>
      cases atom with
      | star =>
          obtain ⟨front, rest, rfl, goes⟩ := reads_star.mp reading
          have later := (induction goes).1
          rw [ones_star, List.length_append]
          exact ⟨by omega, fun none => absurd List.mem_cons_self none⟩
      | one accepts =>
          obtain ⟨char, rest, rfl, fits, goes⟩ := reads_one.mp reading
          obtain ⟨least, exactly⟩ := induction goes
          rw [ones_one, List.length_cons]
          refine ⟨by omega, fun none => ?_⟩
          rw [exactly fun mem => none (.tail _ mem)]

/-- Stars alone read every text. -/
theorem reads_stars (stars : ones atoms = 0) (some : atoms ≠ []) : reads atoms text = true := by
  induction atoms generalizing text with
  | nil => exact absurd rfl some
  | cons atom atoms induction =>
      cases atom with
      | star =>
          by_cases last : atoms = []
          · exact reads_star.mpr ⟨text, [], by simp, by rw [last]; rfl⟩
          · exact reads_star.mpr ⟨[], text, rfl, induction stars last⟩
      | one accepts => simp at stars

/-- One part that reads a character, with stars around it. -/
theorem ones_eq_one (single : ones atoms = 1)
    : ∃ before accepts after,
        atoms = before ++ .one accepts :: after ∧ ones before = 0 ∧ ones after = 0 := by
  induction atoms with
  | nil => cases single
  | cons atom atoms induction =>
      cases atom with
      | star =>
          obtain ⟨before, accepts, after, rfl, stars, others⟩ := induction single
          exact ⟨.star :: before, accepts, after, rfl, stars, others⟩
      | one accepts => exact ⟨[], accepts, atoms, rfl, rfl, by simpa using single⟩

end Reads

-- Literal patterns

section Literal

variable {pattern rest stuff : List Char} {char : Char}

theorem translateFrom_skip (skip : Nat) (pattern : List Char)
    : translateFrom skip pattern = translateFrom 0 (pattern.drop skip) := by
  induction pattern generalizing skip with
  | nil => cases skip <;> rfl
  | cons char rest induction =>
      cases skip with
      | zero => rfl
      | succ skip => exact induction skip

theorem length_takeWhile_lt {text : List Char} (mem : char ∈ text)
    : (text.takeWhile (· ≠ char)).length < text.length := by
  induction text with
  | nil => cases mem
  | cons first text induction =>
      by_cases same : first = char
      · simp [same]
      · rw [List.takeWhile_cons_of_pos (by simpa using same), List.length_cons, List.length_cons]
        exact Nat.succ_lt_succ (induction ((List.mem_cons.mp mem).resolve_left (Ne.symm same)))

/-- A class ends before its pattern does. -/
theorem bracket_length (closed : bracket rest = some stuff) : stuff.length < rest.length := by
  unfold bracket at closed
  obtain ⟨mem, same⟩ := Option.ite_none_right_eq_some.mp closed
  rw [← Option.some.inj same]
  have inner := length_takeWhile_lt mem
  simp only [List.length_append, List.length_take, List.length_drop] at inner ⊢
  omega

theorem classAtom_one (stuff : List Char) : ∃ accepts, classAtom stuff = .one accepts := by
  unfold classAtom
  simp only
  split <;> exact ⟨_, rfl⟩

theorem not_star_of_literal (skip : Nat) (literal : '*' ∉ pattern)
    : .star ∉ translateFrom skip pattern := by
  induction pattern generalizing skip with
  | nil => cases skip <;> exact List.not_mem_nil
  | cons char rest induction =>
      have later (skip : Nat) := induction skip fun mem => literal (.tail _ mem)
      cases skip with
      | succ skip => exact later skip
      | zero =>
          have other : char ≠ '*' := fun same => literal (same ▸ List.mem_cons_self)
          rw [translateFrom_cons, if_neg other]
          split
          · exact List.not_mem_cons_of_ne_of_not_mem nofun (later 0)
          split
          · split
            · rename_i stuff _
              obtain ⟨accepts, single⟩ := classAtom_one stuff
              rw [single]
              exact List.not_mem_cons_of_ne_of_not_mem nofun (later _)
            · exact List.not_mem_cons_of_ne_of_not_mem nofun (later 0)
          · exact List.not_mem_cons_of_ne_of_not_mem nofun (later 0)

/-- The parts are no more than the characters of the pattern. -/
theorem ones_le_length (pattern : List Char) : ones (translate pattern) ≤ pattern.length := by
  suffices general : ∀ skip, ones (translateFrom skip pattern) ≤ pattern.length - skip from
    general 0
  induction pattern with
  | nil => exact fun skip => by cases skip <;> exact Nat.zero_le _
  | cons char rest induction =>
      intro skip
      rw [List.length_cons]
      cases skip with
      | succ skip =>
          have later : ones (translateFrom (skip + 1) (char :: rest)) ≤ rest.length - skip :=
            induction skip
          omega
      | zero =>
          have later := induction 0
          rw [translateFrom_cons]
          split
          · rw [ones_consStar]
            omega
          split
          · rw [ones_one]
            omega
          split
          · split
            · rename_i stuff _
              obtain ⟨accepts, single⟩ := classAtom_one stuff
              have behind := induction (stuff.length + 1)
              rw [single, ones_one]
              omega
            · rw [ones_one]
              omega
          · rw [ones_one]
            omega

theorem HasClass.tail (has : HasClass (char :: rest)) (other : char ≠ '[' ∨ bracket rest = none)
    : HasClass rest := by
  obtain ⟨behind, ⟨front, split⟩, closed⟩ := has
  cases front with
  | nil =>
      cases split
      rcases other with other | open_
      · exact absurd rfl other
      · rw [open_] at closed
        cases closed
  | cons first front =>
      cases split
      exact ⟨behind, ⟨front, rfl⟩, closed⟩

/-- They are fewer if there is a class; by induction up to the first one. -/
theorem ones_lt_length (has : HasClass pattern) : ones (translate pattern) < pattern.length := by
  induction pattern with
  | nil =>
      obtain ⟨behind, suffix, -⟩ := has
      cases List.suffix_nil.mp suffix
  | cons char rest induction =>
      have bound : ones (translate rest) ≤ rest.length := ones_le_length rest
      rw [translate, translateFrom_cons, List.length_cons]
      by_cases star : char = '*'
      · rw [if_pos star, ones_consStar]
        exact Nat.lt_succ_of_le bound
      by_cases any : char = '?'
      · rw [if_neg star, if_pos any, ones_one]
        exact Nat.succ_lt_succ (induction (has.tail (.inl (by rw [any]; decide))))
      by_cases open_ : char = '['
      · rw [if_neg star, if_neg any, if_pos open_]
        cases closed : bracket rest with
        | none =>
            simp only [ones_one]
            exact Nat.succ_lt_succ (induction (has.tail (.inr closed)))
        | some stuff =>
            obtain ⟨accepts, single⟩ := classAtom_one stuff
            have behind := ones_le_length (rest.drop (stuff.length + 1))
            have length := bracket_length closed
            rw [List.length_drop] at behind
            simp only [single, ones_one, translateFrom_skip (stuff.length + 1)]
            rw [translate] at behind
            omega
      · rw [if_neg star, if_neg any, if_neg open_, ones_one]
        exact Nat.succ_lt_succ (induction (has.tail (.inl open_)))

/-- A pattern without classes reads itself. -/
theorem fnmatchcase_self (plain : ¬ HasClass pattern) : fnmatchcase pattern pattern = true := by
  unfold fnmatchcase
  induction pattern with
  | nil => rfl
  | cons char rest induction =>
      have later := induction fun has => plain (by
        obtain ⟨behind, suffix, closed⟩ := has
        exact ⟨behind, suffix.trans (List.suffix_cons char rest), closed⟩)
      rw [translate, translateFrom_cons]
      by_cases star : char = '*'
      · rw [if_pos star, reads_consStar]
        exact reads_star.mpr ⟨[char], rest, rfl, later⟩
      by_cases any : char = '?'
      · rw [if_neg star, if_pos any]
        exact reads_one.mpr ⟨char, rest, rfl, rfl, later⟩
      by_cases open_ : char = '['
      · rw [if_neg star, if_neg any, if_pos open_]
        cases closed : bracket rest with
        | none => exact reads_one.mpr ⟨char, rest, rfl, by simpa using open_, later⟩
        | some stuff =>
            exact absurd ⟨rest, by rw [open_], by rw [closed]; rfl⟩ plain
      · rw [if_neg star, if_neg any, if_neg open_]
        exact reads_one.mpr ⟨char, rest, rfl, by simp, later⟩

/-- A pattern with a class and without a star does not. -/
theorem fnmatchcase_self_class (has : HasClass pattern) (literal : '*' ∉ pattern)
    : fnmatchcase pattern pattern = false := by
  rw [Bool.eq_false_iff]
  intro reading
  have length := (reads_length reading).2 (not_star_of_literal 0 literal)
  have fewer := ones_lt_length has
  omega

end Literal

end Patterns

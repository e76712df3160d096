import Myndaix.Patterns.Language

/-! Expressions with one group: what the group reads on the way that a backtracking engine takes. -/

namespace Patterns

variable {Symbol : Type}

/-- What stands between a place and a later one. -/
def Place.upTo (place later : Place Symbol) : List Symbol :=
  place.after.take (place.after.length - later.after.length)

/-- What the group has read, and where the whole expression ends. -/
structure Capture (Symbol : Type) where
  group : List Symbol
  stop : Place Symbol
deriving DecidableEq, Repr

namespace Regex

variable (before group behind : Regex Symbol)

/-- The ways to read the three parts from a place, the preferred ones first. -/
def captures (place : Place Symbol) : List (Capture Symbol) :=
  (before.ends place).flatMap fun opens =>
    (group.ends opens).flatMap fun closes =>
      (behind.ends closes).map fun stop => { group := opens.upTo closes, stop := stop }

/-- `re.match`, with its group. -/
def matchGroup (text : List Symbol) : Option (Capture Symbol) :=
  (captures before group behind (Place.start text)).head?

/-- `re.search`, with its group. -/
def searchGroup (text : List Symbol) : Option (Capture Symbol) :=
  (Place.all text).findSome? fun place => (captures before group behind place).head?

/-- `re.match`: the expression can be read at the begin of the text. -/
def begins (regex : Regex Symbol) (text : List Symbol) : Bool :=
  !(regex.ends (Place.start text)).isEmpty

end Regex

-- Groups that take a whole run

namespace Regex

variable {before group behind : Regex Symbol} {accepts : Symbol → Bool} {text : List Symbol}
  {capture : Capture Symbol}

/-- The engine tries the longest run of symbols first, by induction on the rounds. -/
theorem rounds_longest {fuel : Nat} {place : Place Symbol} (enough : place.after.length ≤ fuel)
    : (rounds (one accepts).ends fuel place).head?
      = some
          (Place.behind place (place.after.takeWhile accepts) (place.after.dropWhile accepts)) := by
  induction fuel generalizing place with
  | zero =>
      have empty : place.after = [] := List.eq_nil_of_length_eq_zero (Nat.le_zero.mp enough)
      obtain ⟨front, after⟩ := place
      obtain rfl : after = [] := empty
      rfl
  | succ fuel ih =>
      obtain ⟨front, after⟩ := place
      cases after with
      | nil => rfl
      | cons symbol after =>
          rw [rounds, ends_one_cons]
          cases accepted : accepts symbol with
          | false =>
              simp [accepted, Place.behind]
          | true =>
              have longer := @ih { before := symbol :: front, after := after }
                (Nat.le_of_succ_le_succ enough)
              have moves : after.length < (symbol :: after).length := Nat.lt_succ_self _
              rw [if_pos rfl, List.filter_singleton, decide_eq_true moves, cond_true,
                List.flatMap_singleton, List.head?_append, longer, Option.some_or,
                List.takeWhile_cons_of_pos accepted, List.dropWhile_cons_of_pos accepted]
              simp [Place.behind]

theorem longest_run (place : Place Symbol)
    : ((many (one accepts)).ends place).head?
      = some
          (Place.behind place (place.after.takeWhile accepts) (place.after.dropWhile accepts)) := by
  rw [ends_many]
  exact rounds_longest (Nat.le_refl _)

/-- `+` takes the longest run too, but never an empty one. -/
theorem run_of_repeated {place closes : Place Symbol}
    (first : ((repeated (one accepts)).ends place).head? = some closes)
    : place.after.takeWhile accepts ≠ []
      ∧ closes
        = Place.behind place (place.after.takeWhile accepts) (place.after.dropWhile accepts) := by
  obtain ⟨front, after⟩ := place
  cases after with
  | nil => cases first
  | cons symbol after =>
      rw [repeated, ends_seq, ends_one_cons] at first
      cases accepted : accepts symbol with
      | false =>
          rw [accepted] at first
          cases first
      | true =>
          rw [accepted, if_pos rfl, List.flatMap_singleton, longest_run] at first
          rw [List.takeWhile_cons_of_pos accepted, List.dropWhile_cons_of_pos accepted]
          refine ⟨List.cons_ne_nil _ _, ?_⟩
          rw [← Option.some.inj first]
          simp [Place.behind]

/-- Behind a group that nothing follows, the first capture is the first way to read the group. -/
theorem exists_of_matchGroup (found : matchGroup before group skip text = some capture)
    : ∃ opens ∈ before.ends (Place.start text), ∃ closes,
        (group.ends opens).head? = some closes ∧ capture.group = opens.upTo closes := by
  rw [matchGroup, captures, List.head?_flatMap] at found
  obtain ⟨opens, among, found⟩ := List.exists_of_findSome?_eq_some found
  refine ⟨opens, among, ?_⟩
  cases closings : group.ends opens with
  | nil =>
      rw [closings] at found
      cases found
  | cons closes rest =>
      rw [closings] at found
      refine ⟨closes, rfl, ?_⟩
      rw [← Option.some.inj found]

/-- What stands between a place and the end of a run that begins there. -/
theorem upTo_behind (place : Place Symbol) (found rest : List Symbol)
    (here : place.after = found ++ rest)
    : place.upTo (Place.behind place found rest) = found := by
  rw [Place.upTo, here, Place.behind, List.length_append, Nat.add_sub_cancel]
  exact List.take_left

/-- A group of one run of symbols captures the whole run behind what stands before the group. -/
theorem run_of_matchGroup
    (found : matchGroup before (repeated (one accepts)) skip text = some capture)
    : ∃ opens ∈ before.ends (Place.start text),
        capture.group = opens.after.takeWhile accepts ∧ capture.group ≠ [] := by
  obtain ⟨opens, among, closes, first, same⟩ := exists_of_matchGroup found
  obtain ⟨filled, rfl⟩ := run_of_repeated first
  rw [upTo_behind _ _ _ List.takeWhile_append_dropWhile.symm] at same
  exact ⟨opens, among, same, same ▸ filled⟩

end Regex

end Patterns

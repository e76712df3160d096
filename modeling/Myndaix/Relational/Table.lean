import Mathlib.Data.List.Nodup
import Mathlib.Data.List.Perm.Basic

/-! Tables as lists of rows with a unique identity column: looking a row up, updating the rows
that a condition selects, and adding one row, with the counts that such statements change.
-/

namespace Relational

variable {Row Id : Type} [DecidableEq Id]

/-- `SELECT ... WHERE id = $1` on an identity column. -/
def lookup (key : Row → Id) (id : Id) (rows : List Row) : Option Row :=
  rows.find? (fun row => key row = id)

/-- The identity column is a primary key of these rows. -/
def Unique (key : Row → Id) (rows : List Row) : Prop :=
  (rows.map key).Nodup

/-- `UPDATE ... SET change WHERE selected`. -/
def update (selected : Row → Bool) (change : Row → Row) (rows : List Row) : List Row :=
  rows.map (fun row => if selected row then change row else row)

section Lookup

variable {key : Row → Id} {rows : List Row} {row : Row} {id : Id}

theorem lookup_mem (found : lookup key id rows = some row) : row ∈ rows :=
  List.mem_of_find?_eq_some found

theorem lookup_key (found : lookup key id rows = some row) : key row = id := by
  simpa using List.find?_some found

theorem lookup_none : lookup key id rows = none ↔ ∀ row ∈ rows, key row ≠ id := by
  simp [lookup, List.find?_eq_none]

/-- In a table with a primary key every row is the one found under its identity, by induction
on the rows.
-/
theorem lookup_of_mem (unique : Unique key rows) (mem : row ∈ rows)
    : lookup key (key row) rows = some row := by
  induction rows with
  | nil => cases mem
  | cons first rest ih =>
      obtain ⟨fresh, unique⟩ := List.nodup_cons.mp unique
      rcases List.mem_cons.mp mem with rfl | mem
      · simp [lookup]
      · have other : key first ≠ key row := by
          rintro same
          exact fresh (same ▸ List.mem_map_of_mem mem)
        simpa [lookup, other] using ih unique mem

/-- A change that keeps identities changes what is found and nothing about where. -/
theorem lookup_map {change : Row → Row} (keeps : ∀ row, key (change row) = key row)
    : lookup key id (rows.map change) = (lookup key id rows).map change := by
  have same : (fun row => decide (key row = id)) ∘ change = fun row => decide (key row = id) :=
    funext fun row => by rw [Function.comp_apply, keeps]
  rw [lookup, List.find?_map, same, lookup]

theorem lookup_append (added : Row)
    : lookup key id (rows ++ [added])
      = (lookup key id rows).or (if key added = id then some added else none) := by
  by_cases same : key added = id <;> simp [lookup, List.find?_append, same]

theorem lookup_append_of_some (added : List Row) (found : lookup key id rows = some row)
    : lookup key id (rows ++ added) = some row := by
  simp only [lookup] at found ⊢
  simp [List.find?_append, found]

end Lookup

section Unique

variable {key : Row → Id} {rows : List Row}

omit [DecidableEq Id] in
theorem Unique.map {change : Row → Row} (unique : Unique key rows)
    (keeps : ∀ row, key (change row) = key row)
    : Unique key (rows.map change) := by
  simpa [Unique, Function.comp_def, keeps] using unique

/-- A row with a new identity keeps the key primary. -/
theorem Unique.append {added : Row} (unique : Unique key rows)
    (fresh : lookup key (key added) rows = none)
    : Unique key (rows ++ [added]) := by
  have absent := lookup_none.mp fresh
  simp only [Unique, List.map_append, List.map_cons, List.map_nil]
  refine List.nodup_append.mpr ⟨unique, List.nodup_singleton _, ?_⟩
  intro id mem id' member' same
  obtain ⟨row, inside, rfl⟩ := List.mem_map.mp mem
  rw [List.mem_singleton.mp member'] at same
  exact absent row inside same

end Unique

section Update

variable {key : Row → Id} {rows : List Row} {selected : Row → Bool} {change : Row → Row}

theorem lookup_update {id : Id} (keeps : ∀ row, key (change row) = key row)
    : lookup key id (update selected change rows)
      = (lookup key id rows).map (fun row => if selected row then change row else row) :=
  lookup_map (by intro row; split <;> simp [keeps])

omit [DecidableEq Id] in
theorem Unique.update (unique : Unique key rows) (keeps : ∀ row, key (change row) = key row)
    : Unique key (update selected change rows) :=
  unique.map (by intro row; split <;> simp [keeps])

omit [DecidableEq Id] in
/-- An update that keeps a field keeps which of its values occur. -/
theorem exists_mem_update {Field : Type} {value : Field} (field : Row → Field)
    (selected : Row → Bool) (change : Row → Row) (kept : ∀ row, field (change row) = field row)
    : (∃ row ∈ update selected change rows, field row = value)
      ↔ ∃ row ∈ rows, field row = value := by
  simp only [Relational.update, List.mem_map, exists_exists_and_eq_and]
  refine exists_congr fun row => and_congr_right fun _ => ?_
  split
  · rw [kept]
  · exact Iff.rfl

end Update

section Count

variable {rows : List Row} {change : Row → Row} {before after : Row → Bool}

/-- A change that gives no row a property it did not have cannot raise its count. -/
theorem countP_map_le (keeps : ∀ row ∈ rows, after (change row) → before row)
    : (rows.map change).countP after ≤ rows.countP before := by
  rw [List.countP_map]
  exact List.countP_mono_left (fun row mem holds => keeps row mem (by simpa using holds))

/-- A change that gives no row a property and takes it from one lowers its count. -/
theorem countP_map_lt (keeps : ∀ row ∈ rows, after (change row) → before row) {row : Row}
    (mem : row ∈ rows) (had : before row = true) (lost : after (change row) = false)
    : (rows.map change).countP after < rows.countP before := by
  obtain ⟨front, back, rfl⟩ := List.append_of_mem mem
  have front_le : (front.map change).countP after ≤ front.countP before :=
    countP_map_le (fun row inside => keeps row (List.mem_append_left _ inside))
  have back_le : (back.map change).countP after ≤ back.countP before :=
    countP_map_le
      (fun row inside => keeps row (List.mem_append_right _ (List.mem_cons_of_mem _ inside)))
  simp only [List.map_append, List.map_cons, List.countP_append, List.countP_cons, had, lost]
  simp only [Bool.false_eq_true, if_false, if_true]
  omega

/-- A change that neither gives nor takes a property keeps its count. -/
theorem countP_map_eq (keeps : ∀ row ∈ rows, after (change row) = before row)
    : (rows.map change).countP after = rows.countP before := by
  rw [List.countP_map]
  exact List.countP_congr (fun row mem => by simp [keeps row mem])

/-- A property that a change leaves with some rows and takes from others, by induction on the
rows.
-/
theorem countP_map_add {gone : Row → Bool}
    (splits : ∀ row ∈ rows, before row = (after (change row) || gone row))
    (apart : ∀ row ∈ rows, after (change row) = true → gone row = false)
    : rows.countP before = (rows.map change).countP after + rows.countP gone := by
  induction rows with
  | nil => rfl
  | cons row rows ih =>
      have rest := ih (fun other mem => splits other (List.mem_cons_of_mem row mem))
        (fun other mem => apart other (List.mem_cons_of_mem row mem))
      have here := splits row List.mem_cons_self
      have alone := apart row List.mem_cons_self
      rw [List.map_cons, List.countP_cons, List.countP_cons, List.countP_cons, rest, here]
      cases kept : after (change row) with
      | true =>
          rw [alone kept]
          simp only [Bool.or_false, if_true, Bool.false_eq_true, if_false]
          omega
      | false =>
          simp only [Bool.false_or, Bool.false_eq_true, if_false]
          omega

/-- At most one row has a property, so two rows that have it are the same. -/
theorem eq_of_countP_le_one (atMost : rows.countP before ≤ 1) {first second : Row}
    (mem : first ∈ rows) (member' : second ∈ rows) (holds : before first = true)
    (holds' : before second = true)
    : first = second := by
  rw [List.countP_eq_length_filter] at atMost
  have inside : first ∈ rows.filter before := List.mem_filter.mpr ⟨mem, holds⟩
  have inside' : second ∈ rows.filter before := List.mem_filter.mpr ⟨member', holds'⟩
  match found : rows.filter before, atMost with
  | [], _ =>
      rw [found] at inside
      cases inside
  | [only], _ =>
      rw [found, List.mem_singleton] at inside inside'
      exact inside.trans inside'.symm

variable {key : Row → Id}

/-- Counting the rows whose identity is in a list counts the list, by induction on it. -/
theorem countP_ids {ids : List Id} {property : Id → Bool} (unique : Unique key rows)
    (nodup : ids.Nodup) (present : ∀ id ∈ ids, (lookup key id rows).isSome = true)
    : rows.countP (fun row => key row ∈ ids && property (key row)) = ids.countP property := by
  have counted : rows.countP (fun row => key row ∈ ids && property (key row))
      = (rows.map key).countP (fun id => id ∈ ids && property id) := by
    rw [List.countP_map]
    rfl
  have same : ((rows.map key).filter (fun id => id ∈ ids)).Perm ids := by
    refine (List.perm_ext_iff_of_nodup (unique.filter _) nodup).mpr (fun id => ?_)
    simp only [List.mem_filter, List.mem_map, decide_eq_true_eq]
    constructor
    · exact fun found => found.2
    · intro mem
      obtain ⟨row, found⟩ := Option.isSome_iff_exists.mp (present id mem)
      exact ⟨⟨row, lookup_mem found, lookup_key found⟩, mem⟩
  rw [counted, ← same.countP_eq, List.countP_filter]
  exact List.countP_congr (fun id _ => by simp [and_comm])

end Count

end Relational

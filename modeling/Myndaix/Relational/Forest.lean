import Mathlib.Logic.Relation
import Myndaix.Relational.Table

/-! Tables whose rows name their parents in the same table. When every row stands one level under
its parent, the parents form a forest: nothing is its own ancestor, and every row hangs from the
root that it names.
-/

namespace Relational

variable {Row Id : Type} [DecidableEq Id]

/-- The columns that place a row in a hierarchy. -/
structure Hierarchy (Row Id : Type) where
  key : Row → Id
  parent : Row → Option Id
  root : Row → Id
  depth : Row → Nat

namespace Hierarchy

section Forests

variable (columns : Hierarchy Row Id) (rows : List Row)

/-- The lower row names the upper one as its parent. -/
def Under (upper lower : Id) : Prop :=
  ∃ row, lookup columns.key lower rows = some row ∧ columns.parent row = some upper

/-- A row without a parent is its own root, any other has its parent's root one level down. -/
structure Forest : Prop where
  root : ∀ row ∈ rows, columns.parent row = none
    → columns.depth row = 0 ∧ columns.root row = columns.key row
  child
    : ∀ row ∈ rows, ∀ id,
        columns.parent row = some id
        → ∃ upper,
            lookup columns.key id rows = some upper
            ∧ columns.depth row = columns.depth upper + 1
            ∧ columns.root row = columns.root upper

end Forests

namespace Forest

variable {columns : Hierarchy Row Id} {rows : List Row}

theorem nil : columns.Forest [] :=
  ⟨by simp, by simp⟩

/-- A descendant is deeper, by induction on the line of parents. -/
theorem deeper (forest : columns.Forest rows) {upper lower : Id}
    (descends : Relation.TransGen (columns.Under rows) upper lower) {row below : Row}
    (found : lookup columns.key upper rows = some row)
    (found' : lookup columns.key lower rows = some below)
    : columns.depth row < columns.depth below := by
  have one {upper lower : Id} {row below : Row} (under : columns.Under rows upper lower)
      (found : lookup columns.key upper rows = some row)
      (found' : lookup columns.key lower rows = some below)
      : columns.depth row < columns.depth below := by
    obtain ⟨same, there, parent⟩ := under
    obtain rfl := Option.some.inj (there.symm.trans found')
    obtain ⟨other, above, level, _⟩ := forest.child same (lookup_mem there) upper parent
    obtain rfl := Option.some.inj (above.symm.trans found)
    omega
  induction descends generalizing below with
  | single under => exact one under found found'
  | tail _ under ih =>
      obtain ⟨same, there, parent⟩ := under
      obtain ⟨middle, above, _⟩ := forest.child same (lookup_mem there) _ parent
      exact Nat.lt_trans (ih above) (one ⟨same, there, parent⟩ above found')

/-- Nothing is its own ancestor. -/
theorem acyclic (forest : columns.Forest rows) (id : Id)
    : ¬Relation.TransGen (columns.Under rows) id id := by
  intro cycle
  obtain ⟨_, _, row, found, _⟩ := Relation.TransGen.tail'_iff.mp cycle
  exact Nat.lt_irrefl _ (forest.deeper cycle found found)

/-- Every row hangs from the root that it names, by induction on its depth. -/
theorem rooted (forest : columns.Forest rows) (unique : Unique columns.key rows) {row : Row}
    (mem : row ∈ rows)
    : ∃ root ∈ rows,
        columns.parent root = none
        ∧ columns.key root = columns.root row
        ∧ Relation.ReflTransGen (columns.Under rows) (columns.root row) (columns.key row) := by
  induction level : columns.depth row generalizing row with
  | zero =>
      cases parent : columns.parent row with
      | none =>
          have own := (forest.root row mem parent).2
          exact ⟨row, mem, parent, own.symm, own ▸ .refl⟩
      | some id =>
          obtain ⟨upper, _, deeper, _⟩ := forest.child row mem id parent
          omega
  | succ depth ih =>
      cases parent : columns.parent row with
      | none =>
          have flat := (forest.root row mem parent).1
          omega
      | some id =>
          obtain ⟨upper, found, deeper, same⟩ := forest.child row mem id parent
          obtain ⟨root, inside, top, named, path⟩ := ih (lookup_mem found) (by omega)
          rw [lookup_key found] at path
          have under : columns.Under rows id (columns.key row) :=
            ⟨row, lookup_of_mem unique mem, parent⟩
          rw [same]
          exact ⟨root, inside, top, named, path.tail under⟩

/-- Changes to other columns keep the forest. -/
theorem map (forest : columns.Forest rows) {change : Row → Row}
    (key : ∀ row, columns.key (change row) = columns.key row)
    (parent : ∀ row, columns.parent (change row) = columns.parent row)
    (root : ∀ row, columns.root (change row) = columns.root row)
    (depth : ∀ row, columns.depth (change row) = columns.depth row)
    : columns.Forest (rows.map change) where
  root := by
    intro changed mem top
    obtain ⟨row, inside, rfl⟩ := List.mem_map.mp mem
    rw [parent] at top
    rw [key, root, depth]
    exact forest.root row inside top
  child := by
    intro changed mem id named
    obtain ⟨row, inside, rfl⟩ := List.mem_map.mp mem
    rw [parent] at named
    obtain ⟨upper, found, level, same⟩ := forest.child row inside id named
    refine ⟨change upper, ?_, ?_, ?_⟩
    · rw [lookup_map key, found]
      rfl
    · rw [depth, depth, level]
    · rw [root, root, same]

/-- A new row that is a root, or stands under a row that is there, keeps the forest. -/
theorem append (forest : columns.Forest rows) {added : Row}
    (root
      : columns.parent added = none
        → columns.depth added = 0 ∧ columns.root added = columns.key added)
    (child
      : ∀ id,
          columns.parent added = some id
          → ∃ upper,
              lookup columns.key id rows = some upper
              ∧ columns.depth added = columns.depth upper + 1
              ∧ columns.root added = columns.root upper)
    : columns.Forest (rows ++ [added]) where
  root := by
    intro row mem top
    rcases List.mem_append.mp mem with old | new
    · exact forest.root row old top
    · rw [List.mem_singleton.mp new] at top ⊢
      exact root top
  child := by
    intro row mem id named
    have stays {row : Row}
        (above
          : ∃ upper,
              lookup columns.key id rows = some upper
              ∧ columns.depth row = columns.depth upper + 1
              ∧ columns.root row = columns.root upper)
        : ∃ upper,
            lookup columns.key id (rows ++ [added]) = some upper
            ∧ columns.depth row = columns.depth upper + 1
            ∧ columns.root row = columns.root upper := by
      obtain ⟨upper, found, level, same⟩ := above
      exact ⟨upper, lookup_append_of_some [added] found, level, same⟩
    rcases List.mem_append.mp mem with old | new
    · exact stays (forest.child row old id named)
    · rw [List.mem_singleton.mp new] at named ⊢
      exact stays (child id named)

end Forest

end Hierarchy

end Relational

import Mathlib.Data.List.Basic

/-! The first row of an `ORDER BY`, and what it is for a table whose rows stand in the order of
their sequence numbers.
-/

namespace Relational

variable {Row : Type}

/-- `ORDER BY ... LIMIT 1`, where `before` says which of two rows the order puts first. -/
def first (before : Row → Row → Bool) : List Row → Option Row
  | [] => none
  | row :: rows =>
      match first before rows with
      | none => some row
      | some best => if before row best then some row else some best

theorem first_cons (before : Row → Row → Bool) (row : Row) (rows : List Row)
    : first before (row :: rows)
      = match first before rows with
        | none => some row
        | some best => if before row best then some row else some best :=
  rfl

/-- `ORDER BY seq DESC`. -/
def newer (seq : Row → Nat) (row other : Row) : Bool :=
  seq other < seq row

/-- `ORDER BY seq ASC`. -/
def older (seq : Row → Nat) (row other : Row) : Bool :=
  seq row < seq other

/-- `ORDER BY flag DESC, seq DESC`. -/
def newerAmong (flag : Row → Bool) (seq : Row → Nat) (row other : Row) : Bool :=
  (flag row && !flag other) || (flag row == flag other && newer seq row other)

/-- The rows stand in the order of their sequence numbers. -/
def Ascending (seq : Row → Nat) (rows : List Row) : Prop :=
  rows.Pairwise (fun row later => seq row < seq later)

variable {seq : Row → Nat} {rows : List Row}

theorem Ascending.filter (ascending : Ascending seq rows) (property : Row → Bool)
    : Ascending seq (rows.filter property) :=
  List.Pairwise.filter property ascending

theorem first_mem {before : Row → Row → Bool} {row : Row} (found : first before rows = some row)
    : row ∈ rows := by
  induction rows generalizing row with
  | nil => cases found
  | cons head rows ih =>
      rw [first_cons] at found
      cases best : first before rows with
      | none =>
          rw [best] at found
          cases found
          exact List.mem_cons_self
      | some other =>
          rw [best] at found
          dsimp only at found
          split at found
          · cases found
            exact List.mem_cons_self
          · cases found
            exact List.mem_cons_of_mem _ (ih best)

theorem first_exists {before : Row → Row → Bool} {row : Row} (mem : row ∈ rows)
    : ∃ best, first before rows = some best := by
  cases rows with
  | nil => cases mem
  | cons head rows =>
      rw [first_cons]
      split
      · exact ⟨_, rfl⟩
      · split
        · exact ⟨_, rfl⟩
        · exact ⟨_, rfl⟩

/-- No row is newer than the newest one; by induction on the rows. -/
theorem first_newer_le {best : Row} (found : first (newer seq) rows = some best)
    : ∀ row ∈ rows, seq row ≤ seq best := by
  induction rows generalizing best with
  | nil => cases found
  | cons head rows ih =>
      intro row mem
      rw [first_cons] at found
      cases later : first (newer seq) rows with
      | none =>
          rw [later] at found
          cases found
          rcases List.mem_cons.mp mem with rfl | inside
          · exact Nat.le_refl _
          · obtain ⟨best, some⟩ := @first_exists _ _ (newer seq) _ inside
            rw [later] at some
            cases some
      | some other =>
          have below := ih later
          rw [later] at found
          dsimp only at found
          split at found
          · rename_i newest
            cases found
            rcases List.mem_cons.mp mem with rfl | inside
            · exact Nat.le_refl _
            · exact Nat.le_trans (below row inside) (Nat.le_of_lt (of_decide_eq_true newest))
          · rename_i older
            cases found
            rcases List.mem_cons.mp mem with rfl | inside
            · exact Nat.le_of_not_lt fun newest => older (decide_eq_true newest)
            · exact below row inside

/-- The newest row is the last one, by induction on the rows. -/
theorem first_newer (ascending : Ascending seq rows)
    : first (newer seq) rows = rows.getLast? := by
  induction rows with
  | nil => rfl
  | cons row rows ih =>
      obtain ⟨below, ascending⟩ := List.pairwise_cons.mp ascending
      rw [first_cons, ih ascending]
      cases rows with
      | nil => rfl
      | cons next rest =>
          rw [List.getLast?_cons_cons, List.getLast?_eq_some_getLast (List.cons_ne_nil _ _)]
          have least := below _ (List.getLast_mem (List.cons_ne_nil next rest))
          simp [newer, Nat.lt_asymm least]

/-- The oldest row is the first one, by induction on the rows. -/
theorem first_older (ascending : Ascending seq rows) : first (older seq) rows = rows.head? := by
  induction rows with
  | nil => rfl
  | cons row rows ih =>
      obtain ⟨below, ascending⟩ := List.pairwise_cons.mp ascending
      rw [first_cons, ih ascending]
      cases rows with
      | nil => rfl
      | cons next rest => simp [older, below next List.mem_cons_self]

/-- A flagged row comes before every other: the newest flagged row, or else the newest one. By
induction on the rows.
-/
theorem first_newerAmong {flag : Row → Bool} (ascending : Ascending seq rows)
    : first (newerAmong flag seq) rows = (rows.filter flag).getLast?.or rows.getLast? := by
  induction rows with
  | nil => rfl
  | cons row rows ih =>
      obtain ⟨below, ascending⟩ := List.pairwise_cons.mp ascending
      have tail := ih ascending
      rw [first_cons, tail]
      by_cases flagged : flag row = true
      · rw [List.filter_cons_of_pos flagged]
        cases others : rows.filter flag with
        | nil =>
            -- None of the later rows is flagged, so this one is the only choice.
            cases last : rows.getLast? with
            | none => simp
            | some other =>
                have plain : flag other = false := by
                  have mem := List.mem_of_getLast? last
                  simpa using List.filter_eq_nil_iff.mp others other mem
                simp [newerAmong, flagged, plain]
        | cons next rest =>
            rw [List.getLast?_cons_cons, List.getLast?_eq_some_getLast (List.cons_ne_nil _ _)]
            have mem : (next :: rest).getLast (List.cons_ne_nil _ _) ∈ rows.filter flag := by
              rw [others]
              exact List.getLast_mem _
            obtain ⟨inside, marked⟩ := List.mem_filter.mp mem
            simp [newerAmong, newer, flagged, marked, Nat.lt_asymm (below _ inside)]
      · have plain : flag row = false := by simpa using flagged
        rw [List.filter_cons_of_neg (by simp [plain])]
        cases rows with
        | nil => simp
        | cons next rest =>
            rw [List.getLast?_cons_cons]
            cases chosen
                : ((next :: rest).filter flag).getLast?.or (next :: rest).getLast? with
            | none => simp [List.getLast?_cons] at chosen
            | some best =>
                have inside : best ∈ next :: rest := by
                  rw [← tail] at chosen
                  exact first_mem chosen
                simp [newerAmong, newer, plain, Nat.lt_asymm (below best inside)]

/-- An order that tells the rows apart puts them the same way, however they stood before. -/
theorem mergeSort_of_perm {le : Row → Row → Bool} {rows other : List Row}
    (trans : ∀ first second third, le first second → le second third → le first third)
    (total : ∀ first second, le first second || le second first)
    (antisymm : ∀ first ∈ rows, ∀ second ∈ rows, le first second → le second first → first = second)
    (perm : rows.Perm other)
    : rows.mergeSort le = other.mergeSort le := by
  have sorted := List.pairwise_mergeSort trans total rows
  have sorted' := List.pairwise_mergeSort trans total other
  refine List.Perm.eq_of_pairwise ?_ sorted sorted' ?_
  · intro first second mem member' before behind
    have inside := List.mem_mergeSort.mp mem
    have inside' := perm.mem_iff.mpr (List.mem_mergeSort.mp member')
    exact antisymm first inside second inside' before behind
  · exact (List.mergeSort_perm rows le).trans (perm.trans (List.mergeSort_perm other le).symm)

end Relational

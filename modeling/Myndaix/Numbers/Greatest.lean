import Mathlib.Order.Bounds.Basic

/-! The greatest of the values seen so far, kept in an option. -/

namespace Numbers

section Greatest

variable {α : Type} [LinearOrder α]

/-- The value kept when another one is seen. -/
def better (best : Option α) (value : α) : Option α :=
  match best with
  | none => some value
  | some known => if value > known then some value else some known

/-- The greatest of a set, or none for the empty set. -/
def IsBest (values : Set α) : Option α → Prop
  | none => values = ∅
  | some best => IsGreatest values best

variable {values : Set α} {best : Option α} {value : α}

theorem isBest_empty : IsBest (∅ : Set α) none :=
  rfl

/-- One more value, by whether one was kept and whether the new one beats it. -/
theorem IsBest.better (kept : IsBest values best) (value : α)
    : IsBest (insert value values) (better best value) := by
  cases best with
  | none =>
      have empty : values = ∅ := kept
      rw [empty, insert_empty_eq]
      exact isGreatest_singleton
  | some known =>
      have greatest : IsGreatest values known := kept
      have kept : Numbers.better (some known) value = some (max value known) := by
        change (if value > known then some value else some known) = some (max value known)
        by_cases beaten : value > known
        · rw [if_pos beaten, max_eq_left beaten.le]
        · rw [if_neg beaten, max_eq_right (not_lt.mp beaten)]
      rw [kept]
      exact greatest.insert value

theorem IsBest.none_iff (kept : IsBest values best) : best = none ↔ values = ∅ := by
  cases best with
  | none => exact ⟨fun _ => kept, fun _ => rfl⟩
  | some known =>
      have greatest : IsGreatest values known := kept
      exact ⟨nofun, fun empty => absurd greatest.1 (by simp [empty])⟩

theorem IsBest.some_iff (kept : IsBest values best)
    : best = some value ↔ IsGreatest values value := by
  cases best with
  | none =>
      have empty : values = ∅ := kept
      exact ⟨nofun, fun greatest => absurd greatest.1 (by simp [empty])⟩
  | some known =>
      have greatest : IsGreatest values known := kept
      rw [Option.some_inj]
      exact ⟨fun same => same ▸ greatest, fun other => greatest.unique other⟩

/-- A loop that keeps the greatest value of the turns that count, by induction on the turns. -/
theorem IsBest.foldl {ι : Type} {counts : ι → Bool} {worth : ι → α} (kept : IsBest values best)
    (turns : List ι)
    : IsBest (values ∪ {value | ∃ turn ∈ turns, counts turn = true ∧ worth turn = value})
        (turns.foldl
          (fun best turn =>
            if counts turn then Numbers.better best (worth turn) else best) best) := by
  induction turns generalizing best values with
  | nil => simpa using kept
  | cons turn turns induction =>
      rw [List.foldl_cons]
      by_cases counted : counts turn = true
      · rw [if_pos counted]
        have rest := induction (kept.better (worth turn))
        have same
            : insert (worth turn) values
                ∪ {value | ∃ turn ∈ turns, counts turn = true ∧ worth turn = value}
              = values
                ∪ {value | ∃ other ∈ turn :: turns, counts other = true ∧ worth other = value} := by
          ext value
          simp only [Set.mem_union, Set.mem_insert_iff, Set.mem_ofPred_eq, List.mem_cons,
            exists_eq_or_imp, counted, true_and, @eq_comm _ value]
          tauto
        rwa [same] at rest
      · rw [if_neg counted]
        have rest := induction kept
        simpa only [List.mem_cons, exists_eq_or_imp, counted, Bool.false_eq_true, false_and,
          false_or] using rest

end Greatest

end Numbers

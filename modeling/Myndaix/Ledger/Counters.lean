import Myndaix.Ledger.LeasingContracts

/-! The soft counters under a transaction's own changes, and the commits that change nothing
else.
-/

namespace Ledger

open Relational Transactions

/-- The change is about counters only. -/
def Change.counts : Change → Bool
  | .insertRepo _ | .setActive .. | .decrement .. => true
  | _ => false

section View

variable {rows : Database} {changes : List Change}

/-- New counters keep the key primary when nobody had them. -/
theorem view_uniqueRepo (unique : Unique RepoConcurrency.repoId rows.repoConcurrency)
    (nodup : (changes.filterMap Change.seeds).Nodup)
    (fresh : ∀ repo ∈ changes.filterMap Change.seeds, rows.repo? repo = none)
    : Unique RepoConcurrency.repoId (store.view rows changes).repoConcurrency := by
  unfold Relational.Unique
  rw [view_repoIds]
  refine List.nodup_append.mpr ⟨unique, nodup, ?_⟩
  rintro _ mem repo seeded rfl
  obtain ⟨row, inside, same⟩ := List.mem_map.mp mem
  exact lookup_none.mp (fresh _ seeded) row inside same

/-- Changes about counters leave the other tables, by induction on them. -/
theorem view_counters (counters : ∀ change ∈ changes, change.counts = true)
    : store.view rows changes
      = { rows with repoConcurrency := (store.view rows changes).repoConcurrency } := by
  induction changes generalizing rows with
  | nil => rfl
  | cons change changes ih =>
      rw [Store.view_cons, ih (fun other mem => counters other (List.mem_cons_of_mem _ mem))]
      have counts := counters change List.mem_cons_self
      cases change with
      | insertRepo row => rfl
      | setActive repo active => rfl
      | decrement repo slots => rfl
      | _ => cases counts

/-- A counter that starts at zero changes no count. -/
theorem activeOf_insertRepo {repo : String} (fresh : rows.repo? repo = none) (other : String)
    : (store.apply (.insertRepo ⟨repo, 0⟩) rows).activeOf other = rows.activeOf other := by
  simp only [Database.activeOf, Database.repo?] at fresh ⊢
  simp only [store, storeWith, Change.apply, lookup_append]
  by_cases same : repo = other
  · subst same
    simp [fresh]
  · simp [same]

theorem activeOf_setActive {repo : String} {active : Int}
    (present : (rows.repo? repo).isSome = true) (other : String)
    : (store.apply (.setActive repo active) rows).activeOf other
      = if repo = other then active else rows.activeOf other := by
  obtain ⟨row, found⟩ := Option.isSome_iff_exists.mp present
  simp only [Database.activeOf, Database.repo?, store, storeWith, Change.apply] at found ⊢
  rw [lookup_update (by intro row; rfl)]
  by_cases same : repo = other
  · subst same
    simp [found, lookup_key found]
  · cases found' : lookup RepoConcurrency.repoId other rows.repoConcurrency with
    | none => simp [same]
    | some row' =>
        have identity : row'.repoId = other := lookup_key found'
        simp [same, identity, Ne.symm same]

end View

/-- Changes about counters alone make a settling commit. -/
theorem commit_counters {config : Config} {exact : Prop} {verb : Verb} {held : List Key}
    {rows : Database} {changes : List Change} (holds : Consistent rows)
    (counters : ∀ change ∈ changes, change.counts = true)
    (unique : Relational.Unique RepoConcurrency.repoId (store.view rows changes).repoConcurrency)
    (accounted : Accounted exact verb rows (store.view rows changes) id)
    : Commit config exact verb held rows (store.view rows changes) := by
  rw [view_counters counters] at accounted ⊢
  have settles : Settles config exact verb rows
      { rows with repoConcurrency := (store.view rows changes).repoConcurrency } id id [] [] := {
    inboundEvents := rfl
    attempts := by simp
    jobs := by simp
    outbound := by simp
    deadLetters := by simp
    uniqueRepo := unique
    uniqueOutbound := holds.uniqueOutbound
    closeKept := fun _ => ⟨rfl, rfl⟩
    moveKept := fun _ => rfl
    closes := fun _ _ _ => rfl
    moves := fun _ _ => Or.inl rfl
    settled := fun _ _ _ _ _ _ => Or.inl rfl
    released := fun _ _ _ _ isOpen closed => absurd isOpen closed
    requeued := fun _ _ _ => Or.inl rfl
    replied := by
      intro job _
      rw [if_neg (fun finished => finished.1 finished.2.1)]
      rfl
    replyRows := by simp
    buried := by
      intro _ job _ live
      rw [if_neg]
      · rfl
      · intro dead
        simp [show job.status = .dead from dead, JobStatus.live] at live
    letterRows := by simp
    accounted := accounted
  }
  exact .settle settles

end Ledger

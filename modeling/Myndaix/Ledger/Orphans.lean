import Myndaix.Ledger.Counters

/-! Healing orphans, the first statement of both janitor verbs: open attempts that a cancel left
behind on a dead job are locked and closed.
-/

namespace Ledger

open Interaction Relational Transactions

variable {config : Config} {exact : Prop} {verb : Verb} {began : Database} {Answer : Type}
  {post : Answer → Place Database Key Change → Prop}

variable {row : Attempt × Job} {rows : Database}

theorem mem_joined
    : row ∈ joined rows ↔ row.1 ∈ rows.attempts ∧ rows.job? row.1.jobId = some row.2 := by
  simp only [joined, List.mem_filterMap, Option.map_eq_some_iff]
  constructor
  · rintro ⟨attempt, mem, job, found, rfl⟩
    exact ⟨mem, found⟩
  · rintro ⟨mem, found⟩
    exact ⟨row.1, mem, row.2, found, rfl⟩

/-- The join has every attempt once, by induction on the attempts. -/
theorem joined_nodup (unique : Relational.Unique Attempt.id rows.attempts)
    : ((joined rows).map (fun row => row.1.id)).Nodup := by
  have sub : ((joined rows).map (fun row => row.1.id)).Sublist (rows.attempts.map Attempt.id) := by
    unfold joined
    induction rows.attempts with
    | nil => exact .slnil
    | cons attempt attempts ih =>
        cases found : rows.job? attempt.jobId with
        | none => simpa [List.filterMap_cons, found] using ih.cons attempt.id
        | some job => simpa [List.filterMap_cons, found] using ih.cons_cons attempt.id
  exact unique.sublist sub

/-- What a select hands out of the join, in any order, has every attempt at most once. -/
theorem selected_nodup {selected items : List (Attempt × Job)} {condition : Attempt × Job → Bool}
    (unique : Relational.Unique Attempt.id rows.attempts)
    (perm : items.Perm ((joined rows).filter condition)) (sub : selected.Sublist items)
    : (selected.map (fun row => row.1.id)).Nodup := by
  refine List.Nodup.sublist (sub.map _) ((perm.map _).nodup_iff.mpr ?_)
  exact (joined_nodup unique).sublist (List.filter_sublist.map _)

/-- The attempt of a joined row stays where it is. -/
def Placed (row : Attempt × Job) (rows : Database) : Prop :=
  ∃ attempt, rows.attempt? row.1.id = some attempt ∧ attempt.jobId = row.2.id

theorem Stable.placed {held : List Key}
    : Stable (Rely exact) held (Placed row) := by
  rintro rows later moved ⟨attempt, found, own⟩
  obtain ⟨next, found', _⟩ := moved.1.attempt found
  exact ⟨next, found', (moved.1.attemptContinues found found').sameJob.trans own⟩

/-- The attempt of a joined row is open. -/
def PlacedOpen (row : Attempt × Job) (rows : Database) : Prop :=
  ∃ attempt,
    rows.attempt? row.1.id = some attempt ∧ attempt.status = .open_ ∧ attempt.jobId = row.2.id

theorem Stable.placedOpen {held : List Key} (locked : Key.attempt row.1.id ∈ held)
    : Stable (Rely exact) held (PlacedOpen row) :=
  Stable.exists fun _ => (Stable.attempt locked).and (Stable.const _)

/-- An open attempt on a dead job. -/
def Orphan (row : Attempt × Job) (rows : Database) : Prop :=
  PlacedOpen row rows ∧ rows.job? row.2.id = some row.2 ∧ row.2.status = .dead

theorem Stable.orphan {held : List Key} (locked : Key.attempt row.1.id ∈ held)
    : Stable (Rely exact) held (Orphan row) := by
  rintro rows later moved ⟨isOpen, found, dead⟩
  exact ⟨Stable.placedOpen locked moved isOpen,
    Stable.terminalJob (by rw [dead]; rfl) moved found, dead⟩

/-- An orphan in a snapshot belongs to a dead job: queued jobs have no open attempt. -/
theorem orphaned_dead (holds : Consistent rows) (mem : row ∈ (joined rows).filter (orphaned rows))
    : row.2.status = .dead ∧ rows.job? row.2.id = some row.2 ∧ Placed row rows := by
  obtain ⟨inside, left⟩ := List.mem_filter.mp mem
  obtain ⟨mem, found⟩ := mem_joined.mp inside
  have identity : row.2.id = row.1.jobId := lookup_key found
  have own : rows.attempt? row.1.id = some row.1 := lookup_of_mem holds.uniqueAttempt mem
  simp only [orphaned, stillOpen, own, Option.any_some, Bool.and_eq_true, decide_eq_true_eq,
    Bool.not_eq_true'] at left
  refine ⟨?_, by rw [identity]; exact found, row.1, own, identity.symm⟩
  rcases holds.owner row.1 mem row.2 left.1 found with live | dead
  · rw [left.2] at live
    cases live
  · exact dead

/-- Healing orphans hands out open attempts of dead jobs, locked and then closed. -/
theorem closeOrphans_rule {order : List (Attempt × Job) → List (Attempt × Job)} {now : Time}
    (perm : ∀ rows, (order rows).Perm rows) {next : List (Attempt × Job) → Txn Answer}
    {fact : Database → Prop} (free : ∀ held, Stable (Rely exact) held fact)
    (consistent : ∀ rows, fact rows → Consistent rows) (here : fact rows)
    (continues
      : ∀ orphans more rows,
          fact rows
          → (orphans.map (fun row => row.1.id)).Nodup
          → (∀ row ∈ orphans, Orphan row rows ∧ Key.attempt row.1.id ∈ more)
          → (∀ key ∈ more, key.kind = 0)
          → (next orphans).Ensures (ledgerSetting config exact verb began) post
              ⟨rows, more,
                [
                  .closeAttempts (orphans.map (fun row => row.1.id)) .failed now none
                    (some .terminal)
                ]⟩)
    : (closeOrphans order now >>= next).Ensures (ledgerSetting config exact verb began) post
        ⟨rows, [], []⟩ := by
  simp only [closeOrphans, Program.bind_assoc]
  refine look_rule (free []) here (fun snapshot atSnapshot => ?_)
  have here := consistent snapshot atSnapshot
  rw [Store.view_nil]
  have chosen {row : Attempt × Job}
      (mem : row ∈ order ((joined snapshot).filter (orphaned snapshot)))
      : row ∈ (joined snapshot).filter (orphaned snapshot) :=
    (perm _).mem_iff.mp mem
  have stable (held : List Key) : Stable (Rely exact) held (fun rows =>
        fact rows
        ∧ ∀ row,
            row ∈ order ((joined snapshot).filter (orphaned snapshot))
            → rows.job? row.2.id = some row.2 ∧ Placed row rows) := by
    refine (free held).and (Stable.all fun row => Stable.given fun mem => ?_)
    refine (Stable.terminalJob ?_).and Stable.placed
    rw [(orphaned_dead here (chosen mem)).1]
    rfl
  refine select_rule Orphan ?_ (stable [])
    ⟨atSnapshot, fun row mem => (orphaned_dead here (chosen mem)).2⟩ ?_ ?_
  · exact fun row held locked => Stable.orphan (locked _ (List.mem_singleton_self _))
  · rintro row mem rows ⟨_, known⟩ passes
    obtain ⟨found, attempt, foundAttempt, own⟩ := known row mem
    simp only [orphaned, stillOpen, Store.view_nil, foundAttempt, Option.any_some,
      Bool.and_eq_true, decide_eq_true_eq] at passes
    exact ⟨⟨attempt, foundAttempt, passes.1, own⟩, found,
      (orphaned_dead here (chosen mem)).1⟩
  · intro orphans more rows here' sub bound each within
    rw [List.append_nil]
    have nodup := selected_nodup here.uniqueAttempt (perm _) sub
    have known (row : Attempt × Job) (mem : row ∈ orphans)
        : Orphan row rows ∧ Key.attempt row.1.id ∈ more :=
      ⟨(each row mem).1, (each row mem).2 _ (List.mem_singleton_self _)⟩
    have stable : Stable (Rely exact) more (fun rows =>
          fact rows ∧ ∀ row, row ∈ orphans → Orphan row rows) :=
      (free more).and (Stable.all fun row => Stable.given fun mem =>
        Stable.orphan (known row mem).2)
    refine write_rule stable ⟨here'.1, fun row mem => (known row mem).1⟩ ?_
      (fun _ _ => noFloor_of_other (by simp)) ?_
    · intro key mem
      simp only [Change.keys, List.map_map, List.mem_map, Function.comp_apply] at mem
      obtain ⟨row, inside, rfl⟩ := mem
      exact (known row inside).2
    · intro rows here
      refine continues orphans more rows here.1 nodup
        (fun row mem => ⟨here.2 row mem, (known row mem).2⟩) ?_
      intro key mem
      obtain ⟨row, _, inside⟩ := within key mem
      rw [List.mem_singleton.mp inside]
      rfl

end Ledger

import Mathlib.Logic.Function.Basic
import Mathlib.Logic.Relation
import Myndaix.Outcomes.Dial
import Myndaix.Systems.Machine

/-! Snapshots of the shadow dial among transactions that write labels. A row draws its number when
it is inserted and is seen when its transaction commits; a snapshot reads the largest number that it
sees, and then the labels up to it.
-/

namespace Outcomes

open Relational Systems

-- The reads

namespace Database

variable (database : Database)

def maxFindingSeq : Nat :=
  (database.rows.map FindingOutcome.seq).max?.getD 0

/-- The newest row up to the cutoff in which a review raised the finding. -/
def raise (cutoff : Option Nat) (finding : Finding) : Option FindingOutcome :=
  first (newer FindingOutcome.seq)
    ((database.rowsOf finding).filter
      (fun row => row.source = .reviewRaised && cutoff.all (row.seq ≤ ·)))

/-- The review that a raise event names. -/
def playOf (sourceEvent : String) : Option String :=
  if "review:".toList <+: sourceEvent.toList then
    some (String.ofList (sourceEvent.toList.drop "review:".toList.length))
  else none

def dialLabel (cutoff : Option Nat) (label : FindingOutcome) : DialLabel where
  ruleTag := label.ruleTag
  family := label.family
  outcome := label.outcome
  source := label.source
  seq := label.seq
  ref := some (((database.raise cutoff label.finding).map (fun row => row.ref)).getD label.ref)
  play := (database.raise cutoff label.finding).bind (fun row => playOf row.sourceEvent)

/-- The current human rows up to the cutoff. -/
def labelsUpTo (cutoff : Option Nat) : List FindingOutcome :=
  (database.findings.filterMap database.currentHuman).filter
    (fun label => cutoff.all (label.seq ≤ ·))

def dialShadowLabels (cutoff : Option Nat) : List DialLabel :=
  (database.labelsUpTo cutoff).map (database.dialLabel cutoff)

end Database

-- Snapshots among transactions

/-- How far a run of `dial-shadow --snapshot` is. `seen` is what the table showed when its labels
were read.
-/
inductive SnapshotPhase : Type where
  | connected
  | bounded (cutoff : Nat)
  | read (cutoff : Nat) (seen : Database)
  | appended (cutoff : Nat) (seen : Database)
  | nothing

/-- The committed rows, the rows of open transactions, the runs of the dial, and the table that they
append to.
-/
structure DialState (Rate : Type) where
  table : Database
  pending : List (Nat × FindingOutcome)
  runs : Nat → SnapshotPhase
  snapshots : List (Nat × Cell Rate)

inductive DialAction : Type where
  /-- A transaction inserts an event. -/
  | insert (transaction : Nat) (event : Event)
  | commit (transaction : Nat)
  | rollback (transaction : Nat)
  /-- A run reads the largest number, then the labels, and appends. -/
  | maxSeq (run : Nat)
  | labels (run : Nat)
  | append (run : Nat)

variable {seen : Database}

section Machine

variable {Rate : Type}

namespace DialState

variable (state : DialState Rate)

def ofTransaction (transaction : Nat) : List FindingOutcome :=
  (state.pending.filter (fun entry => entry.1 = transaction)).map Prod.snd

def others (transaction : Nat) : List (Nat × FindingOutcome) :=
  state.pending.filter (fun entry => entry.1 ≠ transaction)

/-- The event's entry of the unique index is taken by a row of another open transaction. -/
def awaited (transaction : Nat) (event : Event) : Bool :=
  (state.others transaction).any (fun entry => entry.2.identity = event.identity)

def taken (transaction : Nat) (event : Event) : Bool :=
  (state.table.rows ++ state.ofTransaction transaction).any
    (fun row => row.identity = event.identity)

end DialState

variable [LinearOrder Rate] (numerics : Numerics Rate) (params : ShadowParams Rate)

def dialStep (action : DialAction) (state : DialState Rate) : Option (DialState Rate) :=
  match action with
  | .insert transaction event =>
      -- A conflict with a row that is not committed waits; any other uses up a number.
      if state.awaited transaction event then none
      else
        some
          {
            state with
            table := { state.table with nextSeq := state.table.nextSeq + 1 }
            pending :=
              if state.taken transaction event then state.pending
              else state.pending ++ [(transaction, ⟨event, state.table.nextSeq⟩)]
          }
  | .commit transaction =>
      some
        {
          state with
          table := { state.table with rows := state.table.rows ++ state.ofTransaction transaction }
          pending := state.others transaction
        }
  | .rollback transaction => some { state with pending := state.others transaction }
  | .maxSeq run =>
      match state.runs run with
      | .connected =>
          some
            { state with
              runs := Function.update state.runs run (.bounded state.table.maxFindingSeq) }
      | _ => none
  | .labels run =>
      match state.runs run with
      | .bounded cutoff =>
          some { state with runs := Function.update state.runs run (.read cutoff state.table) }
      | _ => none
  | .append run =>
      match state.runs run with
      | .read cutoff seen =>
          if (aggregateCells numerics params (seen.dialShadowLabels (some cutoff))).isEmpty then
            some { state with runs := Function.update state.runs run .nothing }
          else
            some
              {
                state with
                runs := Function.update state.runs run (.appended cutoff seen)
                snapshots :=
                  state.snapshots
                    ++ (aggregateCells numerics params
                    (seen.dialShadowLabels (some cutoff))).map (cutoff, ·)
              }
      | _ => none

def DialState.empty : DialState Rate where
  table := .empty
  pending := []
  runs _ := .connected
  snapshots := []

/-- Label transactions and snapshots in any order. -/
def dialMachine : Machine (DialState Rate) DialAction where
  initial state := state = .empty
  step := dialStep numerics params

-- Numbers

namespace DialState

/-- The rows that are committed and those that may yet be. -/
def drawn (state : DialState Rate) : List FindingOutcome :=
  state.table.rows ++ state.pending.map Prod.snd

/-- Rows have numbers of their own below the next one, and so has every cutoff. -/
structure Numbered (state : DialState Rate) : Prop where
  positive : 0 < state.table.nextSeq
  below : ∀ row ∈ state.drawn, row.seq < state.table.nextSeq
  distinct : (state.drawn.map FindingOutcome.seq).Nodup
  bounded : ∀ run cutoff, state.runs run = .bounded cutoff → cutoff < state.table.nextSeq

end DialState

variable {numerics : Numerics Rate} {params : ShadowParams Rate}
variable {state later : DialState Rate} {action : DialAction}

omit [LinearOrder Rate] in
/-- What a transaction has drawn is drawn, and what the others have. -/
theorem drawn_split (transaction : Nat)
    : (state.table.rows ++ state.ofTransaction transaction
          ++ (state.others transaction).map Prod.snd).Perm state.drawn := by
  rw [DialState.drawn, List.append_assoc]
  refine List.Perm.append_left _ ?_
  rw [DialState.ofTransaction, DialState.others, ← List.map_append]
  refine List.Perm.map _ ?_
  have parts := List.filter_append_perm (fun entry => decide (entry.1 = transaction)) state.pending
  simpa using parts

/-- What a step makes of the drawn rows: they are some of those before, and at most one with the
next number.
-/
theorem dialStep_drawn (taken : dialStep numerics params action state = some later)
    : ∃ fresh,
        later.drawn.Subperm (state.drawn ++ fresh)
        ∧ fresh.length ≤ 1
        ∧ (∀ row ∈ fresh, row.seq = state.table.nextSeq)
        ∧ state.table.nextSeq + fresh.length ≤ later.table.nextSeq := by
  have still (same : later.drawn.Subperm state.drawn)
      (next : state.table.nextSeq ≤ later.table.nextSeq)
      : ∃ fresh,
          later.drawn.Subperm (state.drawn ++ fresh)
          ∧ fresh.length ≤ 1
          ∧ (∀ row ∈ fresh, row.seq = state.table.nextSeq)
          ∧ state.table.nextSeq + fresh.length ≤ later.table.nextSeq :=
    ⟨[], by rwa [List.append_nil], Nat.zero_le _, List.forall_mem_nil _, next⟩
  cases action with
  | insert transaction event =>
      simp only [dialStep] at taken
      split at taken
      · cases taken
      · cases taken
        by_cases conflict : state.taken transaction event = true
        · refine still ?_ (Nat.le_succ _)
          simp only [DialState.drawn, if_pos conflict]
          exact List.Subperm.refl _
        · refine ⟨[⟨event, state.table.nextSeq⟩], ?_, Nat.le_refl _, ?_, Nat.le_refl _⟩
          · simp only [DialState.drawn, if_neg conflict, List.map_append, List.map_singleton,
              List.append_assoc]
            exact List.Subperm.refl _
          · intro row mem
            rw [List.mem_singleton.mp mem]
  | commit transaction =>
      cases taken
      exact still (drawn_split transaction).subperm (Nat.le_refl _)
  | rollback transaction =>
      cases taken
      refine still (List.Sublist.subperm ?_) (Nat.le_refl _)
      exact List.Sublist.append_left (List.filter_sublist.map _) _
  | maxSeq run =>
      simp only [dialStep] at taken
      split at taken
      · cases taken
        exact still (List.Subperm.refl _) (Nat.le_refl _)
      · cases taken
  | labels run =>
      simp only [dialStep] at taken
      split at taken
      · cases taken
        exact still (List.Subperm.refl _) (Nat.le_refl _)
      · cases taken
  | append run =>
      simp only [dialStep] at taken
      split at taken
      · split at taken
        · cases taken
          exact still (List.Subperm.refl _) (Nat.le_refl _)
        · cases taken
          exact still (List.Subperm.refl _) (Nat.le_refl _)
      · cases taken

omit [LinearOrder Rate] in
theorem maxFindingSeq_lt (numbered : state.Numbered)
    : state.table.maxFindingSeq < state.table.nextSeq := by
  rw [Database.maxFindingSeq]
  cases highest : (state.table.rows.map FindingOutcome.seq).max? with
  | none => exact numbered.positive
  | some seq =>
      obtain ⟨row, mem, rfl⟩ := List.mem_map.mp (List.max?_mem highest)
      exact numbered.below row (List.mem_append_left _ mem)

/-- A run that is bounded after a step was bounded before, or has read the largest number. -/
theorem dialStep_bounded (taken : dialStep numerics params action state = some later)
    {run cutoff : Nat}
    (bounded : later.runs run = .bounded cutoff)
    : state.runs run = .bounded cutoff ∨ cutoff = state.table.maxFindingSeq := by
  have updated {other : Nat} {phase : SnapshotPhase}
      (bounded : Function.update state.runs other phase run = .bounded cutoff)
      : state.runs run = .bounded cutoff ∨ phase = .bounded cutoff := by
    by_cases same : run = other
    · subst same
      rw [Function.update_self] at bounded
      exact .inr bounded
    · rw [Function.update_of_ne same] at bounded
      exact .inl bounded
  cases action with
  | insert transaction event =>
      simp only [dialStep] at taken
      split at taken
      · cases taken
      · cases taken
        exact .inl bounded
  | commit transaction | rollback transaction =>
      cases taken
      exact .inl bounded
  | maxSeq other =>
      simp only [dialStep] at taken
      split at taken
      · cases taken
        refine (updated bounded).imp_right fun same => ?_
        cases same
        rfl
      · cases taken
  | labels other =>
      simp only [dialStep] at taken
      split at taken
      · cases taken
        exact .inl ((updated bounded).resolve_right nofun)
      · cases taken
  | append other =>
      simp only [dialStep] at taken
      split at taken
      · split at taken
        · cases taken
          exact .inl ((updated bounded).resolve_right nofun)
        · cases taken
          exact .inl ((updated bounded).resolve_right nofun)
      · cases taken

omit [LinearOrder Rate] in
theorem nodup_of_length_le_one {Item : Type} {items : List Item} (few : items.length ≤ 1)
    : items.Nodup := by
  cases items with
  | nil => exact List.nodup_nil
  | cons item rest =>
      obtain rfl := List.length_eq_zero_iff.mp (Nat.le_zero.mp (Nat.le_of_succ_le_succ few))
      exact List.nodup_singleton _

/-- Fresh numbers are next ones, so a step keeps the rows numbered. -/
theorem DialState.Numbered.step (numbered : state.Numbered)
    (taken : dialStep numerics params action state = some later)
    : later.Numbered := by
  obtain ⟨fresh, drawn, few, next, onward⟩ := dialStep_drawn taken
  have grows : state.table.nextSeq ≤ later.table.nextSeq := (Nat.le_add_right _ _).trans onward
  have below : ∀ row ∈ fresh, row.seq < later.table.nextSeq := by
    intro row mem
    rw [next row mem]
    exact Nat.lt_of_lt_of_le (Nat.lt_add_of_pos_right (List.length_pos_of_mem mem)) onward
  constructor
  · exact Nat.lt_of_lt_of_le numbered.positive grows
  · intro row mem
    rcases List.mem_append.mp (drawn.subset mem) with inside | inside
    · exact Nat.lt_of_lt_of_le (numbered.below row inside) grows
    · exact below row inside
  · obtain ⟨rows, perm, sublist⟩ := drawn
    rw [← (perm.map FindingOutcome.seq).nodup_iff]
    refine List.Nodup.sublist (sublist.map _) ?_
    rw [List.map_append, List.nodup_append]
    refine ⟨numbered.distinct, ?_, ?_⟩
    · exact nodup_of_length_le_one ((List.length_map _).trans_le few)
    · intro seq mem other member' same
      obtain ⟨row, inside, rfl⟩ := List.mem_map.mp mem
      obtain ⟨row', inside', rfl⟩ := List.mem_map.mp member'
      have lower := numbered.below row inside
      rw [same, next row' inside'] at lower
      exact Nat.lt_irrefl _ lower
  · intro run cutoff bounded
    refine Nat.lt_of_lt_of_le ?_ grows
    rcases dialStep_bounded taken bounded with earlier | rfl
    · exact numbered.bounded run cutoff earlier
    · exact maxFindingSeq_lt numbered

omit [LinearOrder Rate] in
theorem DialState.Numbered.empty : (DialState.empty : DialState Rate).Numbered where
  positive := Nat.one_pos
  below := nofun
  distinct := List.nodup_nil
  bounded := nofun

theorem numbered_of_runs
    (runs : (dialMachine numerics params).Runs (fun _ _ => True) state)
    : state.Numbered := by
  refine runs.invariant ?_ ?_
  · rintro _ rfl
    exact .empty
  · intro state later action numbered _ taken
    exact numbered.step taken

-- What a snapshot leaves out

/-- The row is a label of one of the snapshot's cells. -/
def CountedBy (numerics : Numerics Rate) (params : ShadowParams Rate) (cutoff : Nat)
    (seen : Database) (row : FindingOutcome)
    : Prop :=
  row ∈ seen.labelsUpTo (some cutoff)
  ∧ ∃ cell ∈ aggregateCells numerics params (seen.dialShadowLabels (some cutoff)),
      (seen.dialLabel (some cutoff) row).cellKey = cell.cellKey

/-- The snapshot saw a later label of the row's finding. -/
def SupersededIn (seen : Database) (row : FindingOutcome) : Prop :=
  ∃ other ∈ seen.rows,
    other.source.isHuman = true ∧ other.finding = row.finding ∧ row.seq < other.seq

/-- The snapshot counts the label, or saw it superseded, or leaves it to the later cohort. -/
def Partitioned (numerics : Numerics Rate) (params : ShadowParams Rate) (cutoff : Nat)
    (seen : Database) (row : FindingOutcome)
    : Prop :=
  CountedBy numerics params cutoff seen row ∨ SupersededIn seen row ∨ cutoff < row.seq

/-- No open transaction holds a label up to the cutoff that is not superseded yet. -/
def DialState.Settled (state : DialState Rate) (cutoff : Nat) : Prop :=
  ∀ entry ∈ state.pending,
    entry.2.source.isHuman = true
    → entry.2.seq ≤ cutoff
    → SupersededIn state.table entry.2

theorem countedBy_of_mem {cutoff : Nat} {row : FindingOutcome}
    (mem : row ∈ seen.labelsUpTo (some cutoff))
    : CountedBy numerics params cutoff seen row := by
  have label : seen.dialLabel (some cutoff) row ∈ seen.dialShadowLabels (some cutoff) :=
    List.mem_map_of_mem mem
  exact ⟨mem, _, List.mem_map_of_mem (mem_cellKeys.mpr ⟨_, label, rfl⟩), rfl⟩

theorem aggregateCells_isEmpty {labels : List DialLabel}
    : (aggregateCells numerics params labels).isEmpty = true ↔ labels = [] := by
  rw [List.isEmpty_iff, aggregateCells, List.map_eq_nil_iff]
  constructor
  · intro none
    refine List.eq_nil_iff_forall_not_mem.mpr fun label mem => ?_
    have keyed := mem_cellKeys.mpr ⟨label, mem, rfl⟩
    rw [none] at keyed
    cases keyed
  · rintro rfl
    exact List.mergeSort_nil

/-- A label that is committed is on one side of the boundary. -/
theorem partitioned_of_committed {cutoff : Nat} {row : FindingOutcome}
    (distinct : (seen.rows.map FindingOutcome.seq).Nodup) (mem : row ∈ seen.rows)
    (human : row.source.isHuman = true)
    : Partitioned numerics params cutoff seen row := by
  have own : row ∈ (seen.rowsOf row.finding).filter (fun row => row.source.isHuman) :=
    List.mem_filter.mpr ⟨List.mem_filter.mpr ⟨mem, decide_eq_true rfl⟩, human⟩
  obtain ⟨best, current⟩ := @first_exists _ _ (newer FindingOutcome.seq) _ own
  obtain ⟨inside, human'⟩ := List.mem_filter.mp (first_mem current)
  obtain ⟨committed, same⟩ := List.mem_filter.mp inside
  rcases Nat.lt_or_eq_of_le (first_newer_le current row own) with older | equal
  · exact .inr (.inl ⟨best, committed, human', of_decide_eq_true same, older⟩)
  · obtain rfl := List.inj_on_of_nodup_map distinct mem committed equal
    by_cases early : row.seq ≤ cutoff
    · have found : row.finding ∈ seen.findings :=
        List.mem_dedup.mpr (List.mem_map.mpr ⟨row, mem, rfl⟩)
      have isLabel : row ∈ seen.findings.filterMap seen.currentHuman :=
        List.mem_filterMap.mpr ⟨row.finding, found, current⟩
      exact .inl (countedBy_of_mem (List.mem_filter.mpr ⟨isLabel, decide_eq_true early⟩))
    · exact .inr (.inr (Nat.lt_of_not_le early))

theorem mem_of_labelsUpTo {cutoff : Nat} {row : FindingOutcome}
    (mem : row ∈ seen.labelsUpTo (some cutoff))
    : row ∈ seen.rows := by
  obtain ⟨finding, -, current⟩ := List.mem_filterMap.mp (List.mem_filter.mp mem).1
  exact (List.mem_filter.mp (List.mem_filter.mp (first_mem current)).1).1

-- The steps behind a read

/-- Steps of any transactions and runs. -/
def Onward (numerics : Numerics Rate) (params : ShadowParams Rate)
    : DialState Rate → DialState Rate → Prop :=
  Relation.ReflTransGen
    (fun state later => ∃ action, dialStep numerics params action state = some later)

/-- Rows that come to be drawn have numbers from the next one on. -/
theorem drawn_onward (onward : Onward numerics params state later)
    : state.table.nextSeq ≤ later.table.nextSeq
      ∧ ∀ row ∈ later.drawn, row ∈ state.drawn ∨ state.table.nextSeq ≤ row.seq := by
  induction onward with
  | refl => exact ⟨Nat.le_refl _, fun row => .inl⟩
  | tail _ stepped ih =>
      obtain ⟨action, taken⟩ := stepped
      obtain ⟨fresh, drawn, few, next, onward⟩ := dialStep_drawn taken
      obtain ⟨grown, earlier⟩ := ih
      refine ⟨grown.trans ((Nat.le_add_right _ _).trans onward), fun row mem => ?_⟩
      rcases List.mem_append.mp (drawn.subset mem) with inside | inside
      · exact earlier row inside
      · rw [next row inside]
        exact .inr grown

/-- How far a run may be that has read its labels. -/
def Past (cutoff : Nat) (seen : Database) (phase : SnapshotPhase) : Prop :=
  phase = .read cutoff seen
  ∨ phase = .nothing
  ∨ phase = .appended cutoff seen ∧ seen.labelsUpTo (some cutoff) ≠ []

theorem Past.step {run cutoff : Nat} (past : Past cutoff seen (state.runs run))
    (taken : dialStep numerics params action state = some later)
    : Past cutoff seen (later.runs run) := by
  have elsewhere {other : Nat} {phase : SnapshotPhase} (apart : run ≠ other)
      : Past cutoff seen (Function.update state.runs other phase run) := by
    rwa [Function.update_of_ne apart]
  cases action with
  | insert transaction event =>
      simp only [dialStep] at taken
      split at taken
      · cases taken
      · cases taken
        exact past
  | commit transaction | rollback transaction =>
      cases taken
      exact past
  | maxSeq other =>
      simp only [dialStep] at taken
      split at taken
      · rename_i connected
        cases taken
        refine elsewhere fun same => ?_
        subst same
        rw [connected] at past
        rcases past with impossible | impossible | ⟨impossible, -⟩ <;> cases impossible
      · cases taken
  | labels other =>
      simp only [dialStep] at taken
      split at taken
      · rename_i bounded
        cases taken
        refine elsewhere fun same => ?_
        subst same
        rw [bounded] at past
        rcases past with impossible | impossible | ⟨impossible, -⟩ <;> cases impossible
      · cases taken
  | append other =>
      simp only [dialStep] at taken
      split at taken
      · rename_i cutoff' seen' read
        by_cases same : run = other
        · subst same
          rw [read] at past
          obtain ⟨rfl, rfl⟩ : cutoff' = cutoff ∧ seen' = seen := by
            rcases past with equal | impossible | ⟨impossible, -⟩
            · cases equal
              exact ⟨rfl, rfl⟩
            · cases impossible
            · cases impossible
          split at taken
          · cases taken
            exact .inr (.inl (Function.update_self ..))
          · rename_i some
            cases taken
            refine .inr (.inr ⟨Function.update_self .., fun none => some ?_⟩)
            rw [aggregateCells_isEmpty, Database.dialShadowLabels, none]
            rfl
        · split at taken
          · cases taken
            exact elsewhere same
          · cases taken
            exact elsewhere same
      · cases taken

theorem Past.onward {run cutoff : Nat} (past : Past cutoff seen (state.runs run))
    (onward : Onward numerics params state later)
    : Past cutoff seen (later.runs run) := by
  induction onward with
  | refl => exact past
  | tail _ stepped ih =>
      obtain ⟨action, taken⟩ := stepped
      exact ih.step taken

-- When the boundary parts the labels

/-- When the labels are read, a snapshot of them parts all labels that are ever committed, just
where none is left open behind the cutoff.
-/
theorem snapshot_partitions_iff {run cutoff : Nat}
    (runs : (dialMachine numerics params).Runs (fun _ _ => True) state)
    (bounded : state.runs run = .bounded cutoff)
    : (∀ read later,
          dialStep numerics params (.labels run) state = some read
          → Onward numerics params read later
          → ∀ cutoff' seen,
              later.runs run = .appended cutoff' seen
              → ∀ row ∈ later.table.rows,
                  row.source.isHuman = true
                  → Partitioned numerics params cutoff' seen row)
      ↔ state.table.labelsUpTo (some cutoff) = [] ∨ state.Settled cutoff := by
  have numbered := numbered_of_runs runs
  have reads
      : dialStep numerics params (.labels run) state
        = some { state with
                 runs := Function.update state.runs run (.read cutoff state.table) } := by
    simp only [dialStep, bounded]
  constructor
  · intro partitions
    by_cases none : state.table.labelsUpTo (some cutoff) = []
    · exact .inl none
    refine .inr fun entry mem human early => ?_
    -- The snapshot is appended, and then the transaction of the label commits.
    have filled
        : ¬(aggregateCells numerics params
              (state.table.dialShadowLabels (some cutoff))).isEmpty = true := by
      rwa [aggregateCells_isEmpty, Database.dialShadowLabels, List.map_eq_nil_iff]
    let read : DialState Rate :=
      { state with runs := Function.update state.runs run (.read cutoff state.table) }
    let appended : DialState Rate :=
      {
        read with
        runs := Function.update read.runs run (.appended cutoff state.table)
        snapshots :=
          read.snapshots
            ++ (aggregateCells numerics params
                  (state.table.dialShadowLabels (some cutoff))).map (cutoff, ·)
      }
    have appends : dialStep numerics params (.append run) read = some appended := by
      have here : read.runs run = .read cutoff state.table := Function.update_self ..
      simp only [dialStep, here, if_neg filled]
      rfl
    have commits
        : dialStep numerics params (.commit entry.1) appended
          = some
              {
                appended with
                table :=
                  { state.table with rows := state.table.rows ++ state.ofTransaction entry.1 }
                pending := state.others entry.1
              } := rfl
    have own : entry.2 ∈ state.ofTransaction entry.1 :=
      List.mem_map_of_mem (List.mem_filter.mpr ⟨mem, decide_eq_true rfl⟩)
    have onward : Onward numerics params read _ :=
      (Relation.ReflTransGen.single ⟨.append run, appends⟩).tail ⟨.commit entry.1, commits⟩
    have parted :=
      partitions read _ reads onward cutoff state.table (Function.update_self ..) entry.2
        (List.mem_append_right _ own) human
    rcases parted with ⟨counted, -⟩ | superseded | late
    · have apart := numbered.distinct
      rw [DialState.drawn, List.map_append, List.nodup_append] at apart
      have committed := List.mem_map_of_mem (f := FindingOutcome.seq) (mem_of_labelsUpTo counted)
      have open_ : entry.2.seq ∈ (state.pending.map Prod.snd).map FindingOutcome.seq :=
        List.mem_map_of_mem (List.mem_map_of_mem mem)
      exact absurd rfl (apart.2.2 _ committed _ open_)
    · exact superseded
    · exact absurd early (Nat.not_le_of_lt late)
  · intro settled read later taken onward cutoff' seen isAppended row mem human
    rw [reads] at taken
    cases taken
    have past : Past cutoff state.table (later.runs run) :=
      Past.onward (.inl (Function.update_self ..)) onward
    rw [isAppended] at past
    obtain ⟨rfl, rfl, some⟩
        : cutoff' = cutoff ∧ seen = state.table ∧ state.table.labelsUpTo (some cutoff) ≠ [] := by
      rcases past with impossible | impossible | ⟨equal, some⟩
      · cases impossible
      · cases impossible
      · cases equal
        exact ⟨rfl, rfl, some⟩
    have settled := settled.resolve_left some
    rcases (drawn_onward onward).2 row (List.mem_append_left _ mem) with early | late
    · rcases List.mem_append.mp early with committed | open_
      · refine partitioned_of_committed ?_ committed human
        have distinct := numbered.distinct
        rw [DialState.drawn, List.map_append, List.nodup_append] at distinct
        exact distinct.1
      · obtain ⟨entry, pending, rfl⟩ := List.mem_map.mp open_
        by_cases behind : entry.2.seq ≤ cutoff'
        · exact .inr (.inl (settled entry pending human behind))
        · exact .inr (.inr (Nat.lt_of_not_le behind))
    · exact .inr (.inr (Nat.lt_of_lt_of_le (numbered.bounded run cutoff' bounded) late))

end Machine

-- A label that is missed

/-- A finding that is labelled. -/
def sampleLabel (key : String) (source : Source) (outcome : Outcome)
    (paired : source.pairs outcome = true)
    : Event where
  repoId := "r"
  ref := "main"
  ruleTag := "resource-leak"
  path := "a.py"
  lineHash := "h"
  tipSha := "t"
  findingKey := key
  family := .kilabz
  outcome := outcome
  source := source
  sourceEvent := "label"
  createdAt := 0
  paired := paired

def sampleEarly : FindingOutcome :=
  ⟨sampleLabel "first" .humanConfirm .confirmedReal Source.pairs_humanConfirm, 1⟩

def sampleLate : FindingOutcome :=
  ⟨sampleLabel "second" .humanDismiss .dismissedFalsePositive Source.pairs_humanDismiss, 2⟩

/-- The first label is not committed when a run reads the number of the second one. -/
def sampleBounded : DialState Nat where
  table := ⟨[sampleLate], 3⟩
  pending := [(1, sampleEarly)]
  runs := Function.update (fun _ => .connected) 0 (.bounded 2)
  snapshots := []

theorem sampleBounded_runs (numerics : Numerics Nat) (params : ShadowParams Nat)
    : (dialMachine numerics params).Runs (fun _ _ => True) sampleBounded := by
  have played
      : (dialMachine numerics params).play (fun _ _ => True)
            [ .insert 1 sampleEarly.toEvent, .insert 2 sampleLate.toEvent, .commit 2, .maxSeq 0 ]
            .empty
          = some sampleBounded :=
    rfl
  exact (Machine.Runs.start rfl).play _ played

/-- The sample's first label is open behind the cutoff. -/
theorem snapshot_partitions_iff_sample
    : ¬∀ read later,
        dialStep (⟨fun _ _ => 0, fun _ _ _ => (0, 0), fun _ => ""⟩ : Numerics Nat)
            ⟨0, 0, 1, 1, 1, 1, 1, 0, 1, 1, 0⟩ (.labels 0) sampleBounded
          = some read
        → Onward ⟨fun _ _ => 0, fun _ _ _ => (0, 0), fun _ => ""⟩
            ⟨0, 0, 1, 1, 1, 1, 1, 0, 1, 1, 0⟩ read later
        → ∀ cutoff seen,
            later.runs 0 = .appended cutoff seen
            → ∀ row ∈ later.table.rows,
                row.source.isHuman = true
                → Partitioned ⟨fun _ _ => 0, fun _ _ _ => (0, 0), fun _ => ""⟩
                    ⟨0, 0, 1, 1, 1, 1, 1, 0, 1, 1, 0⟩ cutoff seen row := by
  intro partitions
  rcases (snapshot_partitions_iff (sampleBounded_runs _ _) rfl).mp partitions with none | settled
  · exact absurd none (by decide)
  · obtain ⟨other, mem, -, same, -⟩ := settled (1, sampleEarly) List.mem_cons_self rfl (by decide)
    obtain rfl := List.mem_singleton.mp mem
    exact absurd same (by decide)

/-- The snapshot of the second label is appended before the first one is committed, so the first one
is older than the cutoff and in no cell.
-/
theorem snapshot_misses
    : ∃ numerics : Numerics Nat,
      ∃ params : ShadowParams Nat,
      ∃ read later : DialState Nat,
        (dialMachine numerics params).Runs (fun _ _ => True) sampleBounded
        ∧ dialStep numerics params (.labels 0) sampleBounded = some read
        ∧ Onward numerics params read later
        ∧ later.runs 0 = .appended 2 sampleBounded.table
        ∧ sampleEarly ∈ later.table.rows
        ∧ sampleEarly.source.isHuman = true
        ∧ ¬Partitioned numerics params 2 sampleBounded.table sampleEarly := by
  let numerics : Numerics Nat := ⟨fun _ _ => 0, fun _ _ _ => (0, 0), fun _ => ""⟩
  let params : ShadowParams Nat := ⟨0, 0, 1, 1, 1, 1, 1, 0, 1, 1, 0⟩
  let cells := aggregateCells numerics params (sampleBounded.table.dialShadowLabels (some 2))
  let read : DialState Nat :=
    {
      sampleBounded with
      runs := Function.update sampleBounded.runs 0 (.read 2 sampleBounded.table)
    }
  let appended : DialState Nat :=
    {
      read with
      runs := Function.update read.runs 0 (.appended 2 sampleBounded.table)
      snapshots := read.snapshots ++ cells.map (2, ·)
    }
  let later : DialState Nat :=
    { appended with table := ⟨[sampleLate, sampleEarly], 3⟩, pending := [] }
  have filled : ¬cells.isEmpty = true := by
    rw [aggregateCells_isEmpty]
    decide
  have appends : dialStep numerics params (.append 0) read = some appended := by
    have here : read.runs 0 = .read 2 sampleBounded.table := rfl
    simp only [dialStep, here]
    exact if_neg filled
  have commits : dialStep numerics params (.commit 1) appended = some later := rfl
  have onward : Onward numerics params read later :=
    (Relation.ReflTransGen.single ⟨.append 0, appends⟩).tail ⟨.commit 1, commits⟩
  have reads : dialStep numerics params (.labels 0) sampleBounded = some read := rfl
  have isAppended : later.runs 0 = .appended 2 sampleBounded.table := rfl
  have committed : sampleEarly ∈ later.table.rows := List.mem_cons_of_mem _ List.mem_cons_self
  have missed : ¬Partitioned numerics params 2 sampleBounded.table sampleEarly := by
    rintro (⟨counted, -⟩ | ⟨other, mem, -, same, -⟩ | late)
    · have seen := mem_of_labelsUpTo counted
      exact absurd seen (by decide)
    · obtain rfl := List.mem_singleton.mp mem
      exact absurd same (by decide)
    · exact absurd late (by decide)
  exact
    ⟨numerics, params, read, later, sampleBounded_runs numerics params, reads, onward, isAppended,
      committed, rfl, missed⟩

end Outcomes

import Mathlib.Data.List.Nodup
import Myndaix.Outcomes.Verbs

/-! The table as one log for each finding. A view of a finding reads its log and nothing else, and
an insert adds to the log of its own finding.
-/

namespace Outcomes

open Relational

/-- The events of a finding, in the order of the table. -/
def Database.log (database : Database) (finding : Finding) : List Event :=
  (database.rowsOf finding).map FindingOutcome.toEvent

/-- The rows stand in the order of `seq`, which has not come to `nextSeq` yet. -/
structure Database.Ordered (database : Database) : Prop where
  ascending : Ascending FindingOutcome.seq database.rows
  below : ∀ row ∈ database.rows, row.seq < database.nextSeq

-- Logs

namespace Log

/-- The newest human label, or else the newest event. -/
def current (log : List Event) : Option Event :=
  (log.filter (fun event => event.source.isHuman)).getLast?.or log.getLast?

def labelled (log : List Event) : Bool :=
  log.any (fun event => event.source.isHuman)

/-- Whether the finding waits for a human label. -/
def queued (log : List Event) : Bool :=
  !labelled log
    && ((log.filter (fun event => event.source.isToggle)).getLast?.map Event.outcome
        != some .expired)
    && !log.isEmpty

/-- Add an event that the log does not have. -/
def append (log : List Event) (event : Event) : List Event :=
  if log.any (fun old => old.identity = event.identity) then log else log ++ [event]

section Append

variable {log : List Event} {event : Event}

theorem mem_append {other : Event} (mem : other ∈ append log event)
    : other ∈ log ∨ other = event := by
  unfold append at mem
  split at mem
  · exact Or.inl mem
  · simpa using mem

theorem append_keeps {other : Event} (mem : other ∈ log) : other ∈ append log event := by
  unfold append
  split
  · exact mem
  · exact List.mem_append_left _ mem

/-- The log has the event afterwards, or one that the index takes for it. -/
theorem append_has (log : List Event) (event : Event)
    : ∃ other ∈ append log event, other.identity = event.identity := by
  unfold append
  split
  · rename_i has
    simpa using has
  · exact ⟨event, by simp, rfl⟩

theorem append_eq (has : ∃ other ∈ log, other.identity = event.identity)
    : append log event = log := by
  unfold append
  rw [if_pos (by simpa using has)]

end Append

end Log

-- Views

section Views

variable {database : Database} {finding : Finding}

theorem Database.mem_log {event : Event}
    : event ∈ database.log finding
      ↔ ∃ row ∈ database.rows, row.finding = finding ∧ row.toEvent = event := by
  simp [log, rowsOf, and_assoc]

theorem Database.filter_log (property : Event → Bool)
    : ((database.rowsOf finding).filter (fun row => property row.toEvent)).map
          FindingOutcome.toEvent
        = (database.log finding).filter property := by
  rw [log, List.filter_map]
  rfl

theorem Database.Ordered.rowsOf (ordered : database.Ordered)
    : Ascending FindingOutcome.seq (database.rowsOf finding) :=
  ordered.ascending.filter _

/-- The newest row that a property selects is the last event of the log that it selects. -/
theorem Database.Ordered.newest (ordered : database.Ordered) (property : Event → Bool)
    : (first (newer FindingOutcome.seq)
          ((database.rowsOf finding).filter (fun row => property row.toEvent))).map
          FindingOutcome.toEvent
        = ((database.log finding).filter property).getLast? := by
  rw [first_newer (ordered.rowsOf.filter _), ← filter_log, List.getLast?_map]

theorem Database.Ordered.current_log (ordered : database.Ordered)
    : (database.current finding).map FindingOutcome.toEvent
      = Log.current (database.log finding) := by
  rw [current, first_newerAmong ordered.rowsOf, Log.current,
    ← filter_log (fun event => event.source.isHuman), List.getLast?_map, log, List.getLast?_map,
    ← Option.map_or]

theorem Database.Ordered.currentHuman_log (ordered : database.Ordered)
    : (database.currentHuman finding).map FindingOutcome.toEvent
      = ((database.log finding).filter (fun event => event.source.isHuman)).getLast? :=
  ordered.newest (fun event => event.source.isHuman)

theorem Database.Ordered.toggle_log (ordered : database.Ordered)
    : (database.toggle finding).map FindingOutcome.toEvent
      = ((database.log finding).filter (fun event => event.source.isToggle)).getLast? :=
  ordered.newest (fun event => event.source.isToggle)

theorem Database.any_rowsOf (property : Event → Bool)
    : (database.rowsOf finding).any (fun row => property row.toEvent)
      = (database.log finding).any property := by
  rw [log, List.any_map]
  rfl

/-- A row of the label queue stands for the newest event of its log. -/
theorem Database.Ordered.labelqueue_log (ordered : database.Ordered)
    : (database.labelqueue finding).map FindingOutcome.toEvent
      = if Log.queued (database.log finding) then (database.log finding).getLast? else none := by
  have newest
      : (first (newer FindingOutcome.seq) (database.rowsOf finding)).map FindingOutcome.toEvent
        = (database.log finding).getLast? := by
    rw [first_newer ordered.rowsOf, log, List.getLast?_map]
  have toggled
      : (database.toggle finding).map (fun row => row.outcome)
        = ((database.log finding).filter (fun event => event.source.isToggle)).getLast?.map
            Event.outcome := by
    rw [← ordered.toggle_log, Option.map_map]
    rfl
  rw [labelqueue, any_rowsOf (fun event => event.source.isHuman), toggled]
  cases log_ : database.log finding with
  | nil =>
      rw [log_] at newest
      simp only [List.any_nil, Bool.false_eq_true, if_false, Log.queued, List.isEmpty_nil,
        Bool.not_true, Bool.and_false]
      split
      · rfl
      · exact newest
  | cons event rest =>
      rw [log_] at newest
      simp only [Log.queued, Log.labelled, List.isEmpty_cons, Bool.not_false, Bool.and_true]
      split
      · rename_i human
        simp [human]
      · rename_i human
        rw [Bool.not_eq_true] at human
        split
        · rename_i gone
          rw [human, gone]
          rfl
        · rename_i stays
          rw [newest, human, bne_iff_ne.mpr stays]
          rfl

/-- A finding of the current view has its own row there. -/
theorem Database.current_finding {row : FindingOutcome}
    (found : database.current finding = some row)
    : row ∈ database.rows ∧ row.finding = finding := by
  simpa [rowsOf] using first_mem found

theorem Database.labelqueue_finding {row : FindingOutcome}
    (found : database.labelqueue finding = some row)
    : row ∈ database.rows ∧ row.finding = finding := by
  unfold labelqueue at found
  split at found
  · cases found
  split at found
  · cases found
  · simpa [rowsOf] using first_mem found

theorem Database.mem_findings : finding ∈ database.findings ↔ database.log finding ≠ [] := by
  simp only [findings, List.mem_dedup, List.mem_map, log, ne_eq, List.map_eq_nil_iff, rowsOf,
    List.filter_eq_nil_iff, decide_eq_true_eq, not_forall, not_not]
  constructor
  · rintro ⟨row, mem, own⟩
    exact ⟨row, mem, own⟩
  · rintro ⟨row, mem, own⟩
    exact ⟨row, mem, own⟩

end Views

-- Inserts

section Inserts

variable {database : Database} {event : Event} {finding : Finding}

/-- The index looks at the events of the finding only. -/
theorem Database.any_identity
    : database.rows.any (fun row => row.identity = event.identity)
      = (database.log event.finding).any (fun old => old.identity = event.identity) := by
  rw [Bool.eq_iff_iff, List.any_eq_true, List.any_eq_true]
  constructor
  · rintro ⟨row, mem, same⟩
    have same : row.identity = event.identity := by simpa using same
    have own : row.finding = event.finding := by
      simp only [Event.identity, Prod.mk.injEq] at same
      simp [Event.finding, same.1, same.2.1]
    exact ⟨row.toEvent, mem_log.mpr ⟨row, mem, own, rfl⟩, by simpa using same⟩
  · rintro ⟨old, mem, same⟩
    obtain ⟨row, inside, -, rfl⟩ := mem_log.mp mem
    exact ⟨row, inside, same⟩

theorem Database.insert_log
    : (database.insert event).1.log finding
      = if event.finding = finding then Log.append (database.log finding) event
        else database.log finding := by
  unfold insert
  rw [any_identity]
  by_cases own : event.finding = finding
  · subst own
    rw [if_pos rfl, Log.append]
    split
    · rfl
    · simp [log, rowsOf]
  · rw [if_neg own]
    split
    · rfl
    · simp [log, rowsOf, own]

theorem Database.insert_inserted
    : (database.insert event).2
      = !(database.log event.finding).any (fun old => old.identity = event.identity) := by
  unfold insert
  rw [any_identity]
  split
  · rename_i has
    simp [has]
  · rename_i lacks
    simp [Bool.not_eq_true _ ▸ lacks]

theorem Database.Ordered.insert (ordered : database.Ordered) (event : Event)
    : (database.insert event).1.Ordered := by
  unfold Database.insert
  split
  · exact ⟨ordered.ascending, fun row mem => Nat.lt_succ_of_lt (ordered.below row mem)⟩
  · refine ⟨?_, ?_⟩
    · exact List.pairwise_append.mpr ⟨ordered.ascending, List.pairwise_singleton _ _, by
        simpa using ordered.below⟩
    · intro row mem
      rcases List.mem_append.mp mem with old | new
      · exact Nat.lt_succ_of_lt (ordered.below row old)
      · simp [List.mem_singleton.mp new]

/-- Every event goes to the log of its finding, by induction on the events. -/
theorem Database.insertAll_log (events : List Event)
    : (database.insertAll events).1.log finding
      = (events.filter (fun event => event.finding = finding)).foldl Log.append
          (database.log finding) := by
  induction events generalizing database with
  | nil => rfl
  | cons event events ih =>
      rw [insertAll, ih, insert_log]
      by_cases own : event.finding = finding <;> simp [own]

theorem Database.Ordered.insertAll (ordered : database.Ordered) (events : List Event)
    : (database.insertAll events).1.Ordered := by
  induction events generalizing database with
  | nil => exact ordered
  | cons event events ih => exact ih (ordered.insert event)

/-- Of rows with different findings at most one is of this finding, by induction on them. -/
theorem filter_finding {rows : List FindingOutcome}
    (different : (rows.map (fun row => row.finding)).Nodup) {row : FindingOutcome}
    (mem : row ∈ rows)
    : rows.filter (fun other => other.finding = row.finding) = [row] := by
  induction rows with
  | nil => cases mem
  | cons head rows ih =>
      obtain ⟨fresh, different⟩ := List.nodup_cons.mp different
      rcases List.mem_cons.mp mem with rfl | mem
      · have others : rows.filter (fun other => other.finding = row.finding) = [] := by
          refine List.filter_eq_nil_iff.mpr (fun other inside same => fresh ?_)
          exact List.mem_map.mpr ⟨other, inside, by simpa using same⟩
        simp [others]
      · have apart : head.finding ≠ row.finding := fun same =>
          fresh (List.mem_map.mpr ⟨row, mem, same.symm⟩)
        rw [List.filter_cons_of_neg (by simpa using apart), ih different mem]

end Inserts

end Outcomes

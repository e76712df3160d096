import Myndaix.Outcomes.Effects

/-! A log without its machine labels, and what the human verbs take from a log when no machine
label gets in their way.
-/

namespace Outcomes

-- Facts

/-- The event without the columns that an expiry takes over from the row before it. -/
def Event.faded (event : Event) : Event :=
  if event.outcome = .expired then { event with toFindingFields := ⟨"", "", "", "", "", ""⟩ }
  else event

namespace Log

/-- A log without its machine labels. -/
def facts (log : List Event) : List Event :=
  (log.filter (fun event => !event.source.isMachineLabel)).map Event.faded

/-- A finding's log begins with a review that raised it. -/
def Raised (log : List Event) : Prop :=
  log ≠ [] → ∃ event ∈ log, event.outcome = .open

end Log

section Faded

variable (event : Event)

@[simp] theorem Event.faded_source : event.faded.source = event.source := by
  unfold faded
  split <;> rfl

@[simp] theorem Event.faded_outcome : event.faded.outcome = event.outcome := by
  unfold faded
  split <;> rfl

@[simp] theorem Event.faded_createdAt : event.faded.createdAt = event.createdAt := by
  unfold faded
  split <;> rfl

@[simp] theorem Event.faded_identity : event.faded.identity = event.identity := by
  unfold faded
  split <;> rfl

theorem Event.faded_of_ne {event : Event} (stays : event.outcome ≠ .expired)
    : event.faded = event :=
  if_neg stays

end Faded

namespace Log

variable {log : List Event} {event : Event}

/-- Selecting events that are no machine labels goes through to the facts. -/
theorem filter_facts {property : Event → Bool}
    (lasting : ∀ event, property event = true → event.source.isMachineLabel = false)
    (fades : ∀ event, property event.faded = property event)
    : (facts log).filter property = (log.filter property).map Event.faded := by
  rw [facts, List.filter_map, List.filter_filter]
  congr 1
  refine List.filter_congr (fun event _ => ?_)
  rw [Function.comp_apply, fades]
  cases holds : property event with
  | false => rfl
  | true => simp [lasting event holds]

/-- Where the selected events are no expiries, the facts have them as they are. -/
theorem filter_facts_same {property : Event → Bool}
    (lasting : ∀ event, property event = true → event.source.isMachineLabel = false)
    (fades : ∀ event, property event.faded = property event)
    (stays : ∀ event, property event = true → event.outcome ≠ .expired)
    : (facts log).filter property = log.filter property := by
  rw [filter_facts lasting fades]
  refine (List.map_congr_left (fun event mem => ?_)).trans (List.map_id _)
  exact Event.faded_of_ne (stays event (List.mem_filter.mp mem).2)

theorem lasting_of_human {source : Source} (human : source.isHuman = true)
    : source.isMachineLabel = false := by
  simp [Source.isMachineLabel, human]

theorem lasting_of_toggle {source : Source} (toggle : source.isToggle = true)
    : source.isMachineLabel = false := by
  simp [Source.isMachineLabel, toggle]

theorem outcome_of_human {event : Event} (human : event.source.isHuman = true)
    : event.outcome ≠ .expired := by
  rintro same
  have outcomes := (Source.pairs_human event.paired).mpr human
  simp [same] at outcomes

/-- Only a review that raises a finding makes it open. -/
theorem source_of_open {event : Event} (isOpen : event.outcome = .open)
    : event.source = .reviewRaised := by
  have paired := event.paired
  rw [isOpen] at paired
  cases source : event.source <;> rw [source] at paired <;> revert paired <;> decide

theorem filter_human_facts
    : (facts log).filter (fun event => event.source.isHuman)
      = log.filter (fun event => event.source.isHuman) :=
  filter_facts_same (fun _ human => lasting_of_human human) (fun event => by simp)
    (fun _ human => outcome_of_human human)

theorem filter_open_facts
    : (facts log).filter (fun event => event.outcome = .open)
      = log.filter (fun event => event.outcome = .open) := by
  refine filter_facts_same (fun event isOpen => ?_) (fun event => by simp) (fun event isOpen => ?_)
  · rw [source_of_open (by simpa using isOpen)]
    rfl
  · simp [show event.outcome = .open by simpa using isOpen]

theorem labelled_facts : labelled (facts log) = labelled log := by
  rw [labelled, labelled, Bool.eq_iff_iff]
  have same
      : (facts log).filter (fun event => event.source.isHuman)
        = log.filter (fun event => event.source.isHuman) :=
    filter_human_facts
  constructor
  · intro human
    obtain ⟨event, mem, human⟩ := List.any_eq_true.mp human
    have inside := same ▸ List.mem_filter.mpr ⟨mem, human⟩
    exact List.any_eq_true.mpr ⟨event, (List.mem_filter.mp inside).1, human⟩
  · intro human
    obtain ⟨event, mem, human⟩ := List.any_eq_true.mp human
    have inside := same.symm ▸ List.mem_filter.mpr ⟨mem, human⟩
    exact List.any_eq_true.mpr ⟨event, (List.mem_filter.mp inside).1, human⟩

theorem Raised.facts_nil (raised : Raised log) : facts log = [] ↔ log = [] := by
  constructor
  · intro none_
    by_contra some_
    obtain ⟨event, mem, isOpen⟩ := raised some_
    have inside
        : event ∈ (facts log).filter (fun event => event.outcome = .open) := by
      rw [filter_open_facts]
      exact List.mem_filter.mpr ⟨mem, by simpa using isOpen⟩
    simp [none_] at inside
  · rintro rfl
    rfl

/-- An event that is no machine label conflicts with the facts or with nothing. -/
theorem any_identity_facts (lasting : event.source.isMachineLabel = false)
    : (facts log).any (fun old => old.identity = event.identity)
      = log.any (fun old => old.identity = event.identity) := by
  rw [facts, List.any_map, List.any_filter, Bool.eq_iff_iff, List.any_eq_true, List.any_eq_true]
  constructor
  · rintro ⟨old, mem, same⟩
    exact ⟨old, mem, by simpa using (Bool.and_eq_true_iff.mp same).2⟩
  · rintro ⟨old, mem, same⟩
    refine ⟨old, mem, ?_⟩
    have same : old.identity = event.identity := by simpa using same
    have source : old.source = event.source := by
      simp only [Event.identity, Prod.mk.injEq] at same
      exact same.2.2.2.1
    simp [source, lasting, same]

theorem facts_append_lasting (lasting : event.source.isMachineLabel = false)
    : facts (append log event)
      = if (facts log).any (fun old => old.identity = event.identity) then facts log
        else facts log ++ [event.faded] := by
  rw [any_identity_facts lasting, append]
  split
  · rfl
  · simp [facts, lasting]

theorem facts_append_machine (machine : event.source.isMachineLabel = true)
    : facts (append log event) = facts log := by
  unfold append
  split
  · rfl
  · simp [facts, machine]

/-- Equal facts stay equal when both logs take the same event up. -/
theorem facts_append_same {other : List Event} {second : Event}
    (same : facts log = facts other) (lasting : event.source.isMachineLabel = false)
    (faded : event.faded = second.faded)
    : facts (append log event) = facts (append other second) := by
  have sources : second.source = event.source := by
    rw [← second.faded_source, ← faded, event.faded_source]
  have identities : second.identity = event.identity := by
    rw [← second.faded_identity, ← faded, event.faded_identity]
  rw [facts_append_lasting lasting, facts_append_lasting (sources ▸ lasting), same, identities,
    faded]

theorem Raised.append (raised : Raised log) (known : log ≠ [] ∨ event.outcome = .open)
    : Raised (append log event) := by
  intro _
  rcases known with some_ | isOpen
  · obtain ⟨first, mem, isOpen⟩ := raised some_
    exact ⟨first, append_keeps mem, isOpen⟩
  · obtain ⟨other, mem, same⟩ := append_has log event
    refine ⟨other, mem, ?_⟩
    simp only [Event.identity, Prod.mk.injEq] at same
    exact same.2.2.1.trans isOpen

end Log

-- What a human call takes from a finding

namespace Log

variable {log : List Event}

/-- No machine label hides that the finding is open: unless it has a human label, its newest event
is no machine label, or the newest of its other events does not open it.
-/
def Unmasked (log : List Event) : Prop :=
  labelled log = false
  → ∀ last, log.getLast? = some last
      → last.source.isMachineLabel = true
      → ∀ known, (log.filter (fun event => !event.source.isMachineLabel)).getLast? = some known
        → known.outcome ≠ .open

/-- Unless the finding has a human label, its newest event has the columns of the newest event
that opened it.
-/
def Unstamped (log : List Event) : Prop :=
  labelled log = false
  → ∀ last raise, log.getLast? = some last
      → (log.filter (fun event => event.outcome = .open)).getLast? = some raise
      → last.toFindingFields = raise.toFindingFields

/-- The columns that `human_dismiss` takes over when no machine label is in the log. -/
def dismissal (facts : List Event) : Option FindingFields :=
  match (facts.filter (fun event => event.source.isHuman)).getLast? with
  | some label => if dismissible label then some label.toFindingFields else none
  | none => (facts.getLast?.filter (fun event => event.outcome = .open)).map Event.toFindingFields

/-- The columns that `confirm_outcome` takes over when no machine label is in the log. -/
def stamp (facts : List Event) : Option FindingFields :=
  match (facts.filter (fun event => event.source.isHuman)).getLast? with
  | some label => some label.toFindingFields
  | none =>
      (facts.filter (fun event => event.outcome = .open)).getLast?.map Event.toFindingFields

theorem unlabelled (none_ : (log.filter (fun event => event.source.isHuman)).getLast? = none)
    : labelled log = false := by
  have none_ := List.filter_eq_nil_iff.mp (List.getLast?_eq_none_iff.mp none_)
  simpa [labelled] using none_

/-- An event without a human source can only be dismissed if it opens the finding. -/
theorem dismissible_open {event : Event} (machine : event.source.isHuman = false)
    : dismissible event = decide (event.outcome = .open) := by
  have outcomes := (Source.pairs_human event.paired).not.mpr (by simp [machine])
  simp only [not_or] at outcomes
  simp [dismissible, outcomes]

theorem machine_not_open {event : Event} (machine : event.source.isMachineLabel = true)
    : event.outcome ≠ .open := by
  intro isOpen
  rw [source_of_open isOpen] at machine
  cases machine

/-- The newest fact of a log whose newest event is no machine label. -/
theorem facts_getLast {last : Event} (newest : log.getLast? = some last)
    (lasting : last.source.isMachineLabel = false)
    : (facts log).getLast? = some last.faded := by
  obtain ⟨before, rfl⟩ := List.getLast?_eq_some_iff.mp newest
  simp [facts, lasting]

theorem dismissal_facts (unmasked : Unmasked log)
    : ((current log).filter dismissible).map Event.toFindingFields = dismissal (facts log) := by
  rw [current, dismissal, filter_human_facts]
  cases human : (log.filter (fun event => event.source.isHuman)).getLast? with
  | some label =>
      rw [Option.some_or]
      cases accepted : dismissible label <;> simp [Option.filter, accepted]
  | none =>
      rw [Option.none_or]
      have unlabelled := unlabelled human
      cases newest : log.getLast? with
      | none =>
          rw [List.getLast?_eq_none_iff.mp newest]
          rfl
      | some last =>
          have machine : last.source.isHuman = false := by
            have none_ : ∀ event ∈ log, event.source.isHuman = false := by
              simpa [labelled] using unlabelled
            exact none_ last (List.mem_of_getLast? newest)
          by_cases label : last.source.isMachineLabel = true
          · -- The guard sees a machine label, and there is no open event under it.
            have masked : dismissible last = false := by
              simpa [dismissible_open machine] using machine_not_open label
            have closed
                : (facts log).getLast?.filter (fun event => event.outcome = .open) = none := by
              rw [facts, List.getLast?_map]
              cases known
                  : (log.filter (fun event => !event.source.isMachineLabel)).getLast? with
              | none => rfl
              | some event =>
                  simpa [Option.filter] using unmasked unlabelled last newest label event known
            rw [closed]
            simp [Option.filter, masked]
          · have lasting : last.source.isMachineLabel = false := by simpa using label
            rw [facts_getLast newest lasting]
            by_cases isOpen : last.outcome = .open
            · have same : last.faded = last := Event.faded_of_ne (by simp [isOpen])
              simp [Option.filter, dismissible_open machine, isOpen, same]
            · simp [Option.filter, dismissible_open machine, isOpen]

theorem stamp_facts (raised : Raised log) (unstamped : Unstamped log)
    : (current log).map Event.toFindingFields = stamp (facts log) := by
  rw [current, stamp, filter_human_facts, filter_open_facts]
  cases human : (log.filter (fun event => event.source.isHuman)).getLast? with
  | some label => rfl
  | none =>
      rw [Option.none_or]
      cases newest : log.getLast? with
      | none =>
          rw [List.getLast?_eq_none_iff.mp newest]
          rfl
      | some last =>
          obtain ⟨event, mem, isOpen⟩ := raised (by rintro rfl; cases newest)
          have some_ : log.filter (fun event => event.outcome = .open) ≠ [] :=
            List.ne_nil_of_mem (List.mem_filter.mpr ⟨mem, by simpa using isOpen⟩)
          have raise_ := List.getLast?_eq_some_getLast some_
          rw [raise_, Option.map_some, Option.map_some,
            unstamped (unlabelled human) last _ newest raise_]

end Log

theorem HumanLabel.addTo_fields {label : HumanLabel} {guard : Event → Bool} {now : Time}
    {finding : Finding} {log : List Event}
    : label.addTo guard now finding log
      = (((Log.current log).filter guard).map Event.toFindingFields).map
          (fun fields => label.event finding fields now) := by
  rw [addTo, Option.map_map]
  rfl

end Outcomes

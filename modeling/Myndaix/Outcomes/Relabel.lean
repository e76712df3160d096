import Myndaix.Outcomes.Truth

/-! The newest human label of a finding. A label is the current one after the call that gives it,
unless the ledger has the label already under a later one of another kind: the index takes the
repeated label for the old row, which stays where it is.
-/

namespace Outcomes

-- Labels that the verbs mint

/-- One of the labels that a person can name. -/
def HumanLabel.Named (label : HumanLabel) : Prop :=
  ∃ kind, HumanLabel.ofKind kind = some label

/-- What the index sees of a label of the finding. -/
def HumanLabel.identity (label : HumanLabel) (finding : Finding)
    : String × Family × Outcome × Source × String :=
  (finding.1, finding.2, label.outcome, label.source,
    s!"human:{firstChars 12 finding.1}:{label.kind}")

/-- Of one finding's labels with one outcome the index knows one only. -/
def Minted (finding : Finding) (log : List Event) : Prop :=
  ∀ event ∈ log,
    ∀ label : HumanLabel,
      label.Named → event.outcome = label.outcome → event.identity = label.identity finding

section Labels

variable {label other : HumanLabel} {finding : Finding} {log : List Event} {event : Event}

theorem HumanLabel.Named.cases (named : label.Named)
    : label = ⟨"real", .humanConfirm, .confirmedReal, rfl, rfl⟩
      ∨ label = ⟨"fp", .humanDismiss, .dismissedFalsePositive, rfl, rfl⟩
      ∨ label = ⟨"wontfix", .humanDismiss, .dismissedWontfix, rfl, rfl⟩ := by
  obtain ⟨kind, isLabel⟩ := named
  unfold HumanLabel.ofKind at isLabel
  split at isLabel
  · exact Or.inl (Option.some.inj isLabel).symm
  · exact Or.inr (Or.inl (Option.some.inj isLabel).symm)
  · exact Or.inr (Or.inr (Option.some.inj isLabel).symm)
  · cases isLabel

theorem HumanLabel.Named.eq_of_outcome (named : label.Named) (otherNamed : other.Named)
    (same : label.outcome = other.outcome)
    : label = other := by
  rcases named.cases with rfl | rfl | rfl <;> rcases otherNamed.cases with rfl | rfl | rfl <;>
    first | rfl | cases same

theorem HumanLabel.ofDismissal_named {kind : String}
    (found : HumanLabel.ofDismissal kind = some label)
    : label.Named := by
  unfold HumanLabel.ofDismissal at found
  split at found
  · cases found
  · exact ⟨kind, found⟩

theorem Minted.append (minted : Minted finding log)
    (fresh
      : ∀ label : HumanLabel,
          label.Named
          → event.outcome = label.outcome
          → event.identity = label.identity finding)
    : Minted finding (Log.append log event) := by
  intro added mem
  rcases Log.mem_append mem with old | rfl
  · exact minted added old
  · exact fresh

/-- What machines write is no label of a person. -/
theorem Minted.appendMachine (minted : Minted finding log) (machine : event.source.isHuman = false)
    : Minted finding (Log.append log event) := by
  refine minted.append fun label named same => ?_
  have paired := event.paired
  rw [same] at paired
  have human := (Source.pairs_human paired).mp
    ((Source.pairs_human label.paired).mpr label.human)
  rw [machine] at human
  cases human

theorem Minted.appendLabel (minted : Minted finding log) (named : label.Named)
    (fields : FindingFields) (now : Time)
    : Minted finding (Log.append log (label.event finding fields now)) := by
  refine minted.append fun other otherNamed same => ?_
  obtain rfl := named.eq_of_outcome otherNamed same
  rfl

theorem Minted.mayTake {source : Source} {later : List Event} (minted : Minted finding log)
    (takes : Log.MayTake source log later) (machine : source.isHuman = false)
    : Minted finding later := by
  rcases takes with rfl | ⟨event, rfl, _, rfl⟩
  · exact minted
  · exact minted.appendMachine machine

/-- The index knows a label of the finding if the log has one with the same outcome. -/
theorem Minted.known_iff (minted : Minted finding log) (named : label.Named)
    (fields : FindingFields) (now : Time)
    : (∃ old ∈ log, old.identity = (label.event finding fields now).identity)
      ↔ ∃ old ∈ log, old.outcome = label.outcome := by
  constructor
  · intro known
    obtain ⟨old, mem, same⟩ := known
    exact ⟨old, mem, congrArg (fun identity => identity.2.2.1) same⟩
  · intro known
    obtain ⟨old, mem, same⟩ := known
    exact ⟨old, mem, minted old mem label named same⟩

end Labels

-- Calls

variable {now : Time}

section Calls

variable {host : Host} {database : Database} {finding : Finding}

theorem dismissCall_named {findingKeyPrefix familyOrAll kind principalRole : String}
    {call : LabelCall}
    (passed : dismissCall host findingKeyPrefix familyOrAll kind principalRole now = .ok call)
    : call.label.Named := by
  unfold dismissCall at passed
  split at passed
  · split at passed
    · cases passed
    · split at passed
      · cases passed
      · rename_i label found
        split at passed <;> cases passed
        exact HumanLabel.ofDismissal_named found
  · cases passed

/-- What has passed the checks of `confirm_outcome`. -/
theorem confirmCall_passed {findingKeyPrefix familyOrAll kind principalRole : String}
    {call : LabelCall}
    (passed : confirmCall host findingKeyPrefix familyOrAll kind principalRole now = .ok call)
    : HumanLabel.ofKind kind = some call.label ∧ families familyOrAll = some call.named
      ∧ call.answer = .written := by
  unfold confirmCall at passed
  split at passed
  · split at passed
    · cases passed
    · rename_i label found
      split at passed
      · cases passed
      · split at passed
        · cases passed
        · rename_i named found_
          cases passed
          exact ⟨found, found_, rfl⟩
  · cases passed

theorem LabelCall.minted {call : LabelCall} (ordered : database.Ordered) (named : call.label.Named)
    (minted : Minted finding (database.log finding))
    : Minted finding ((call.run database).1.log finding) := by
  unfold LabelCall.run
  cases resolve database call.text with
  | error => exact minted
  | ok key =>
      dsimp only
      rw [labelFamilies_log ordered call.named.nodup]
      split
      · cases added : call.label.addTo call.guard call.now finding (database.log finding) with
        | none => exact minted
        | some event =>
            obtain ⟨row, _, rfl⟩ := Option.map_eq_some_iff.mp added
            exact minted.appendLabel named row.toFindingFields call.now
      · exact minted

theorem openLogs_minted {review : Review} (raisedFindings : List OpenFinding) {log : List Event}
    (minted : Minted finding log)
    : Minted finding (raisedFindings.foldl (review.openLog now finding) log) := by
  induction raisedFindings generalizing log with
  | nil => exact minted
  | cons raised raisedFindings ih =>
      refine ih ?_
      unfold Review.openLog
      split
      · exact minted
      · exact minted.appendMachine rfl

theorem Verb.call_minted (ordered : database.Ordered) (verb : Verb)
    (minted : Minted finding (database.log finding))
    : Minted finding ((verb.call host database).1.log finding) := by
  cases verb with
  | recordFindings review now =>
      rw [Verb.call, Outcomes.recordFindings, openFindings_log (closeFindings_ordered ordered)]
      refine openLogs_minted _ ?_
      rw [closeFindings_log]
      split
      · exact minted.appendMachine rfl
      · exact minted
  | humanDismiss findingKeyPrefix familyOrAll kind principalRole now =>
      rw [Verb.call, humanDismiss_run]
      cases passed : dismissCall host findingKeyPrefix familyOrAll kind principalRole now with
      | error => exact minted
      | ok call => exact LabelCall.minted ordered (dismissCall_named passed) minted
  | confirmOutcome findingKeyPrefix familyOrAll kind principalRole now =>
      rw [Verb.call, confirmOutcome_run]
      cases passed : confirmCall host findingKeyPrefix familyOrAll kind principalRole now with
      | error => exact minted
      | ok call => exact LabelCall.minted ordered ⟨kind, (confirmCall_passed passed).1⟩ minted
  | recordExecPrior => exact minted.mayTake (recordExecPrior_log ..) rfl
  | proposeOutcome => exact minted.mayTake (proposeOutcome_log ..) rfl
  | expireOpen ttlDays now =>
      rw [Verb.call, expireOpen_log]
      split
      · exact minted.appendMachine rfl
      · exact minted

/-- By induction on the history. -/
theorem history_minted (verbs : List Verb) (ordered : database.Ordered)
    (minted : Minted finding (database.log finding))
    : Minted finding ((history host database verbs).log finding) := by
  induction verbs generalizing database with
  | nil => exact minted
  | cons verb verbs ih =>
      exact ih (verb.call_ordered ordered) (Verb.call_minted ordered verb minted)

end Calls

-- The newest label

/-- The outcome of the human label that the finding has in `finding_current_human`. -/
def Database.humanOutcome (database : Database) (finding : Finding) : Option Outcome :=
  (database.currentHuman finding).map (fun row => row.outcome)

/-- The finding has a label with this outcome, but one with another outcome came later. -/
def FlipsBack (database : Database) (finding : Finding) (outcome : Outcome) : Prop :=
  (∃ row ∈ database.rows, row.finding = finding ∧ row.outcome = outcome)
  ∧ database.humanOutcome finding ≠ some outcome

section Newest

variable {host : Host} {database : Database} {finding : Finding}

theorem Database.Ordered.humanOutcome_log (ordered : database.Ordered)
    : database.humanOutcome finding
      = ((database.log finding).filter (fun event => event.source.isHuman)).getLast?.map
          Event.outcome := by
  rw [← ordered.currentHuman_log, Option.map_map]
  rfl

theorem Database.has_outcome {outcome : Outcome}
    : (∃ row ∈ database.rows, row.finding = finding ∧ row.outcome = outcome)
      ↔ ∃ event ∈ database.log finding, event.outcome = outcome := by
  constructor
  · intro has
    obtain ⟨row, mem, own, same⟩ := has
    exact ⟨row.toEvent, Database.mem_log.mpr ⟨row, mem, own, rfl⟩, same⟩
  · intro has
    obtain ⟨event, mem, same⟩ := has
    obtain ⟨row, inside, own, rfl⟩ := Database.mem_log.mp mem
    exact ⟨row, inside, own, same⟩

/-- A label that the index does not know becomes the newest one; one that it knows changes nothing.
-/
theorem humanOutcome_append {label : HumanLabel} {log : List Event} {fields : FindingFields}
    (minted : Minted finding log) (named : label.Named)
    : ((Log.append log (label.event finding fields now)).filter
          (fun event => event.source.isHuman)).getLast?.map Event.outcome
      = if ∃ event ∈ log, event.outcome = label.outcome then
          (log.filter (fun event => event.source.isHuman)).getLast?.map Event.outcome
        else some label.outcome := by
  split
  · rename_i known
    rw [Log.append_eq ((minted.known_iff named fields now).mpr known)]
  · rename_i unknown
    have fresh : ¬∃ old ∈ log, old.identity = (label.event finding fields now).identity :=
      fun known => unknown ((minted.known_iff named fields now).mp known)
    have human
        : [label.event finding fields now].filter (fun event => event.source.isHuman)
          = [label.event finding fields now] :=
      List.filter_eq_self.mpr fun event mem => List.mem_singleton.mp mem ▸ label.human
    unfold Log.append
    rw [if_neg (by simpa using fresh), List.filter_append, human, List.getLast?_concat]
    rfl

end Newest

section Confirm

variable {host : Host} {database after : Database} {call : LabelCall} {rows : Nat} {key : String}

/-- A call that reports written rows has labelled the families of the key. -/
theorem LabelCall.run_written (writes : call.answer = .written)
    (ran : call.run database = (after, .written rows key))
    : after = (labelFamilies call.label call.guard key call.now database call.named.all).1 := by
  unfold LabelCall.run at ran
  cases resolved : resolve database call.text with
  | error answer =>
      rw [resolved] at ran
      obtain rfl : answer = .written rows key := congrArg Prod.snd ran
      unfold resolve at resolved
      split at resolved <;> cases resolved
  | ok found =>
      rw [resolved, writes] at ran
      cases ran
      rfl

/-- A call whose arguments fail their checks reports no written rows. -/
theorem confirmCall_refused {findingKeyPrefix familyOrAll kind principalRole : String}
    {answer : Answer}
    (refused : confirmCall host findingKeyPrefix familyOrAll kind principalRole now = .error answer)
    : answer ≠ .written rows key := by
  rintro rfl
  unfold confirmCall at refused
  split at refused
  · split at refused
    · cases refused
    · split at refused
      · cases refused
      · split at refused <;> cases refused
  · cases refused

/-- A family that has raised the finding takes the label, unless that flips it back. -/
theorem LabelCall.relabels (ordered : database.Ordered)
    (minted : ∀ finding, Minted finding (database.log finding)) (named : call.label.Named)
    (open_ : call.guard = fun _ => true) {family : Family} (mem : family ∈ call.named.all)
    (raised : ∃ row ∈ database.rows, row.finding = (key, family))
    (labels
      : after = (labelFamilies call.label call.guard key call.now database call.named.all).1)
    : after.humanOutcome (key, family)
      = if ∃ row ∈ database.rows, row.finding = (key, family)
        ∧ row.outcome = call.label.outcome then
          database.humanOutcome (key, family)
        else some call.label.outcome := by
  obtain ⟨row, inside, own⟩ := raised
  have there : database.log (key, family) ≠ [] :=
    List.ne_nil_of_mem (Database.mem_log.mpr ⟨row, inside, own, rfl⟩)
  obtain ⟨current, isCurrent⟩ : ∃ event, Log.current (database.log (key, family)) = some event := by
    unfold Log.current
    rw [List.getLast?_eq_some_getLast there]
    cases ((database.log (key, family)).filter (fun event => event.source.isHuman)).getLast? with
    | none => exact ⟨_, rfl⟩
    | some label => exact ⟨label, rfl⟩
  have log
      : after.log (key, family)
        = Log.append (database.log (key, family))
            (call.label.event (key, family) current.toFindingFields call.now) := by
    rw [labels, labelFamilies_log ordered call.named.nodup, if_pos ⟨rfl, mem⟩,
      HumanLabel.addTo, isCurrent, open_]
    rfl
  have later : after.Ordered := labels ▸ labelFamilies_ordered ordered call.named.all
  rw [later.humanOutcome_log, log, humanOutcome_append (minted _) named, ordered.humanOutcome_log]
  exact if_congr Database.has_outcome.symm rfl rfl

/-- After a call of `confirm_outcome` that reports success, in any history, every named family that
has raised the finding has the label, but for a flip back to a label that a later one has replaced:
then the later one stays.
-/
theorem confirm_outcome_latest (host : Host) (verbs : List Verb)
    (findingKeyPrefix familyOrAll kind principalRole : String) (now : Time)
    {before after : Database} {rows : Nat} {key : String}
    (past : history host .empty verbs = before)
    (calls
      : (Verb.confirmOutcome findingKeyPrefix familyOrAll kind principalRole now).call host before
        = (after, .written rows key))
    : ∃ label named,
        HumanLabel.ofKind kind = some label ∧ families familyOrAll = some named
        ∧ ∀ family ∈ named.all,
            (∃ row ∈ before.rows, row.finding = (key, family))
            → (¬FlipsBack before (key, family) label.outcome
                → after.humanOutcome (key, family) = some label.outcome)
              ∧ (FlipsBack before (key, family) label.outcome
                → after.humanOutcome (key, family) = before.humanOutcome (key, family)) := by
  have ordered : before.Ordered := past ▸ history_ordered Database.empty_ordered verbs
  have minted (finding : Finding) : Minted finding (before.log finding) :=
    past ▸ history_minted verbs Database.empty_ordered fun _ mem => nomatch mem
  rw [Verb.call, confirmOutcome_run] at calls
  cases passed : confirmCall host findingKeyPrefix familyOrAll kind principalRole now with
  | error answer =>
      rw [passed] at calls
      exact absurd (congrArg Prod.snd calls) (confirmCall_refused passed)
  | ok call =>
      rw [passed] at calls
      obtain ⟨isLabel, isNamed, writes⟩ := confirmCall_passed passed
      refine ⟨call.label, call.named, isLabel, isNamed, fun family mem raised => ?_⟩
      have relabelled :=
        LabelCall.relabels ordered minted ⟨kind, isLabel⟩ (confirmCall_guard passed) mem raised
          (LabelCall.run_written writes calls)
      constructor
      · intro onward
        rw [relabelled]
        split
        · rename_i known
          exact Decidable.byContradiction fun other => onward ⟨known, other⟩
        · rfl
      · intro back
        rw [relabelled, if_pos back.1]

end Confirm

-- Samples

/-- A review in which both families raise the finding. -/
def Review.agreed : Review :=
  { Review.sample with
    openFindings :=
      [⟨"fail-open", "src/a.py", Host.sampleHash, .kilabz⟩,
        ⟨"fail-open", "src/a.py", Host.sampleHash, .oracle⟩] }

/-- A person labels the finding of the named family. -/
def Verb.sampleLabel (family kind : String) (now : Time) : Verb :=
  .confirmOutcome (firstChars 12 Host.sampleKey) family kind "human" now

/-- The rows that a call reports, and the finding. -/
def Answer.rows? : Answer → Option (Nat × String)
  | .written rows key => some (rows, key)
  | _ => none

theorem Answer.eq_written {answer : Answer} {rows : Nat} {key : String}
    (reported : answer.rows? = some (rows, key))
    : answer = .written rows key := by
  cases answer <;> cases reported
  rfl

theorem confirm_outcome_latest_sample
    : ((Verb.sampleLabel "kilabz" "wontfix" 40).call .sample
          (history .sample .empty
            [.recordFindings .agreed 10, .sampleLabel "kilabz" "real" 20,
              .sampleLabel "kilabz" "fp" 30])).1.humanOutcome (Host.sampleKey, .kilabz)
        = some .dismissedWontfix := by
  have written
      : ((Verb.sampleLabel "kilabz" "wontfix" 40).call .sample
          (history .sample .empty
            [.recordFindings .agreed 10, .sampleLabel "kilabz" "real" 20,
              .sampleLabel "kilabz" "fp" 30])).2
        = .written 1 Host.sampleKey :=
    Answer.eq_written (by decide +kernel)
  obtain ⟨label, named, isLabel, isNamed, latest⟩ :=
    confirm_outcome_latest .sample
      [.recordFindings .agreed 10, .sampleLabel "kilabz" "real" 20, .sampleLabel "kilabz" "fp" 30]
      (firstChars 12 Host.sampleKey) "kilabz" "wontfix" "human" 40 rfl
      (Prod.mk.eta.symm.trans (congrArg (Prod.mk _) written))
  cases isLabel
  cases isNamed
  refine (latest .kilabz List.mem_cons_self (by decide +kernel)).1 fun back => ?_
  obtain ⟨row, mem, own, same⟩ := back.1
  revert row
  decide +kernel

/-- The ledger keeps the verdict of one family although both are confirmed: its first label has been
replaced, and the second call with the same label goes for a repetition of the first.
-/
theorem confirm_outcome_not_latest
    : ∃ verbs after,
        (Verb.sampleLabel "all" "real" 40).call .sample (history .sample .empty verbs)
          = (after, .written 1 Host.sampleKey)
        ∧ after.humanOutcome (Host.sampleKey, .kilabz) = some .dismissedFalsePositive := by
  refine ⟨[.recordFindings .agreed 10, .sampleLabel "kilabz" "real" 20,
    .sampleLabel "kilabz" "fp" 30], _, Prod.ext rfl (Answer.eq_written ?_), ?_⟩ <;> decide +kernel

end Outcomes

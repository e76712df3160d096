import Myndaix.Outcomes.Logs

/-! What each verb adds to the log of a finding, said from that log alone.
-/

namespace Outcomes

variable {host : Host} {database : Database} {finding : Finding}

-- Statements that go over a view

section View

variable {view : Finding → Option FindingOutcome}
  (own : ∀ finding row, view finding = some row → row ∈ database.rows ∧ row.finding = finding)

include own

theorem mem_view {row : FindingOutcome}
    : row ∈ database.findings.filterMap view ↔ view row.finding = some row := by
  rw [List.mem_filterMap]
  constructor
  · rintro ⟨finding, _, found⟩
    exact (own finding row found).2 ▸ found
  · intro found
    refine ⟨row.finding, ?_, found⟩
    exact List.mem_dedup.mpr (List.mem_map.mpr ⟨row, (own _ row found).1, rfl⟩)

/-- A view has one row for each finding, by induction on the findings. -/
theorem view_nodup
    : ((database.findings.filterMap view).map (fun row => row.finding)).Nodup := by
  have same (findings : List Finding)
      : (findings.filterMap view).map (fun row => row.finding)
        = findings.filter (fun finding => (view finding).isSome) := by
    induction findings with
    | nil => rfl
    | cons finding findings ih =>
        cases found : view finding with
        | none => simp [found, ih]
        | some row => simp [found, ih, (own finding row found).2]
  rw [same]
  exact (List.nodup_dedup _).filter _

/-- One event is inserted for each row of the view that is kept, in any order. -/
theorem insertView_log {keep : FindingOutcome → Bool} {event : FindingOutcome → Event}
    (eventOwn : ∀ row, (event row).finding = row.finding) {rows : List FindingOutcome}
    (perm : rows.Perm ((database.findings.filterMap view).filter keep))
    : (database.insertAll (rows.map event)).1.log finding
      = match (view finding).filter keep with
        | some row => Log.append (database.log finding) (event row)
        | none => database.log finding := by
  have different : (rows.map (fun row => row.finding)).Nodup := by
    refine (perm.map _).nodup_iff.mpr ?_
    exact ((List.filter_sublist).map _).nodup (view_nodup own)
  have mem (row : FindingOutcome)
      : row ∈ rows ↔ view row.finding = some row ∧ keep row = true := by
    rw [perm.mem_iff, List.mem_filter, mem_view own]
  have events
      : (rows.map event).filter (fun event => event.finding = finding)
        = (rows.filter (fun row => row.finding = finding)).map event := by
    rw [List.filter_map]
    congr 2
    funext row
    simp [eventOwn]
  rw [Database.insertAll_log, events]
  cases kept : (view finding).filter keep with
  | none =>
      have none_ : rows.filter (fun row => row.finding = finding) = [] := by
        refine List.filter_eq_nil_iff.mpr (fun row inside same => ?_)
        obtain ⟨found, keeps⟩ := (mem row).mp inside
        have same : row.finding = finding := by simpa using same
        rw [same] at found
        simp [found, keeps] at kept
      rw [none_]
      rfl
  | some row =>
      obtain ⟨found, keeps⟩ := Option.filter_eq_some_iff.mp kept
      have same : row.finding = finding := (own finding row found).2
      subst same
      rw [filter_finding different ((mem row).mpr ⟨found, keeps⟩)]
      rfl

end View

-- record_findings

section RecordFindings

variable {review : Review} {now : Time}

/-- The close step closes the finding of this row. -/
def Review.closes (review : Review) (database : Database) (row : FindingOutcome) : Bool :=
  (row.repoId = review.repoId && row.outcome = .open && review.changedPaths.contains row.path
    && (database.origin row.finding).any (fun origin => origin.ref = review.ref))
  && review.gone row

theorem closeFindings_log
    : (closeFindings host review now database).1.log finding
      = match (database.current finding).filter (review.closes database) with
        | some row => Log.append (database.log finding) (review.closing now row)
        | none => database.log finding := by
  have own (row : FindingOutcome) : (review.closing now row).finding = row.finding := rfl
  refine insertView_log (fun _ _ => Database.current_finding) own ?_
  refine ((host.scan_perm _).filter _).trans (List.Perm.of_eq ?_)
  rw [List.filter_filter]
  refine List.filter_congr (fun row _ => ?_)
  rw [Review.closes, Bool.and_comm]

/-- What the open step does to the log of one finding. -/
def Review.openLog (review : Review) (now : Time) (finding : Finding) (log : List Event)
    (raised : OpenFinding)
    : List Event :=
  if Log.labelled log then log else Log.append log (review.opening now finding raised)

/-- The outcomes of a human label go with its sources. -/
theorem Source.pairs_human {source : Source} {outcome : Outcome}
    (paired : source.pairs outcome = true)
    : (outcome = .dismissedFalsePositive ∨ outcome = .dismissedWontfix ∨ outcome = .confirmedReal)
      ↔ source.isHuman = true := by
  cases source <;> cases outcome <;> revert paired <;> decide

/-- A finding has a standing label if it has a human row at all. -/
theorem labelled_log (ordered : database.Ordered)
    : database.labelled finding = Log.labelled (database.log finding) := by
  have view
      : database.labelled finding
        = (Log.current (database.log finding)).any (fun event => event.source.isHuman) := by
    rw [← ordered.current_log, Database.labelled]
    cases database.current finding with
    | none => rfl
    | some row =>
        rw [Option.map_some, Option.any_some, Option.any_some, Bool.eq_iff_iff,
          ← Source.pairs_human row.paired]
        simp [or_assoc]
  rw [view, Log.current, Log.labelled, Bool.eq_iff_iff]
  cases last : ((database.log finding).filter (fun event => event.source.isHuman)).getLast? with
  | some event =>
      obtain ⟨inside, human⟩ := List.mem_filter.mp (List.mem_of_getLast? last)
      simp only [Option.some_or, Option.any_some, human, List.any_eq_true, true_iff]
      exact ⟨event, inside, human⟩
  | none =>
      have none_ := List.filter_eq_nil_iff.mp (List.getLast?_eq_none_iff.mp last)
      constructor
      · intro human
        obtain ⟨event, newest, human⟩ := (Option.any_eq_true ..).mp human
        rw [Option.none_or] at newest
        exact absurd human (none_ event (List.mem_of_getLast? newest))
      · intro human
        obtain ⟨event, inside, human⟩ := List.any_eq_true.mp human
        exact absurd human (none_ event inside)

theorem openFinding_log {state : Opened} (ordered : state.database.Ordered)
    (entry : Finding × OpenFinding)
    : (review.openFinding now state entry).database.log finding
      = if entry.1 = finding then
          review.openLog now finding (state.database.log finding) entry.2
        else state.database.log finding := by
  have own : (review.opening now entry.1 entry.2).finding = entry.1 := rfl
  unfold Review.openFinding
  rw [labelled_log ordered]
  by_cases same : entry.1 = finding
  · subst same
    rw [if_pos rfl, Review.openLog]
    split
    · rfl
    · dsimp only
      split <;> simp [Database.insert_log, own]
  · rw [if_neg same]
    split
    · rfl
    · dsimp only
      split <;> simp [Database.insert_log, own, same]

theorem openFinding_ordered {state : Opened} (ordered : state.database.Ordered)
    (entry : Finding × OpenFinding)
    : (review.openFinding now state entry).database.Ordered := by
  unfold Review.openFinding
  split
  · exact ordered
  · dsimp only
    split <;> exact ordered.insert _

theorem openFindings_ordered (ordered : database.Ordered)
    : (openFindings host review now database).database.Ordered := by
  have general (entries : List (Finding × OpenFinding)) (state : Opened)
      (ordered : state.database.Ordered)
      : (entries.foldl (review.openFinding now) state).database.Ordered := by
    induction entries generalizing state with
    | nil => exact ordered
    | cons entry entries ih => exact ih _ (openFinding_ordered ordered entry)
  exact general _ _ ordered

/-- What the open step does to a log, by induction on the entries. -/
theorem openFindings_log (ordered : database.Ordered)
    : (openFindings host review now database).database.log finding
      = (((review.byKey host).filter (fun entry => entry.1 = finding)).map Prod.snd).foldl
          (review.openLog now finding) (database.log finding) := by
  have general (entries : List (Finding × OpenFinding)) (state : Opened)
      (ordered : state.database.Ordered)
      : (entries.foldl (review.openFinding now) state).database.log finding
        = ((entries.filter (fun entry => entry.1 = finding)).map Prod.snd).foldl
            (review.openLog now finding) (state.database.log finding) := by
    induction entries generalizing state with
    | nil => rfl
    | cons entry entries ih =>
        rw [List.foldl_cons, ih _ (openFinding_ordered ordered entry), openFinding_log ordered]
        by_cases same : entry.1 = finding <;> simp [same]
  exact general _ _ ordered

theorem closeFindings_ordered (ordered : database.Ordered)
    : (closeFindings host review now database).1.Ordered :=
  ordered.insertAll _

end RecordFindings

-- Labels

section Labels

variable {label : HumanLabel} {guard : Event → Bool} {key : String} {now : Time}

/-- What a human label adds to the log of a finding whose state the guard accepts. -/
def HumanLabel.addTo (label : HumanLabel) (guard : Event → Bool) (now : Time) (finding : Finding)
    (log : List Event)
    : Option Event :=
  ((Log.current log).filter guard).map (fun row => label.event finding row.toFindingFields now)

/-- The log takes the event up. -/
def Log.extend (log : List Event) : Option Event → List Event
  | none => log
  | some event => Log.append log event

/-- The event is there and the index does not know it yet. -/
def Log.takes (log : List Event) (event : Option Event) : Bool :=
  event.any (fun event => !log.any (fun old => old.identity = event.identity))

theorem labelFamilies_ordered (ordered : database.Ordered) (named : List Family)
    : (labelFamilies label guard key now database named).1.Ordered := by
  induction named generalizing database with
  | nil => exact ordered
  | cons family named ih =>
      rw [labelFamilies]
      cases ((database.current (key, family)).map FindingOutcome.toEvent).filter guard with
      | none => exact ih ordered
      | some row => exact ih (ordered.insert _)

/-- Each named family's finding takes its label up, by induction on the families. -/
theorem labelFamilies_log (ordered : database.Ordered) {named : List Family}
    (different : named.Nodup)
    : (labelFamilies label guard key now database named).1.log finding
      = if finding.1 = key ∧ finding.2 ∈ named then
          Log.extend (database.log finding)
            (label.addTo guard now finding (database.log finding))
        else database.log finding := by
  induction named generalizing database with
  | nil => simp [labelFamilies]
  | cons family named ih =>
      obtain ⟨fresh, different⟩ := List.nodup_cons.mp different
      rw [labelFamilies, ordered.current_log]
      have own (fields : FindingFields)
          : (label.event (key, family) fields now).finding = (key, family) := rfl
      by_cases here : finding = (key, family)
      · subst here
        cases accepted : (Log.current (database.log (key, family))).filter guard with
        | none => simp [ih ordered different, fresh, HumanLabel.addTo, accepted, Log.extend]
        | some row =>
            simp [ih (ordered.insert _) different, Database.insert_log, own, fresh,
              HumanLabel.addTo, accepted, Log.extend]
      · have elsewhere : ¬(finding.1 = key ∧ finding.2 = family) := fun same =>
          here (Prod.ext same.1 same.2)
        have named_
            : (finding.1 = key ∧ finding.2 ∈ family :: named)
              ↔ (finding.1 = key ∧ finding.2 ∈ named) := by
          rw [List.mem_cons]
          constructor
          · rintro ⟨same, own | inside⟩
            · exact absurd ⟨same, own⟩ elsewhere
            · exact ⟨same, inside⟩
          · exact fun inside => ⟨inside.1, Or.inr inside.2⟩
        rw [if_congr named_ rfl rfl]
        cases accepted : (Log.current (database.log (key, family))).filter guard with
        | none => exact ih ordered different
        | some row =>
            simp [ih (ordered.insert _) different, Database.insert_log, own, Ne.symm here]

/-- The rows written are the findings whose logs take their labels up. -/
theorem labelFamilies_count (ordered : database.Ordered) {named : List Family}
    (different : named.Nodup)
    : (labelFamilies label guard key now database named).2
      = named.countP (fun family =>
          Log.takes (database.log (key, family))
            (label.addTo guard now (key, family) (database.log (key, family)))) := by
  induction named generalizing database with
  | nil => rfl
  | cons family named ih =>
      obtain ⟨fresh, different⟩ := List.nodup_cons.mp different
      rw [labelFamilies, ordered.current_log, List.countP_cons]
      cases accepted : (Log.current (database.log (key, family))).filter guard with
      | none => simp [ih ordered different, Log.takes, HumanLabel.addTo, accepted]
      | some row =>
          have own
              : (label.event (key, family) row.toFindingFields now).finding = (key, family) :=
            rfl
          have others
              : named.countP (fun other =>
                  Log.takes
                    ((database.insert
                      (label.event (key, family) row.toFindingFields now)).1.log (key, other))
                    (label.addTo guard now (key, other)
                      ((database.insert
                        (label.event (key, family) row.toFindingFields now)).1.log
                        (key, other))))
                = named.countP (fun other =>
                  Log.takes (database.log (key, other))
                    (label.addTo guard now (key, other) (database.log (key, other)))) := by
            refine List.countP_congr (fun other inside => ?_)
            have apart : family ≠ other := fun same => fresh (same ▸ inside)
            simp [Database.insert_log, own, apart]
          dsimp only
          rw [ih (ordered.insert _) different, others, Database.insert_inserted, own]
          congr 1
          simp only [HumanLabel.addTo, accepted, Option.map_some, Log.takes, Option.any_some]
          cases (database.log (key, family)).any (fun old =>
            old.identity = (label.event (key, family) row.toFindingFields now).identity) <;> rfl

/-- A human call whose arguments have passed their checks. -/
structure LabelCall where
  label : HumanLabel
  guard : Event → Bool
  text : String
  named : Families
  now : Time
  answer : Nat → String → Answer

/-- The findings that the call labels: those of the named families under the key, if the prefix
stands for one.
-/
def LabelCall.key? (call : LabelCall) (database : Database) : Option String :=
  match resolve database call.text with
  | .ok key => some key
  | .error _ => none

/-- What is left and answered by a call that has passed. -/
def LabelCall.run (call : LabelCall) (database : Database) : Database × Answer :=
  match resolve database call.text with
  | .error answer => (database, answer)
  | .ok key =>
      let labelled := labelFamilies call.label call.guard key call.now database call.named.all
      (labelled.1, call.answer labelled.2 key)

/-- The checks of `human_dismiss` on its arguments. -/
def dismissCall (host : Host) (findingKeyPrefix familyOrAll kind principalRole : String)
    (now : Time)
    : Except Answer LabelCall :=
  if humanRoles.contains principalRole then
    match hexPrefix findingKeyPrefix with
    | none => .error (.error "prefix must be >= 12 hex chars" ∅)
    | some text =>
        match HumanLabel.ofDismissal kind with
        | none =>
            .error (.valueError s!"human_dismiss: bad kind {host.repr kind} (expected fp|wontfix)")
        | some label =>
            match families familyOrAll with
            | none => .error (.valueError s!"human_dismiss: bad family {host.repr familyOrAll}")
            | some named => .ok ⟨label, dismissible, text, named, now, .dismissed⟩
  else
    .error (.permissionError s!"human_dismiss is human/admin only, not {host.repr principalRole}")

/-- The checks of `confirm_outcome` on its arguments. -/
def confirmCall (host : Host) (findingKeyPrefix familyOrAll kind principalRole : String)
    (now : Time)
    : Except Answer LabelCall :=
  if humanRoles.contains principalRole then
    match HumanLabel.ofKind kind with
    | none =>
        .error
          (.valueError s!"confirm_outcome: bad kind {host.repr kind} (expected real|fp|wontfix)")
    | some label =>
        match hexPrefix findingKeyPrefix with
        | none => .error (.error "prefix must be >= 12 hex chars" ∅)
        | some text =>
            match families familyOrAll with
            | none => .error (.valueError s!"confirm_outcome: bad family {host.repr familyOrAll}")
            | some named => .ok ⟨label, fun _ => true, text, named, now, .written⟩
  else
    .error (.permissionError s!"confirm_outcome is human/admin only, not {host.repr principalRole}")

/-- A call that fails its checks leaves everything as it is. -/
def runLabelCall (database : Database) : Except Answer LabelCall → Database × Answer
  | .error answer => (database, answer)
  | .ok call => call.run database

theorem humanDismiss_run (findingKeyPrefix familyOrAll kind principalRole : String)
    : humanDismiss host findingKeyPrefix familyOrAll kind principalRole now database
      = runLabelCall database
          (dismissCall host findingKeyPrefix familyOrAll kind principalRole now) := by
  unfold humanDismiss dismissCall
  split
  · cases hexPrefix findingKeyPrefix with
    | none => rfl
    | some text =>
        cases HumanLabel.ofDismissal kind with
        | none => rfl
        | some label =>
            cases families familyOrAll with
            | none => rfl
            | some named =>
                unfold runLabelCall LabelCall.run
                cases resolve database text <;> rfl
  · rfl

theorem confirmOutcome_run (findingKeyPrefix familyOrAll kind principalRole : String)
    : confirmOutcome host findingKeyPrefix familyOrAll kind principalRole now database
      = runLabelCall database
          (confirmCall host findingKeyPrefix familyOrAll kind principalRole now) := by
  unfold confirmOutcome confirmCall
  split
  · cases HumanLabel.ofKind kind with
    | none => rfl
    | some label =>
        cases hexPrefix findingKeyPrefix with
        | none => rfl
        | some text =>
            cases families familyOrAll with
            | none => rfl
            | some named =>
                unfold runLabelCall LabelCall.run
                cases resolve database text <;> rfl
  · rfl

theorem LabelCall.run_ordered (call : LabelCall) (ordered : database.Ordered)
    : (call.run database).1.Ordered := by
  unfold LabelCall.run
  cases resolve database call.text with
  | error => exact ordered
  | ok key => exact labelFamilies_ordered ordered call.named.all

end Labels

-- Machine labels and the sweep

section Machine

variable {now : Time}

/-- A log that stays, or takes an event of this source up on top of others. -/
def Log.MayTake (source : Source) (log later : List Event) : Prop :=
  later = log ∨ ∃ event, event.source = source ∧ log ≠ [] ∧ later = Log.append log event

theorem findingFields_log {key reviewerFamily : String} {fields : FindingFields}
    (found : findingFields database key reviewerFamily = some (finding, fields))
    : database.log finding ≠ [] := by
  obtain ⟨family, _, found⟩ := Option.bind_eq_some_iff.mp found
  obtain ⟨row, current, same⟩ := Option.map_eq_some_iff.mp found
  cases same
  obtain ⟨inside, own⟩ := Database.current_finding current
  exact List.ne_nil_of_mem (Database.mem_log.mpr ⟨row, inside, own, rfl⟩)

/-- Inserting an event of a finding that has a log already. -/
theorem insert_mayTake {event : Event} (there : database.log event.finding ≠ [])
    : Log.MayTake event.source (database.log finding) ((database.insert event).1.log finding) := by
  rw [Database.insert_log]
  split
  · rename_i own
    subst own
    exact Or.inr ⟨event, rfl, there, rfl⟩
  · exact Or.inl rfl

theorem recordExecPrior_log (key reviewerFamily principalRole tipSha : String)
    : Log.MayTake .execVerified (database.log finding)
        ((recordExecPrior host key reviewerFamily principalRole tipSha now database).1.log
          finding) := by
  unfold recordExecPrior
  split
  · split
    · cases found : findingFields database key reviewerFamily with
      | none => exact Or.inl rfl
      | some known =>
          obtain ⟨other, fields⟩ := known
          exact insert_mayTake (findingFields_log found)
    · exact Or.inl rfl
  · exact Or.inl rfl

theorem proposeOutcome_log (key reviewerFamily verdict principalRole play : String)
    : Log.MayTake .panelProposed (database.log finding)
        ((proposeOutcome host key reviewerFamily verdict principalRole play now database).1.log
          finding) := by
  unfold proposeOutcome
  split
  · cases Proposal.ofVerdict verdict with
    | none => exact Or.inl rfl
    | some proposal =>
        cases found : findingFields database key reviewerFamily with
        | none => exact Or.inl rfl
        | some known =>
            obtain ⟨other, fields⟩ := known
            exact insert_mayTake (findingFields_log found)
  · exact Or.inl rfl

theorem expireOpen_log {ttlDays : Int}
    : (expireOpen host ttlDays now database).1.log finding
      = match (database.labelqueue finding).filter (fun row =>
          (database.raisedAt row.finding).any (fun raisedAt =>
            raisedAt < host.daysBefore now ttlDays)) with
        | some row => Log.append (database.log finding) (expiry host row now)
        | none => database.log finding := by
  have own (row : FindingOutcome) : (expiry host row now).finding = row.finding := rfl
  exact insertView_log (fun _ _ => Database.labelqueue_finding) own (host.scan_perm _)

end Machine

-- Histories

theorem Verb.call_ordered (ordered : database.Ordered) (verb : Verb)
    : (verb.call host database).1.Ordered := by
  cases verb with
  | recordFindings review now =>
      exact openFindings_ordered (closeFindings_ordered ordered)
  | humanDismiss findingKeyPrefix familyOrAll kind principalRole now =>
      rw [Verb.call, humanDismiss_run]
      cases dismissCall host findingKeyPrefix familyOrAll kind principalRole now with
      | error => exact ordered
      | ok call => exact call.run_ordered ordered
  | confirmOutcome findingKeyPrefix familyOrAll kind principalRole now =>
      rw [Verb.call, confirmOutcome_run]
      cases confirmCall host findingKeyPrefix familyOrAll kind principalRole now with
      | error => exact ordered
      | ok call => exact call.run_ordered ordered
  | recordExecPrior key reviewerFamily principalRole tipSha now =>
      simp only [Verb.call, Outcomes.recordExecPrior]
      split
      · split
        · split
          · exact ordered
          · exact ordered.insert _
        · exact ordered
      · exact ordered
  | proposeOutcome key reviewerFamily verdict principalRole play now =>
      simp only [Verb.call, Outcomes.proposeOutcome]
      split
      · split
        · exact ordered
        · split
          · exact ordered
          · exact ordered.insert _
      · exact ordered
  | expireOpen ttlDays now => exact ordered.insertAll _

theorem history_append (verbs more : List Verb)
    : history host database (verbs ++ more) = history host (history host database verbs) more := by
  induction verbs generalizing database with
  | nil => rfl
  | cons verb verbs ih => exact ih

theorem Database.empty_ordered : Database.empty.Ordered where
  ascending := List.Pairwise.nil
  below _ mem := by cases mem

/-- By induction on the history. -/
theorem history_ordered (ordered : database.Ordered) (verbs : List Verb)
    : (history host database verbs).Ordered := by
  induction verbs generalizing database with
  | nil => exact ordered
  | cons verb verbs ih => exact ih (verb.call_ordered ordered)

end Outcomes

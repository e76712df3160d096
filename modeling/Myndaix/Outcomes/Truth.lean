import Myndaix.Outcomes.Facts

/-! Machine labels and human truth: two histories that differ only in calls that give machine
labels agree on what reviews, sweeps and people have said of every finding.
-/

namespace Outcomes

-- Two databases

variable {finding : Finding} {now : Time} {log : List Event} {verb : Verb} {verbs : List Verb}

/-- A label is taken up by findings that have a log. -/
theorem extend_raised {label : HumanLabel} {guard : Event → Bool} {named : Prop} [Decidable named]
    (raised : Log.Raised log)
    : Log.Raised
        (if named then Log.extend log (label.addTo guard now finding log) else log) := by
  split
  · rw [HumanLabel.addTo_fields]
    cases current : Log.current log with
    | none => exact raised
    | some row =>
        cases accepted : guard row with
        | false => simpa [Option.filter, accepted, Log.extend] using raised
        | true =>
            have some_ : log ≠ [] := by
              rintro rfl
              cases current
            simpa [Option.filter, accepted, Log.extend] using raised.append (Or.inl some_)
  · exact raised

/-- The two tables agree but for machine labels. -/
structure Agree (database other : Database) : Prop where
  ordered : database.Ordered ∧ other.Ordered
  raised : ∀ finding, Log.Raised (database.log finding) ∧ Log.Raised (other.log finding)
  facts : ∀ finding, Log.facts (database.log finding) = Log.facts (other.log finding)

section Agree

variable {host : Host} {database other : Database}

theorem Agree.symm (agree : Agree database other) : Agree other database :=
  ⟨agree.ordered.symm, fun finding => (agree.raised finding).symm,
    fun finding => (agree.facts finding).symm⟩

theorem Agree.log_nil (agree : Agree database other) (finding : Finding)
    : database.log finding = [] ↔ other.log finding = [] := by
  rw [← (agree.raised finding).1.facts_nil, ← (agree.raised finding).2.facts_nil, agree.facts]

theorem Database.mem_keysLike {database : Database} {text key : String}
    : key ∈ database.keysLike text
      ↔ (∃ family, database.log (key, family) ≠ []) ∧ text.toList.isPrefixOf key.toList = true := by
  simp only [keysLike, List.mem_dedup, List.mem_filter, List.mem_map, ← mem_findings, findings]
  refine and_congr_left (fun _ => ?_)
  constructor
  · rintro ⟨row, mem, rfl⟩
    exact ⟨row.family, row, mem, rfl⟩
  · rintro ⟨family, row, mem, own⟩
    exact ⟨row, mem, congrArg Prod.fst own⟩

/-- A prefix stands for the same in both. -/
theorem Agree.resolve (agree : Agree database other) (text : String)
    : resolve database text = resolve other text := by
  have perm : (database.keysLike text).Perm (other.keysLike text) := by
    refine (List.perm_ext_iff_of_nodup (List.nodup_dedup _) (List.nodup_dedup _)).mpr ?_
    intro key
    change key ∈ database.keysLike text ↔ key ∈ other.keysLike text
    rw [Database.mem_keysLike, Database.mem_keysLike]
    exact and_congr_left (fun _ => exists_congr (fun _ => not_congr (agree.log_nil _)))
  unfold Outcomes.resolve
  generalize database.keysLike text = keys at perm
  generalize other.keysLike text = others at perm
  match keys, others, perm with
  | [], others, perm => rw [perm.nil_eq]
  | [key], others, perm => rw [List.perm_singleton.mp perm.symm]
  | key :: next :: rest, [], perm => cases perm.symm.nil_eq
  | key :: next :: rest, [only], perm => cases List.perm_singleton.mp perm
  | key :: next :: rest, first :: second :: others, perm =>
      simp only [List.toFinset_eq_of_perm _ _ perm]

/-- The columns that a guarded human call takes from a finding are the same in both. -/
def Matches (guard : Event → Bool) (database other : Database) (finding : Finding) : Prop :=
  ((Log.current (database.log finding)).filter guard).map Event.toFindingFields
    = ((Log.current (other.log finding)).filter guard).map Event.toFindingFields

theorem HumanLabel.lasting {label : HumanLabel} {fields : FindingFields}
    : (label.event finding fields now).source.isMachineLabel = false :=
  Log.lasting_of_human label.human

theorem Agree.takes (agree : Agree database other) {label : HumanLabel} {guard : Event → Bool}
    (same : Matches guard database other finding)
    : Log.takes (database.log finding) (label.addTo guard now finding (database.log finding))
      = Log.takes (other.log finding) (label.addTo guard now finding (other.log finding)) := by
  rw [HumanLabel.addTo_fields, HumanLabel.addTo_fields, same]
  cases ((Log.current (other.log finding)).filter guard).map Event.toFindingFields with
  | none => rfl
  | some fields =>
      simp only [Option.map_some, Log.takes, Option.any_some]
      rw [← Log.any_identity_facts HumanLabel.lasting, agree.facts,
        Log.any_identity_facts HumanLabel.lasting]

-- Calls

/-- The events that a call adds to a finding's log. -/
def Verb.adds (host : Host) (database : Database) (verb : Verb) (finding : Finding)
    : List Event :=
  ((verb.call host database).1.log finding).drop (database.log finding).length

/-- A call of a person. -/
def Verb.isHuman : Verb → Bool
  | .humanDismiss .. | .confirmOutcome .. => true
  | _ => false

/-- A call that gives machine labels and does nothing else. -/
def Verb.isMachine : Verb → Bool
  | .recordExecPrior .. | .proposeOutcome .. => true
  | .recordFindings review _ => review.openFindings.isEmpty
  | _ => false

/-- What the findings of a call have to meet, for machine labels to make no difference to it. -/
def LabelCall.Undisturbed (call : LabelCall) (condition : List Event → Prop) (database : Database)
    : Prop :=
  ∀ key, call.key? database = some key
    → ∀ family ∈ call.named.all, condition (database.log (key, family))

/-- Machine labels make no difference to what a human call sees of the findings that it names. -/
def Verb.Undisturbed (host : Host) (database : Database) : Verb → Prop
  | .humanDismiss findingKeyPrefix familyOrAll kind principalRole now =>
      ∀ call,
        dismissCall host findingKeyPrefix familyOrAll kind principalRole now = .ok call
        → call.Undisturbed Log.Unmasked database
  | .confirmOutcome findingKeyPrefix familyOrAll kind principalRole now =>
      ∀ call,
        confirmCall host findingKeyPrefix familyOrAll kind principalRole now = .ok call
        → call.Undisturbed Log.Unstamped database
  | _ => True

theorem Log.extend_drop (log : List Event) (event : Option Event)
    : (extend log event).drop log.length = if takes log event then event.toList else [] := by
  cases event with
  | none => simp [extend, takes]
  | some event =>
      simp only [extend, takes, append, Option.any_some]
      by_cases has : log.any (fun old => old.identity = event.identity) = true
      · simp [has]
      · simp [Bool.not_eq_true _ ▸ has]

/-- Both tables take the same label up, and the call answers the same. -/
structure SameEffect (database other after otherAfter : Database) : Prop where
  agree : Agree after otherAfter
  adds
    : ∀ finding,
        (after.log finding).drop (database.log finding).length
        = (otherAfter.log finding).drop (other.log finding).length

theorem SameEffect.refl (agree : Agree database other)
    : SameEffect database other database other :=
  ⟨agree, fun _ => by simp⟩

theorem LabelCall.same (call : LabelCall) (agree : Agree database other)
    (matches_
      : ∀ key, call.key? database = some key
          → ∀ family ∈ call.named.all, Matches call.guard database other (key, family))
    : SameEffect database other (call.run database).1 (call.run other).1
      ∧ (call.run database).2 = (call.run other).2 := by
  unfold LabelCall.run
  rw [← agree.resolve]
  cases resolved : resolve database call.text with
  | error answer => exact ⟨.refl agree, rfl⟩
  | ok key =>
      have same (family : Family) (inside : family ∈ call.named.all)
          : Matches call.guard database other (key, family) :=
        matches_ key (by simp [LabelCall.key?, resolved]) family inside
      have logs (finding : Finding) {database : Database} (ordered : database.Ordered)
          : (labelFamilies call.label call.guard key call.now database call.named.all).1.log
                finding
              = if finding.1 = key ∧ finding.2 ∈ call.named.all then
                  Log.extend (database.log finding)
                    (call.label.addTo call.guard call.now finding (database.log finding))
                else database.log finding :=
        labelFamilies_log ordered call.named.nodup
      refine ⟨⟨⟨?_, fun finding => ⟨?_, ?_⟩, fun finding => ?_⟩, fun finding => ?_⟩, ?_⟩
      · exact ⟨labelFamilies_ordered agree.ordered.1 _, labelFamilies_ordered agree.ordered.2 _⟩
      · rw [logs finding agree.ordered.1]
        exact extend_raised (agree.raised finding).1
      · rw [logs finding agree.ordered.2]
        exact extend_raised (agree.raised finding).2
      · rw [logs finding agree.ordered.1, logs finding agree.ordered.2]
        split
        · rename_i named
          obtain ⟨rfl, inside⟩ := named
          rw [HumanLabel.addTo_fields, HumanLabel.addTo_fields, same _ inside]
          cases ((Log.current (other.log finding)).filter call.guard).map
            Event.toFindingFields with
          | none => exact agree.facts finding
          | some fields =>
              exact Log.facts_append_same (agree.facts finding) HumanLabel.lasting rfl
        · exact agree.facts finding
      · rw [logs finding agree.ordered.1, logs finding agree.ordered.2]
        split
        · rename_i named
          obtain ⟨rfl, inside⟩ := named
          rw [Log.extend_drop, Log.extend_drop, agree.takes (same _ inside),
            HumanLabel.addTo_fields, HumanLabel.addTo_fields, same _ inside]
        · simp
      · dsimp only
        rw [labelFamilies_count agree.ordered.1 call.named.nodup,
          labelFamilies_count agree.ordered.2 call.named.nodup]
        congr 1
        exact List.countP_congr (fun family inside => by rw [agree.takes (same family inside)])

theorem dismissCall_guard {findingKeyPrefix familyOrAll kind principalRole : String}
    {call : LabelCall}
    (passed : dismissCall host findingKeyPrefix familyOrAll kind principalRole now = .ok call)
    : call.guard = dismissible := by
  unfold dismissCall at passed
  split at passed
  · split at passed
    · cases passed
    · split at passed
      · cases passed
      · split at passed <;> cases passed
        rfl
  · cases passed

theorem confirmCall_guard {findingKeyPrefix familyOrAll kind principalRole : String}
    {call : LabelCall}
    (passed : confirmCall host findingKeyPrefix familyOrAll kind principalRole now = .ok call)
    : call.guard = fun _ => true := by
  unfold confirmCall at passed
  split at passed
  · split at passed
    · cases passed
    · split at passed
      · cases passed
      · split at passed <;> cases passed
        rfl
  · cases passed

/-- A human call has the same effect on both tables if machine labels make no difference to it. -/
theorem Verb.same (agree : Agree database other) (human : verb.isHuman = true)
    (first : verb.Undisturbed host database) (second : verb.Undisturbed host other)
    : SameEffect database other (verb.call host database).1 (verb.call host other).1
      ∧ (verb.call host database).2 = (verb.call host other).2 := by
  have key_ (call : LabelCall) : call.key? database = call.key? other := by
    rw [LabelCall.key?, LabelCall.key?, agree.resolve]
  cases verb with
  | humanDismiss findingKeyPrefix familyOrAll kind principalRole now =>
      simp only [Verb.call]
      rw [humanDismiss_run, humanDismiss_run]
      cases passed : dismissCall host findingKeyPrefix familyOrAll kind principalRole now with
      | error answer => exact ⟨.refl agree, rfl⟩
      | ok call =>
          refine call.same agree (fun key found family inside => ?_)
          rw [Matches, dismissCall_guard passed,
            Log.dismissal_facts (first call passed key found family inside),
            Log.dismissal_facts (second call passed key (key_ call ▸ found) family inside),
            agree.facts]
  | confirmOutcome findingKeyPrefix familyOrAll kind principalRole now =>
      simp only [Verb.call]
      rw [confirmOutcome_run, confirmOutcome_run]
      cases passed : confirmCall host findingKeyPrefix familyOrAll kind principalRole now with
      | error answer => exact ⟨.refl agree, rfl⟩
      | ok call =>
          refine call.same agree (fun key found family inside => ?_)
          obtain ⟨own, others⟩ := agree.raised (key, family)
          have all (log : List Event)
              : (Log.current log).filter (fun _ => true) = Log.current log := by
            cases Log.current log <;> rfl
          rw [Matches, confirmCall_guard passed, all, all,
            Log.stamp_facts own (first call passed key found family inside),
            Log.stamp_facts others (second call passed key (key_ call ▸ found) family inside),
            agree.facts]
  | recordFindings | recordExecPrior | proposeOutcome | expireOpen => cases human

/-- A machine label is no fact. -/
theorem Log.MayTake.facts {source : Source} {log later : List Event}
    (takes : MayTake source log later) (machine : source.isMachineLabel = true)
    : Log.facts later = Log.facts log := by
  rcases takes with rfl | ⟨event, own, _, rfl⟩
  · rfl
  · exact facts_append_machine (own ▸ machine)

theorem Log.MayTake.raised {source : Source} {log later : List Event}
    (takes : MayTake source log later) (raised : Raised log)
    : Raised later := by
  rcases takes with rfl | ⟨event, _, some_, rfl⟩
  · exact raised
  · exact raised.append (Or.inl some_)

/-- What closing findings does to a log, in short. -/
theorem closeFindings_mayTake {review : Review}
    : Log.MayTake .autoFixLanded (database.log finding)
        ((closeFindings host review now database).1.log finding) := by
  rw [closeFindings_log]
  split
  · rename_i row found
    obtain ⟨inside, own⟩ :=
      Database.current_finding (Option.filter_eq_some_iff.mp found).1
    refine Or.inr ⟨_, rfl, ?_, rfl⟩
    exact List.ne_nil_of_mem (Database.mem_log.mpr ⟨row, inside, own, rfl⟩)
  · exact Or.inl rfl

theorem Agree.machine (agree : Agree database other) (machine : verb.isMachine = true)
    : Agree (verb.call host database).1 other := by
  have takes (finding : Finding)
      : ∃ source : Source,
          source.isMachineLabel = true
          ∧ Log.MayTake source (database.log finding)
              ((verb.call host database).1.log finding) := by
    cases verb with
    | recordExecPrior => exact ⟨.execVerified, rfl, recordExecPrior_log ..⟩
    | proposeOutcome => exact ⟨.panelProposed, rfl, proposeOutcome_log ..⟩
    | recordFindings review now =>
        have byKey : review.byKey host = [] := by
          rw [Review.byKey, List.isEmpty_iff.mp machine]
          rfl
        refine ⟨.autoFixLanded, rfl, ?_⟩
        rw [Verb.call, recordFindings, openFindings_log (closeFindings_ordered agree.ordered.1),
          byKey]
        exact closeFindings_mayTake
    | humanDismiss | confirmOutcome | expireOpen => cases machine
  refine ⟨⟨verb.call_ordered agree.ordered.1, agree.ordered.2⟩, fun finding => ?_,
    fun finding => ?_⟩
  · obtain ⟨_, _, takes⟩ := takes finding
    exact ⟨takes.raised (agree.raised finding).1, (agree.raised finding).2⟩
  · obtain ⟨_, machine, takes⟩ := takes finding
    rw [takes.facts machine, agree.facts]

/-- The two reviews raise the same findings; what they close may be different. -/
structure SameRaise (review other : Review) : Prop where
  repoId : review.repoId = other.repoId
  ref : review.ref = other.ref
  tipSha : review.tipSha = other.tipSha
  play : review.play = other.play
  openFindings : review.openFindings = other.openFindings

/-- Opening the same findings keeps facts equal, by induction on the findings. -/
theorem openLogs_facts {review otherReview : Review} (same : SameRaise review otherReview)
    (raisedFindings : List OpenFinding) {log otherLog : List Event}
    (facts : Log.facts log = Log.facts otherLog)
    : Log.facts (raisedFindings.foldl (review.openLog now finding) log)
      = Log.facts (raisedFindings.foldl (otherReview.openLog now finding) otherLog) := by
  induction raisedFindings generalizing log otherLog with
  | nil => exact facts
  | cons raised raisedFindings ih =>
      refine ih ?_
      rw [Review.openLog, Review.openLog, ← Log.labelled_facts, facts, Log.labelled_facts]
      have opening
          : review.opening now finding raised = otherReview.opening now finding raised := by
        simp [Review.opening, same.repoId, same.ref, same.tipSha, same.play]
      split
      · exact facts
      · rw [opening]
        exact Log.facts_append_same facts rfl rfl

theorem openLogs_raised {review : Review} (raisedFindings : List OpenFinding)
    (raised : Log.Raised log)
    : Log.Raised (raisedFindings.foldl (review.openLog now finding) log) := by
  induction raisedFindings generalizing log with
  | nil => exact raised
  | cons first raisedFindings ih =>
      refine ih ?_
      unfold Review.openLog
      split
      · exact raised
      · exact raised.append (Or.inr rfl)

theorem Agree.record (agree : Agree database other) {review otherReview : Review}
    (same : SameRaise review otherReview) (now : Time)
    : Agree (recordFindings host review now database).1
        (recordFindings host otherReview now other).1 := by
  have byKey : review.byKey host = otherReview.byKey host := by
    rw [Review.byKey, Review.byKey, same.repoId, same.openFindings]
  have closed : (closeFindings host review now database).1.Ordered :=
    closeFindings_ordered agree.ordered.1
  have otherClosed : (closeFindings host otherReview now other).1.Ordered :=
    closeFindings_ordered agree.ordered.2
  refine ⟨⟨openFindings_ordered closed, openFindings_ordered otherClosed⟩,
    fun finding => ⟨?_, ?_⟩, fun finding => ?_⟩
  · rw [recordFindings, openFindings_log closed]
    exact openLogs_raised _ (closeFindings_mayTake.raised (agree.raised finding).1)
  · rw [recordFindings, openFindings_log otherClosed]
    exact openLogs_raised _ (closeFindings_mayTake.raised (agree.raised finding).2)
  · rw [recordFindings, recordFindings, openFindings_log closed, openFindings_log otherClosed,
      byKey]
    refine openLogs_facts same _ ?_
    rw [closeFindings_mayTake.facts rfl, closeFindings_mayTake.facts rfl, agree.facts]

/-- When a review last raised the finding of a log. -/
def Log.raisedAt (log : List Event) : Option Time :=
  ((log.filter (fun event => event.source = .reviewRaised)).map Event.createdAt).max?

/-- The sweep expires the finding. -/
def Log.due (host : Host) (ttlDays : Int) (now : Time) (log : List Event) : Bool :=
  queued log && (raisedAt log).any (fun raisedAt => raisedAt < host.daysBefore now ttlDays)

theorem Log.queued_facts (raised : Raised log)
    : queued (Log.facts log) = queued log := by
  have toggles
      : ((Log.facts log).filter (fun event => event.source.isToggle)).getLast?.map Event.outcome
        = (log.filter (fun event => event.source.isToggle)).getLast?.map Event.outcome := by
    rw [filter_facts (fun _ toggle => lasting_of_toggle toggle) (fun event => by simp),
      List.getLast?_map, Option.map_map]
    congr 1
    funext event
    simp
  have empty : (Log.facts log).isEmpty = log.isEmpty := by
    rw [Bool.eq_iff_iff, List.isEmpty_iff, List.isEmpty_iff, raised.facts_nil]
  rw [queued, queued, labelled_facts, toggles, empty]

theorem Log.due_facts (raised : Raised log) (ttlDays : Int) (now : Time)
    : due host ttlDays now (Log.facts log) = due host ttlDays now log := by
  have raises
      : (Log.facts log).filter (fun event => event.source = .reviewRaised)
        = log.filter (fun event => event.source = .reviewRaised) := by
    refine filter_facts_same (fun event own => ?_) (fun event => by simp) (fun event own => ?_)
    · rw [show event.source = .reviewRaised by simpa using own]
      rfl
    · have paired := event.paired
      rw [show event.source = .reviewRaised by simpa using own] at paired
      rintro expired
      rw [expired] at paired
      cases paired
  rw [due, due, queued_facts raised, raisedAt, raisedAt, raises]

/-- The expiry of a finding without the columns that it takes over. -/
def expiryOf (host : Host) (finding : Finding) (now : Time) : Event where
  toFindingFields := ⟨"", "", "", "", "", ""⟩
  findingKey := finding.1
  family := finding.2
  outcome := .expired
  source := .ttlSweep
  sourceEvent := "sweep:" ++ host.utcday now
  createdAt := now
  paired := Source.pairs_ttlSweep

/-- A sweep adds an expiry to the log of each finding that is due. -/
theorem expireOpen_due (host : Host) (ttlDays : Int) (now : Time) (ordered : database.Ordered)
    (finding : Finding)
    : ∃ event : Event,
        event.source = .ttlSweep
        ∧ event.faded = expiryOf host finding now
        ∧ (expireOpen host ttlDays now database).1.log finding
            = if Log.due host ttlDays now (database.log finding) then
                Log.append (database.log finding) event
              else database.log finding := by
  have raisedAt
      : database.raisedAt finding = Log.raisedAt (database.log finding) := by
    rw [Log.raisedAt, Database.raisedAt,
      ← Database.filter_log (fun event => event.source = .reviewRaised), List.map_map]
    rfl
  have queue
      : (database.labelqueue finding).map FindingOutcome.toEvent
        = if Log.queued (database.log finding) then (database.log finding).getLast? else none :=
    ordered.labelqueue_log
  rw [expireOpen_log]
  cases found : database.labelqueue finding with
  | none =>
      rw [found] at queue
      have out : Log.queued (database.log finding) = false := by
        by_contra queued
        rw [Bool.not_eq_false] at queued
        rw [queued, if_pos rfl] at queue
        have none_ := List.getLast?_eq_none_iff.mp queue.symm
        simp [Log.queued, none_] at queued
      refine ⟨expiryOf host finding now, rfl, rfl, ?_⟩
      simp [Log.due, out]
  | some row =>
      obtain ⟨_, own⟩ := Database.labelqueue_finding found
      subst own
      rw [found] at queue
      have queued : Log.queued (database.log row.finding) = true := by
        by_contra out
        rw [if_neg out] at queue
        cases queue
      refine ⟨expiry host row now, rfl, rfl, ?_⟩
      rw [Log.due, queued, Bool.true_and, ← raisedAt]
      cases old : (database.raisedAt row.finding).any
        (fun raisedAt => raisedAt < host.daysBefore now ttlDays) <;> simp [Option.filter, old]

theorem Agree.expire (agree : Agree database other) (ttlDays : Int) (now : Time)
    : Agree (expireOpen host ttlDays now database).1 (expireOpen host ttlDays now other).1 := by
  have due (finding : Finding)
      : Log.due host ttlDays now (database.log finding)
        = Log.due host ttlDays now (other.log finding) := by
    rw [← Log.due_facts (agree.raised finding).1, agree.facts,
      Log.due_facts (agree.raised finding).2]
  have raised {database : Database} (ordered : database.Ordered)
      (raised : ∀ finding, Log.Raised (database.log finding)) (finding : Finding)
      : Log.Raised ((expireOpen host ttlDays now database).1.log finding) := by
    obtain ⟨event, _, _, log⟩ := expireOpen_due host ttlDays now ordered finding
    rw [log]
    split
    · rename_i due
      refine (raised finding).append (Or.inl ?_)
      intro none_
      rw [none_] at due
      cases due
    · exact raised finding
  refine ⟨⟨agree.ordered.1.insertAll _, agree.ordered.2.insertAll _⟩, fun finding => ⟨?_, ?_⟩,
    fun finding => ?_⟩
  · exact raised agree.ordered.1 (fun finding => (agree.raised finding).1) finding
  · exact raised agree.ordered.2 (fun finding => (agree.raised finding).2) finding
  · obtain ⟨event, source, faded, log⟩ :=
      expireOpen_due host ttlDays now agree.ordered.1 finding
    obtain ⟨second, _, secondFaded, secondLog⟩ :=
      expireOpen_due host ttlDays now agree.ordered.2 finding
    rw [log, secondLog, due]
    split
    · refine Log.facts_append_same (agree.facts finding) ?_ (faded.trans secondFaded.symm)
      rw [source]
      rfl
    · exact agree.facts finding

end Agree

-- Two histories

/-- The histories differ only in calls that give machine labels, and in what their reviews close. -/
inductive Differ : List Verb → List Verb → Prop
  | nil : Differ [] []
  | same {first second} (differ : Differ first second) (verb : Verb)
    : Differ (first ++ [verb]) (second ++ [verb])
  | record {first second review other} (differ : Differ first second)
    (same : SameRaise review other) (now : Time)
    : Differ (first ++ [.recordFindings review now]) (second ++ [.recordFindings other now])
  | left {first second verb} (differ : Differ first second) (machine : verb.isMachine = true)
    : Differ (first ++ [verb]) second
  | right {first second verb} (differ : Differ first second) (machine : verb.isMachine = true)
    : Differ first (second ++ [verb])

/-- Machine labels make no difference to any human call of the history. -/
def Undisturbed (host : Host) (verbs : List Verb) : Prop :=
  ∀ before verb after,
    verbs = before ++ verb :: after → verb.Undisturbed host (history host .empty before)

section Differ

variable {host : Host}

theorem Undisturbed.nil : Undisturbed host [] := by
  intro before verb after same
  simp at same

theorem Undisturbed.add (undisturbed : Undisturbed host verbs)
    (last : verb.Undisturbed host (history host .empty verbs))
    : Undisturbed host (verbs ++ [verb]) := by
  intro before other after same
  rcases List.eq_nil_or_concat after with rfl | ⟨rest, final, rfl⟩
  · obtain ⟨rfl, rfl⟩ := List.append_inj' same rfl |>.imp_right List.singleton_inj.mp
    exact last
  · rw [List.concat_eq_append, ← List.cons_append, ← List.append_assoc] at same
    exact undisturbed before other rest (List.append_inj_left' same rfl)

theorem Undisturbed.before (undisturbed : Undisturbed host (verbs ++ [verb]))
    : Undisturbed host verbs := by
  rintro before other after rfl
  exact undisturbed before other (after ++ [verb]) (by simp)

theorem Undisturbed.last (undisturbed : Undisturbed host (verbs ++ [verb]))
    : verb.Undisturbed host (history host .empty verbs) :=
  undisturbed verbs verb [] rfl

theorem history_last (verbs : List Verb) (verb : Verb)
    : history host .empty (verbs ++ [verb])
      = (verb.call host (history host .empty verbs)).1 :=
  history_append verbs [verb]

/-- By induction on how the histories differ. -/
theorem Differ.agree {first second : List Verb} (differ : Differ first second)
    (undisturbed : Undisturbed host first) (others : Undisturbed host second)
    : Agree (history host .empty first) (history host .empty second) := by
  induction differ with
  | nil =>
      exact ⟨⟨Database.empty_ordered, Database.empty_ordered⟩,
        fun _ => ⟨fun some_ => absurd rfl some_, fun some_ => absurd rfl some_⟩, fun _ => rfl⟩
  | same differ verb ih =>
      have agree := ih undisturbed.before others.before
      rw [history_last, history_last]
      cases verb with
      | recordFindings review now => exact agree.record ⟨rfl, rfl, rfl, rfl, rfl⟩ now
      | humanDismiss | confirmOutcome =>
          exact (Verb.same agree rfl undisturbed.last others.last).1.agree
      | recordExecPrior | proposeOutcome => exact (agree.machine rfl).symm.machine rfl |>.symm
      | expireOpen ttlDays now => exact agree.expire ttlDays now
  | record differ same now ih =>
      rw [history_last, history_last]
      exact (ih undisturbed.before others.before).record same now
  | left differ machine ih =>
      rw [history_last]
      exact (ih undisturbed.before others).machine machine
  | right differ machine ih =>
      rw [history_last]
      exact ((ih undisturbed others.before).symm.machine machine).symm

/-- In two histories that differ only in machine labels, if these make no difference to what the
human calls see of the findings that they name, every finding has the same human row, every
further human call of that kind answers the same and adds the same rows, and the same findings
wait for a label.
-/
theorem human_truth_kept {first second : List Verb} (differ : Differ first second)
    (undisturbed : Undisturbed host first) (others : Undisturbed host second)
    : (∀ finding,
        ((history host .empty first).currentHuman finding).map FindingOutcome.toEvent
        = ((history host .empty second).currentHuman finding).map FindingOutcome.toEvent)
      ∧ (∀ verb : Verb,
          verb.isHuman = true
          → verb.Undisturbed host (history host .empty first)
          → verb.Undisturbed host (history host .empty second)
          → (verb.call host (history host .empty first)).2
              = (verb.call host (history host .empty second)).2
            ∧ ∀ finding,
                verb.adds host (history host .empty first) finding
                = verb.adds host (history host .empty second) finding)
      ∧ ∀ finding,
          ((history host .empty first).labelqueue finding).isSome
          = ((history host .empty second).labelqueue finding).isSome := by
  have agree := differ.agree undisturbed others
  refine ⟨fun finding => ?_, fun verb human here there => ?_, fun finding => ?_⟩
  · rw [agree.ordered.1.currentHuman_log, agree.ordered.2.currentHuman_log,
      ← Log.filter_human_facts, agree.facts, Log.filter_human_facts]
  · obtain ⟨effect, answer⟩ := Verb.same agree human here there
    exact ⟨answer, effect.adds⟩
  · have queue {database : Database} (ordered : database.Ordered)
        : (database.labelqueue finding).isSome = Log.queued (database.log finding) := by
      have mapped
          : (database.labelqueue finding).isSome
            = ((database.labelqueue finding).map FindingOutcome.toEvent).isSome := by
        cases database.labelqueue finding <;> rfl
      rw [mapped, ordered.labelqueue_log]
      cases queued : Log.queued (database.log finding) with
      | false => rfl
      | true =>
          cases log : database.log finding with
          | nil => simp [Log.queued, log] at queued
          | cons event rest => simp
    rw [queue agree.ordered.1, queue agree.ordered.2, ← Log.queued_facts (agree.raised finding).1,
      agree.facts, Log.queued_facts (agree.raised finding).2]

end Differ

section Sample

/-- A review that raises one finding. -/
def Review.sample : Review where
  repoId := "repo"
  ref := "refs/heads/main"
  tipSha := "4b825dc642cb6eb9a060e54bf8d69288fbee4904"
  play := "play-1"
  changedPaths := ["src/a.py"]
  openFindings := [⟨"fail-open", "src/a.py", Host.sampleHash, .kilabz⟩]
  present _ := none

/-- The panel's label of the finding. -/
def Verb.samplePanel : Verb :=
  .proposeOutcome Host.sampleKey "kilabz" "real" "labeler" "play-2" 20

/-- The person's verdict on it, by either verb. -/
def Verb.sampleDismiss : Verb :=
  .humanDismiss (firstChars 12 Host.sampleKey) "kilabz" "fp" "human" 30

def Verb.sampleConfirm : Verb :=
  .confirmOutcome (firstChars 12 Host.sampleKey) "kilabz" "fp" "admin" 30

theorem sampleConfirm_differ
    : Differ [.recordFindings .sample 10, .sampleConfirm]
        [.recordFindings .sample 10, .samplePanel, .sampleConfirm] :=
  .same (.right (.same .nil (.recordFindings .sample 10)) rfl) .sampleConfirm

theorem sampleConfirm_undisturbed
    (same
      : ((history .sample .empty verbs).log (Host.sampleKey, .kilabz)).getLast?.map
            Event.toFindingFields
          = (((history .sample .empty verbs).log (Host.sampleKey, .kilabz)).filter
              (fun event => event.outcome = .open)).getLast?.map Event.toFindingFields)
    (resolved
      : (resolve (history .sample .empty verbs) (firstChars 12 Host.sampleKey)).toOption
        = some Host.sampleKey)
    : Verb.sampleConfirm.Undisturbed .sample (history .sample .empty verbs) := by
  intro call passed key found family inside
  have known
      : confirmCall .sample (firstChars 12 Host.sampleKey) "kilabz" "fp" "admin" 30
        = .ok ⟨⟨"fp", .humanDismiss, .dismissedFalsePositive, rfl, rfl⟩, fun _ => true,
            firstChars 12 Host.sampleKey, ⟨[.kilabz], by decide⟩, 30, .written⟩ :=
    rfl
  obtain rfl := Except.ok.inj (known.symm.trans passed)
  have key_ : key = Host.sampleKey := by
    simp only [LabelCall.key?] at found
    cases answer : resolve (history .sample .empty verbs) (firstChars 12 Host.sampleKey) with
    | error => simp [answer] at found
    | ok other =>
        rw [answer] at resolved found
        exact (Option.some.inj found).symm.trans (Option.some.inj resolved)
  obtain rfl := List.mem_singleton.mp inside
  subst key_
  intro _ last raise newest raised
  rw [newest, raised] at same
  exact Option.some.inj same

/-- With and without the panel's label the finding has the person's verdict. -/
theorem human_truth_kept_sample
    : ((history .sample .empty [.recordFindings .sample 10, .sampleConfirm]).currentHuman
          (Host.sampleKey, .kilabz)).map (fun row => row.outcome)
        = some .dismissedFalsePositive
      ∧ ((history .sample .empty [.recordFindings .sample 10, .sampleConfirm]).currentHuman
          (Host.sampleKey, .kilabz)).map FindingOutcome.toEvent
        = ((history .sample .empty
            [.recordFindings .sample 10, .samplePanel, .sampleConfirm]).currentHuman
          (Host.sampleKey, .kilabz)).map FindingOutcome.toEvent := by
  refine ⟨by decide +kernel, ?_⟩
  have quiet (database : Database) (verb : Verb) (nobody : verb.isHuman = false)
      : verb.Undisturbed .sample database := by
    cases verb with
    | humanDismiss | confirmOutcome => cases nobody
    | recordFindings | recordExecPrior | proposeOutcome | expireOpen => trivial
  have raised : Undisturbed .sample [.recordFindings .sample 10] :=
    Undisturbed.nil.add (quiet _ (.recordFindings .sample 10) rfl)
  have proposed : Undisturbed .sample ([.recordFindings .sample 10] ++ [.samplePanel]) :=
    raised.add (quiet _ .samplePanel rfl)
  have first : Undisturbed .sample [.recordFindings .sample 10, .sampleConfirm] :=
    raised.add (sampleConfirm_undisturbed (by decide +kernel) (by decide +kernel))
  have second : Undisturbed .sample [.recordFindings .sample 10, .samplePanel, .sampleConfirm] :=
    proposed.add (sampleConfirm_undisturbed (by decide +kernel) (by decide +kernel))
  exact (human_truth_kept sampleConfirm_differ first second).1 (Host.sampleKey, .kilabz)

/-- With the panel's label on top of it, the open finding cannot be dismissed any more. -/
theorem panel_label_blocks_dismissal
    : Differ [.recordFindings .sample 10, .sampleDismiss]
        [.recordFindings .sample 10, .samplePanel, .sampleDismiss]
      ∧ ((history .sample .empty [.recordFindings .sample 10, .sampleDismiss]).currentHuman
          (Host.sampleKey, .kilabz)).map (fun row => row.outcome)
        = some .dismissedFalsePositive
      ∧ (history .sample .empty
          [.recordFindings .sample 10, .samplePanel, .sampleDismiss]).currentHuman
          (Host.sampleKey, .kilabz)
        = none :=
  ⟨.same (.right (.same .nil (.recordFindings .sample 10)) rfl) .sampleDismiss,
    by decide +kernel, by decide +kernel⟩

/-- With an execution prior in between, the person's verdict is recorded at its tip and not at the
tip that the finding was raised at.
-/
theorem exec_prior_moves_verdict
    : Differ [.recordFindings .sample 10, .sampleConfirm]
        [.recordFindings .sample 10,
          .recordExecPrior Host.sampleKey "kilabz" "exec_oracle"
            "e69de29bb2d1d6434b8b29ae775ad8c2e48c5391" 20,
          .sampleConfirm]
      ∧ ((history .sample .empty [.recordFindings .sample 10, .sampleConfirm]).currentHuman
          (Host.sampleKey, .kilabz)).map (fun row => row.tipSha)
        = some "4b825dc642cb6eb9a060e54bf8d69288fbee4904"
      ∧ ((history .sample .empty
          [.recordFindings .sample 10,
            .recordExecPrior Host.sampleKey "kilabz" "exec_oracle"
              "e69de29bb2d1d6434b8b29ae775ad8c2e48c5391" 20,
            .sampleConfirm]).currentHuman (Host.sampleKey, .kilabz)).map (fun row => row.tipSha)
        = some "e69de29bb2d1d6434b8b29ae775ad8c2e48c5391" :=
  ⟨.same (.right (.same .nil (.recordFindings .sample 10)) rfl) .sampleConfirm,
    by decide +kernel, by decide +kernel⟩

end Sample

end Outcomes

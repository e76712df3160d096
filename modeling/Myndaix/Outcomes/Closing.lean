import Myndaix.Outcomes.Effects
import Myndaix.Outcomes.Lines

/-! The close step of the recorder closes only findings that are open and whose line is gone, and
recording a review twice adds nothing.
-/

namespace Outcomes

open Relational

-- Logs whose closes are sound

section Logs

variable (host : Host) (objects : Objects)

/-- Closing the finding after these events is right: the newest of them opened it, for the same
line of the same file, and the file does not have the line at the tip.
-/
structure ClosesSoundly (before : List Event) (closing : Event) : Prop where
  latest
    : ∃ raised,
        before.getLast? = some raised ∧ raised.outcome = .open ∧ raised.repoId = closing.repoId
        ∧ raised.path = closing.path ∧ raised.lineHash = closing.lineHash
  gone : closing.lineHash ∉ objects.lineHashes host closing.tipSha closing.path

/-- Every close of the log is right, and every finding was raised on a line that its file had. -/
structure SoundLog (log : List Event) : Prop where
  closes
    : ∀ before closing after,
        log = before ++ closing :: after
        → closing.outcome = .appliedFixed
        → ClosesSoundly host objects before closing
  raised
    : ∀ event ∈ log,
        event.outcome = .open
        → event.lineHash ∈ objects.lineHashes host event.tipSha event.path

variable {host objects} {log : List Event} {event : Event}

theorem SoundLog.append (sound : SoundLog host objects log)
    (closes : event.outcome = .appliedFixed → ClosesSoundly host objects log event)
    (raised
      : event.outcome = .open
        → event.lineHash ∈ objects.lineHashes host event.tipSha event.path)
    : SoundLog host objects (Log.append log event) := by
  unfold Log.append
  split
  · exact sound
  · constructor
    · intro before closing after same closed
      rcases List.eq_nil_or_concat after with rfl | ⟨rest, last, rfl⟩
      · obtain ⟨rfl, tail⟩ := List.append_inj' same rfl
        cases tail
        exact closes closed
      · rw [List.concat_eq_append, ← List.cons_append, ← List.append_assoc] at same
        exact sound.closes before closing rest (List.append_inj_left' same rfl) closed
    · intro other mem isOpen
      rcases List.mem_append.mp mem with old | new
      · exact sound.raised other old isOpen
      · rw [List.mem_singleton.mp new] at isOpen ⊢
        exact raised isOpen

/-- The sources that neither open nor close a finding. -/
theorem outcome_of_source (neither : event.source ≠ .reviewRaised ∧ event.source ≠ .autoFixLanded)
    : event.outcome ≠ .open ∧ event.outcome ≠ .appliedFixed := by
  have paired := event.paired
  revert paired neither
  cases event.source <;> cases event.outcome <;> decide

theorem SoundLog.appendOther (sound : SoundLog host objects log)
    (neither : event.source ≠ .reviewRaised ∧ event.source ≠ .autoFixLanded)
    : SoundLog host objects (Log.append log event) := by
  obtain ⟨notOpen, notClosed⟩ := outcome_of_source neither
  exact sound.append (fun closed => absurd closed notClosed) (fun isOpen => absurd isOpen notOpen)

theorem SoundLog.mayTake {source : Source} {later : List Event}
    (sound : SoundLog host objects log) (takes : Log.MayTake source log later)
    (neither : source ≠ .reviewRaised ∧ source ≠ .autoFixLanded)
    : SoundLog host objects later := by
  rcases takes with rfl | ⟨event, own, _, rfl⟩
  · exact sound
  · exact sound.appendOther (own ▸ neither)

end Logs

-- Calls

variable {row : FindingOutcome}

section Calls

variable {host : Host} {objects : Objects} {database : Database} {review : Review} {now : Time}
  {finding : Finding}

/-- An open row of the current view is the newest of its log. -/
theorem current_open (ordered : database.Ordered) (found : database.current finding = some row)
    (isOpen : row.outcome = .open)
    : (database.log finding).getLast? = some row.toEvent := by
  have current
      : (database.current finding).map FindingOutcome.toEvent
        = Log.current (database.log finding) :=
    ordered.current_log
  rw [found, Option.map_some, Log.current] at current
  cases human
      : ((database.log finding).filter (fun event => event.source.isHuman)).getLast? with
  | none =>
      rw [human, Option.none_or] at current
      exact current.symm
  | some label =>
      rw [human, Option.some_or] at current
      cases current
      have own := (List.mem_filter.mp (List.mem_of_getLast? human)).2
      have outcomes := (Source.pairs_human row.paired).mpr own
      simp [isOpen] at outcomes

theorem closeFindings_sound (ordered : database.Ordered) (truthful : review.Truthful host objects)
    (sound : SoundLog host objects (database.log finding))
    : SoundLog host objects ((closeFindings host review now database).1.log finding) := by
  rw [closeFindings_log]
  split
  · rename_i row found
    obtain ⟨found, closes⟩ := Option.filter_eq_some_iff.mp found
    simp only [Review.closes, Bool.and_eq_true, decide_eq_true_eq] at closes
    obtain ⟨⟨⟨⟨repoId, isOpen⟩, _⟩, _⟩, gone⟩ := closes
    refine sound.append (fun _ => ⟨⟨row.toEvent, current_open ordered found isOpen, isOpen, repoId,
      rfl, rfl⟩, ?_⟩) (fun isOpen => by cases isOpen)
    obtain ⟨hashes, present, gone⟩ := (Option.any_eq_true ..).mp gone
    rw [truthful.present row.path hashes present] at gone
    simpa [Review.closing] using gone
  · exact sound

theorem byKeySet_mem {entries : List (Finding × OpenFinding)} {key : Finding} {value : OpenFinding}
    {entry : Finding × OpenFinding} (mem : entry ∈ byKeySet entries key value)
    : entry ∈ entries ∨ entry = (key, value) := by
  unfold byKeySet at mem
  split at mem
  · obtain ⟨old, inside, rfl⟩ := List.mem_map.mp mem
    split
    · exact Or.inr rfl
    · exact Or.inl inside
  · simpa using mem

/-- Only findings that were raised are handed on under their keys. -/
theorem byKey_mem {entry : Finding × OpenFinding} (mem : entry ∈ review.byKey host)
    : entry.2 ∈ review.openFindings := by
  have general (raisedFindings : List OpenFinding) (entries : List (Finding × OpenFinding))
      (known : ∀ entry ∈ entries, entry.2 ∈ review.openFindings)
      (within : ∀ raised ∈ raisedFindings, raised ∈ review.openFindings)
      : ∀ entry ∈ raisedFindings.foldl (fun entries raised =>
            byKeySet entries
              (findingKey host review.repoId raised.tag raised.path raised.lineHash, raised.family)
              raised) entries,
          entry.2 ∈ review.openFindings := by
    induction raisedFindings generalizing entries with
    | nil => exact known
    | cons raised raisedFindings ih =>
        refine ih _ (fun entry mem => ?_)
          (fun other inside => within other (List.mem_cons_of_mem _ inside))
        rcases byKeySet_mem mem with old | rfl
        · exact known entry old
        · exact within raised List.mem_cons_self
  exact general review.openFindings [] (fun _ mem => by cases mem) (fun _ mem => mem)
    entry mem

/-- The findings that the open step raises for one finding's key. -/
def Review.raisedFor (host : Host) (review : Review) (finding : Finding) : List OpenFinding :=
  ((review.byKey host).filter (fun entry => entry.1 = finding)).map Prod.snd

theorem raisedFor_mem {raised : OpenFinding} (mem : raised ∈ review.raisedFor host finding)
    : raised ∈ review.openFindings := by
  obtain ⟨entry, inside, rfl⟩ := List.mem_map.mp mem
  exact byKey_mem (List.mem_filter.mp inside).1

theorem openLogs_sound (truthful : review.Truthful host objects) (raisedFindings : List OpenFinding)
    (within : ∀ raised ∈ raisedFindings, raised ∈ review.openFindings) {log : List Event}
    (sound : SoundLog host objects log)
    : SoundLog host objects (raisedFindings.foldl (review.openLog now finding) log) := by
  induction raisedFindings generalizing log with
  | nil => exact sound
  | cons raised raisedFindings ih =>
      refine ih (fun other inside => within other (List.mem_cons_of_mem _ inside)) ?_
      unfold Review.openLog
      split
      · exact sound
      · exact sound.append (fun closed => by cases closed)
          (fun _ => truthful.raised raised (within raised List.mem_cons_self))

theorem LabelCall.sound {call : LabelCall} (ordered : database.Ordered)
    (sound : SoundLog host objects (database.log finding))
    : SoundLog host objects ((call.run database).1.log finding) := by
  unfold LabelCall.run
  cases resolve database call.text with
  | error => exact sound
  | ok key =>
      dsimp only
      rw [labelFamilies_log ordered call.named.nodup]
      split
      · cases added : call.label.addTo call.guard call.now finding (database.log finding) with
        | none => exact sound
        | some event =>
            obtain ⟨row, _, rfl⟩ := Option.map_eq_some_iff.mp added
            have human := call.label.human
            refine sound.appendOther ⟨?_, ?_⟩ <;> intro own <;>
              rw [show call.label.source = _ from own] at human <;> cases human
      · exact sound

/-- The arguments of a recorded review are what the recorder made of answers of git. -/
def Verb.Wired (host : Host) (objects : Objects) : Verb → Prop
  | .recordFindings review _ =>
      ∃ delivered, (recorder host delivered).Yields objects.Answers review
  | _ => True

theorem Verb.call_sound (ordered : database.Ordered) {verb : Verb} (wired : verb.Wired host objects)
    (sound : SoundLog host objects (database.log finding))
    : SoundLog host objects ((verb.call host database).1.log finding) := by
  cases verb with
  | recordFindings review now =>
      obtain ⟨delivered, read⟩ := wired
      have truthful := recorder_truthful read
      rw [Verb.call, Outcomes.recordFindings, openFindings_log (closeFindings_ordered ordered)]
      exact openLogs_sound truthful _ (fun raised mem => raisedFor_mem mem)
        (closeFindings_sound ordered truthful sound)
  | humanDismiss findingKeyPrefix familyOrAll kind principalRole now =>
      rw [Verb.call, humanDismiss_run]
      cases dismissCall host findingKeyPrefix familyOrAll kind principalRole now with
      | error => exact sound
      | ok call => exact LabelCall.sound ordered sound
  | confirmOutcome findingKeyPrefix familyOrAll kind principalRole now =>
      rw [Verb.call, confirmOutcome_run]
      cases confirmCall host findingKeyPrefix familyOrAll kind principalRole now with
      | error => exact sound
      | ok call => exact LabelCall.sound ordered sound
  | recordExecPrior => exact sound.mayTake (recordExecPrior_log ..) ⟨by decide, by decide⟩
  | proposeOutcome => exact sound.mayTake (proposeOutcome_log ..) ⟨by decide, by decide⟩
  | expireOpen ttlDays now =>
      rw [Verb.call, expireOpen_log]
      split
      · exact sound.appendOther ⟨by simp [expiry], by simp [expiry]⟩
      · exact sound

/-- By induction on the history. -/
theorem history_sound {verbs : List Verb} (wired : ∀ verb ∈ verbs, verb.Wired host objects)
    (ordered : database.Ordered) (sound : SoundLog host objects (database.log finding))
    : SoundLog host objects ((history host database verbs).log finding) := by
  induction verbs generalizing database with
  | nil => exact sound
  | cons verb verbs ih =>
      exact ih (fun other inside => wired other (List.mem_cons_of_mem _ inside))
        (verb.call_ordered ordered)
        (Verb.call_sound ordered (wired verb List.mem_cons_self) sound)

-- Rows

/-- The newest row of a finding among those before this row. -/
def Database.latestBefore (database : Database) (row : FindingOutcome) : Option FindingOutcome :=
  first (newer FindingOutcome.seq)
    (database.rows.filter (fun other => other.finding = row.finding && other.seq < row.seq))

/-- A row splits its finding's rows into those before it and those after it. -/
theorem rows_split (ordered : database.Ordered) (mem : row ∈ database.rows)
    : ∃ before after,
        database.rowsOf row.finding = before ++ row :: after
        ∧ database.latestBefore row = before.getLast? := by
  have inside : row ∈ database.rowsOf row.finding := by simpa [Database.rowsOf] using mem
  obtain ⟨before, after, split⟩ := List.append_of_mem inside
  refine ⟨before, after, split, ?_⟩
  have ascending : Ascending FindingOutcome.seq (before ++ row :: after) := split ▸ ordered.rowsOf
  obtain ⟨first, rest, across⟩ := List.pairwise_append.mp ascending
  obtain ⟨above, _⟩ := List.pairwise_cons.mp rest
  have earlier
      : database.rows.filter (fun other => other.finding = row.finding && other.seq < row.seq)
        = before := by
    have nested
        : database.rows.filter (fun other => other.finding = row.finding && other.seq < row.seq)
          = (database.rowsOf row.finding).filter (fun other => other.seq < row.seq) := by
      rw [Database.rowsOf, List.filter_filter]
      exact List.filter_congr (fun other _ => Bool.and_comm _ _)
    rw [nested, split, List.filter_append, List.filter_cons_of_neg (by simp),
      List.filter_eq_self.mpr (fun other inside => ?_), List.filter_eq_nil_iff.mpr ?_,
      List.append_nil]
    · intro other inside
      simpa using Nat.le_of_lt (above other inside)
    · simpa using across other inside row List.mem_cons_self
  rw [Database.latestBefore, earlier, first_newer first]

/-- In a sound log a row that closes a finding comes right after the row that opened it. -/
theorem close_row (ordered : database.Ordered) (mem : row ∈ database.rows)
    (sound : SoundLog host objects (database.log row.finding))
    (closed : row.outcome = .appliedFixed)
    : ∃ raised ∈ database.rows,
        database.latestBefore row = some raised
        ∧ raised.outcome = .open
        ∧ raised.repoId = row.repoId
        ∧ raised.path = row.path
        ∧ raised.lineHash = row.lineHash
        ∧ row.lineHash ∈ objects.lineHashes host raised.tipSha row.path
        ∧ row.lineHash ∉ objects.lineHashes host row.tipSha row.path := by
  obtain ⟨before, after, split, latest⟩ := rows_split ordered mem
  have log
      : database.log row.finding
        = before.map FindingOutcome.toEvent ++ row.toEvent :: after.map FindingOutcome.toEvent := by
    rw [Database.log, split]
    simp
  obtain ⟨⟨event, newest, isOpen, repoId, path, lineHash⟩, gone⟩ :=
    sound.closes _ _ _ log closed
  rw [List.getLast?_map] at newest
  obtain ⟨raised, last, rfl⟩ := Option.map_eq_some_iff.mp newest
  have inside : raised ∈ database.rowsOf row.finding := by
    rw [split]
    exact List.mem_append_left _ (List.mem_of_getLast? last)
  have there := sound.raised raised.toEvent (List.mem_map_of_mem inside) isOpen
  refine ⟨raised, (List.mem_filter.mp inside).1, latest.trans last, isOpen, repoId, path, lineHash,
    ?_, gone⟩
  rw [← lineHash, ← path]
  exact there

/-- A row that an insert of events has added is one of the events, by induction on them. -/
theorem insertAll_rows {events : List Event} (mem : row ∈ (database.insertAll events).1.rows)
    : row ∈ database.rows ∨ row.toEvent ∈ events := by
  induction events generalizing database with
  | nil => exact Or.inl mem
  | cons event events ih =>
      rcases ih mem with old | new
      · unfold Database.insert at old
        split at old
        · exact Or.inl old
        · rcases List.mem_append.mp old with old | new
          · exact Or.inl old
          · exact Or.inr (List.mem_singleton.mp new ▸ List.mem_cons_self)
      · exact Or.inr (List.mem_cons_of_mem _ new)

/-- A row that the open step has added opens its finding. -/
theorem openFindings_rows (mem : row ∈ (openFindings host review now database).database.rows)
    : row ∈ database.rows ∨ row.outcome = .open := by
  have general (entries : List (Finding × OpenFinding)) (state : Opened)
      (mem : row ∈ (entries.foldl (review.openFinding now) state).database.rows)
      : row ∈ state.database.rows ∨ row.outcome = .open := by
    induction entries generalizing state with
    | nil => exact Or.inl mem
    | cons entry entries ih =>
        rcases ih _ mem with old | new
        · have old
              : row ∈ state.database.rows
                ∨ row ∈ (state.database.insert (review.opening now entry.1 entry.2)).1.rows := by
            unfold Review.openFinding at old
            split at old
            · exact Or.inl old
            · dsimp only at old
              split at old <;> exact Or.inr old
          rcases old with old | new
          · exact Or.inl old
          · unfold Database.insert at new
            split at new
            · exact Or.inl new
            · rcases List.mem_append.mp new with old | own
              · exact Or.inl old
              · exact Or.inr (by rw [List.mem_singleton.mp own]; rfl)
        · exact Or.inr new
  exact general _ _ mem

/-- What a recorded review closes is of its repository, on a path that it changed, and known to be
gone at its tip.
-/
theorem recordFindings_closes (mem : row ∈ (recordFindings host review now database).1.rows)
    (new : row ∉ database.rows) (closed : row.outcome = .appliedFixed)
    : row.repoId = review.repoId
      ∧ row.tipSha = review.tipSha
      ∧ row.path ∈ review.changedPaths
      ∧ ∃ hashes, review.present row.path = some hashes ∧ row.lineHash ∉ hashes := by
  rcases openFindings_rows mem with inside | isOpen
  · rcases insertAll_rows inside with old | event
    · exact absurd old new
    · obtain ⟨found, candidate, same⟩ := List.mem_map.mp event
      obtain ⟨candidate, gone⟩ := List.mem_filter.mp candidate
      have candidate := (List.mem_filter.mp ((host.scan_perm _).mem_iff.mp candidate)).2
      simp only [Bool.and_eq_true, List.contains_iff_mem] at candidate
      obtain ⟨hashes, present, gone⟩ := (Option.any_eq_true ..).mp gone
      have path : row.path = found.path := congrArg (fun event => event.path) same.symm
      have lineHash : row.lineHash = found.lineHash :=
        congrArg (fun event => event.lineHash) same.symm
      refine ⟨congrArg (fun event => event.repoId) same.symm,
        congrArg (fun event => event.tipSha) same.symm, path ▸ candidate.1.2, hashes,
        path ▸ present, ?_⟩
      rw [lineHash]
      simpa using gone
  · rw [isOpen] at closed
    cases closed

-- Recording a review twice

/-- The index knows the event already. -/
def Log.Has (log : List Event) (event : Event) : Prop :=
  ∃ old ∈ log, old.identity = event.identity

theorem insert_known {event : Event} (known : Log.Has (database.log event.finding) event)
    : (database.insert event).1.rows = database.rows ∧ (database.insert event).2 = false := by
  unfold Database.insert
  rw [Database.any_identity, if_pos (by simpa [Log.Has] using known)]
  exact ⟨rfl, rfl⟩

theorem log_of_rows {other : Database} (same : other.rows = database.rows) (finding : Finding)
    : other.log finding = database.log finding := by
  rw [Database.log, Database.log, Database.rowsOf, Database.rowsOf, same]

/-- Events that the index knows add nothing, by induction on them. -/
theorem insertAll_known {events : List Event}
    (known : ∀ event ∈ events, Log.Has (database.log event.finding) event)
    : (database.insertAll events).1.rows = database.rows := by
  induction events generalizing database with
  | nil => rfl
  | cons event events ih =>
      obtain ⟨same, _⟩ := insert_known (known event List.mem_cons_self)
      refine (ih (fun other inside => ?_)).trans same
      rw [log_of_rows same]
      exact known other (List.mem_cons_of_mem _ inside)

/-- Findings that are labelled or known add nothing, by induction on them. -/
theorem openFindings_known (ordered : database.Ordered)
    (known
      : ∀ entry ∈ review.byKey host,
          Log.labelled (database.log entry.1) = true
          ∨ Log.Has (database.log entry.1) (review.opening now entry.1 entry.2))
    : (openFindings host review now database).database.rows = database.rows := by
  have general (entries : List (Finding × OpenFinding)) (state : Opened)
      (ordered : state.database.Ordered)
      (known
        : ∀ entry ∈ entries,
            Log.labelled (state.database.log entry.1) = true
            ∨ Log.Has (state.database.log entry.1) (review.opening now entry.1 entry.2))
      : (entries.foldl (review.openFinding now) state).database.rows = state.database.rows := by
    induction entries generalizing state with
    | nil => rfl
    | cons entry entries ih =>
        have same : (review.openFinding now state entry).database.rows = state.database.rows := by
          unfold Review.openFinding
          rw [labelled_log ordered]
          rcases known entry List.mem_cons_self with label | has
          · rw [if_pos label]
          · split
            · rfl
            · have own : (review.opening now entry.1 entry.2).finding = entry.1 := rfl
              obtain ⟨same, refused⟩ := insert_known (own.symm ▸ has)
              simp [refused, same]
        refine (ih _ (openFinding_ordered ordered entry) (fun other inside => ?_)).trans same
        rw [log_of_rows same]
        exact known other (List.mem_cons_of_mem _ inside)
  exact general _ _ ordered known

theorem openLog_grows {raised : OpenFinding} {log : List Event} {event : Event}
    (mem : event ∈ log)
    : event ∈ review.openLog now finding log raised := by
  unfold Review.openLog
  split
  · exact mem
  · exact Log.append_keeps mem

theorem openLogs_grow (raisedFindings : List OpenFinding) {log : List Event} {event : Event}
    (mem : event ∈ log)
    : event ∈ raisedFindings.foldl (review.openLog now finding) log := by
  induction raisedFindings generalizing log with
  | nil => exact mem
  | cons raised raisedFindings ih => exact ih (openLog_grows mem)

/-- A finding that was to be opened is labelled afterwards, or has its row. -/
theorem openLogs_known (later : Time) {raisedFindings : List OpenFinding} {raised : OpenFinding}
    (mem : raised ∈ raisedFindings) (log : List Event)
    : Log.labelled (raisedFindings.foldl (review.openLog now finding) log) = true
      ∨ Log.Has (raisedFindings.foldl (review.openLog now finding) log)
          (review.opening later finding raised) := by
  induction raisedFindings generalizing log with
  | nil => cases mem
  | cons first raisedFindings ih =>
      rcases List.mem_cons.mp mem with rfl | inside
      · cases label : Log.labelled log with
        | true =>
            obtain ⟨event, inside, human⟩ := List.any_eq_true.mp label
            exact Or.inl (List.any_eq_true.mpr
              ⟨event, openLogs_grow (raised :: raisedFindings) inside, human⟩)
        | false =>
            obtain ⟨old, has, same⟩ :=
              Log.append_has log (review.opening now finding raised)
            have step
                : review.openLog now finding log raised
                  = Log.append log (review.opening now finding raised) := by
              rw [Review.openLog, label]
              rfl
            refine Or.inr ⟨old, ?_, same⟩
            rw [List.foldl_cons, step]
            exact openLogs_grow _ has
      · exact ih inside _

/-- The open step leaves a log as it is, or its newest event opens the finding. -/
theorem openLogs_last (raisedFindings : List OpenFinding) (log : List Event)
    : raisedFindings.foldl (review.openLog now finding) log = log
      ∨ ∃ raised ∈ raisedFindings,
          (raisedFindings.foldl (review.openLog now finding) log).getLast?
          = some (review.opening now finding raised) := by
  induction raisedFindings generalizing log with
  | nil => exact Or.inl rfl
  | cons first raisedFindings ih =>
      rw [List.foldl_cons]
      have step
          : review.openLog now finding log first = log
            ∨ review.openLog now finding log first
              = log ++ [review.opening now finding first] := by
        unfold Review.openLog Log.append
        split
        · exact Or.inl rfl
        · split
          · exact Or.inl rfl
          · exact Or.inr rfl
      rcases ih (review.openLog now finding log first) with same | ⟨raised, inside, newest⟩
      · rcases step with stays | grows
        · exact Or.inl (same.trans stays)
        · refine Or.inr ⟨first, List.mem_cons_self, ?_⟩
          rw [same, grows, List.getLast?_append_of_ne_nil _ (by simp)]
          rfl
      · exact Or.inr ⟨raised, List.mem_cons_of_mem _ inside, newest⟩

/-- Whether a review closes a finding depends on the finding's log only. -/
theorem closes_same {other : Database} (ordered : database.Ordered) (otherOrdered : other.Ordered)
    {row otherRow : FindingOutcome} (event : row.toEvent = otherRow.toEvent)
    (log : database.log row.finding = other.log row.finding)
    : review.closes database row = review.closes other otherRow := by
  have origin {database : Database} (ordered : database.Ordered) (finding : Finding)
      : (database.origin finding).any (fun origin => origin.ref = review.ref)
        = ((database.log finding).filter (fun event => event.outcome = .open)).head?.any
            (fun origin => origin.ref = review.ref) := by
    rw [Database.origin, first_older (ordered.rowsOf.filter _),
      ← Database.filter_log (fun event => event.outcome = .open), List.head?_map, Option.any_map]
  rw [Review.closes, Review.closes, origin ordered, origin otherOrdered, log, Review.gone,
    Review.gone, event]

/-- Recording a review again, at any later time, adds no row. -/
theorem recordFindings_twice (ordered : database.Ordered) (truthful : review.Truthful host objects)
    (later : Time)
    : (recordFindings host review later (recordFindings host review now database).1).1.rows
      = (recordFindings host review now database).1.rows := by
  have closedOrdered : (closeFindings host review now database).1.Ordered :=
    closeFindings_ordered ordered
  have afterOrdered : (recordFindings host review now database).1.Ordered :=
    openFindings_ordered closedOrdered
  have afterLog (finding : Finding)
      : (recordFindings host review now database).1.log finding
        = (review.raisedFor host finding).foldl (review.openLog now finding)
            ((closeFindings host review now database).1.log finding) :=
    openFindings_log closedOrdered
  generalize recorded : (recordFindings host review now database).1 = after at *
  have closed : (closeFindings host review later after).1.rows = after.rows := by
    refine insertAll_known (fun event mem => ?_)
    obtain ⟨row, candidate, rfl⟩ := List.mem_map.mp mem
    obtain ⟨candidate, gone⟩ := List.mem_filter.mp candidate
    obtain ⟨found, candidate⟩ := List.mem_filter.mp ((host.scan_perm _).mem_iff.mp candidate)
    have found := (mem_view (fun _ _ => Database.current_finding)).mp found
    have closes : review.closes after row = true := by
      rw [Review.closes, candidate, gone]
      rfl
    simp only [Bool.and_eq_true, decide_eq_true_eq] at candidate
    have own : (review.closing later row).finding = row.finding := rfl
    rw [own, afterLog]
    cases before : (database.current row.finding).filter (review.closes database) with
    | some old =>
        -- The first call has closed this finding, or found it closed by this review.
        have first
            : (closeFindings host review now database).1.log row.finding
              = Log.append (database.log row.finding) (review.closing now old) := by
          rw [closeFindings_log, before]
        obtain ⟨has, inside, same⟩ :=
          Log.append_has (database.log row.finding) (review.closing now old)
        have finding_ : old.finding = row.finding :=
          (Database.current_finding (Option.filter_eq_some_iff.mp before).1).2
        refine ⟨has, openLogs_grow _ (first ▸ inside), same.trans ?_⟩
        simp only [Event.finding, Prod.mk.injEq] at finding_
        simp [Event.identity, Review.closing, finding_.1, finding_.2]
    | none =>
        have first
            : (closeFindings host review now database).1.log row.finding
              = database.log row.finding := by
          rw [closeFindings_log, before]
        exfalso
        rcases openLogs_last (review.raisedFor host row.finding)
            ((closeFindings host review now database).1.log row.finding)
          with same | ⟨raised, inside, newest⟩
        · -- Nothing has happened to the finding, so the first call would have closed it.
          have log : database.log row.finding = after.log row.finding := by
            rw [afterLog, same, first]
          have current
              : (database.current row.finding).map FindingOutcome.toEvent = some row.toEvent := by
            rw [ordered.current_log, log, ← afterOrdered.current_log, found]
            rfl
          obtain ⟨old, known, event⟩ := Option.map_eq_some_iff.mp current
          have finding_ : old.finding = row.finding := congrArg Event.finding event
          have again : review.closes database old = true := by
            rw [closes_same ordered afterOrdered event (finding_ ▸ log), closes]
          simp [known, Option.filter, again] at before
        · -- The first call has opened the finding, on a line that the file has at the tip.
          have last := current_open afterOrdered found candidate.1.1.2
          rw [afterLog, newest] at last
          have event : review.opening now row.finding raised = row.toEvent := Option.some.inj last
          obtain ⟨hashes, present, absent⟩ := (Option.any_eq_true ..).mp gone
          have there := truthful.raised raised (raisedFor_mem inside)
          have path : raised.path = row.path := congrArg (fun event => event.path) event
          have lineHash : raised.lineHash = row.lineHash :=
            congrArg (fun event => event.lineHash) event
          rw [path, lineHash, ← truthful.present row.path hashes present] at there
          simp [there] at absent
  have again
      : (openFindings host review later (closeFindings host review later after).1).database.rows
        = (closeFindings host review later after).1.rows := by
    refine openFindings_known (closeFindings_ordered afterOrdered) (fun entry mem => ?_)
    rw [log_of_rows closed, afterLog]
    refine openLogs_known later ?_ _
    exact List.mem_map.mpr ⟨entry, List.mem_filter.mpr ⟨mem, by simp⟩, rfl⟩
  exact again.trans closed

/-- In every history whose reviews come from the recorder, every row that closes a finding comes
right after the row that opened it, in the same repository, for a line that the file had at the tip
of that review and has no more at the tip of this one. A recorded review closes nothing on a path
that it did not change or whose lines it could not determine, which is so when no read of the file
succeeds; and recording it again adds no row.
-/
theorem closes_sound (host : Host) (objects : Objects) {verbs : List Verb}
    (wired : ∀ verb ∈ verbs, verb.Wired host objects)
    : (∀ row ∈ (history host .empty verbs).rows,
        row.outcome = .appliedFixed
        → ∃ raised ∈ (history host .empty verbs).rows,
            (history host .empty verbs).latestBefore row = some raised
            ∧ raised.outcome = .open
            ∧ raised.repoId = row.repoId
            ∧ raised.path = row.path
            ∧ raised.lineHash = row.lineHash
            ∧ objects.entry raised.tipSha row.path ≠ objects.entry row.tipSha row.path
            ∧ row.lineHash ∉ objects.lineHashes host row.tipSha row.path)
      ∧ (∀ delivered review now later,
          (recorder host delivered).Yields objects.Answers review
          → (∀ row ∈ (recordFindings host review now (history host .empty verbs)).1.rows,
              row ∉ (history host .empty verbs).rows
              → row.outcome = .appliedFixed
              → row.repoId = review.repoId
                ∧ row.tipSha = review.tipSha
                ∧ row.path ∈ review.changedPaths
                ∧ ∃ hashes, review.present row.path = some hashes ∧ row.lineHash ∉ hashes)
            ∧ (recordFindings host review later
                (recordFindings host review now (history host .empty verbs)).1).1.rows
              = (recordFindings host review now (history host .empty verbs)).1.rows)
      ∧ ∀ tip path hashes,
          (fileLineHashes host tip path).Yields GitRead.Fails hashes → hashes = none := by
  have ordered : (history host .empty verbs).Ordered :=
    history_ordered Database.empty_ordered verbs
  have sound (finding : Finding)
      : SoundLog host objects ((history host .empty verbs).log finding) :=
    history_sound wired Database.empty_ordered
      ⟨fun before closing after same =>
          by simp [Database.log, Database.rowsOf, Database.empty] at same,
        fun event mem => by cases mem⟩
  refine ⟨fun row mem closed => ?_, fun delivered review now later read => ⟨?_, ?_⟩, ?_⟩
  · obtain ⟨raised, inside, latest, isOpen, repoId, path, lineHash, there, gone⟩ :=
      close_row ordered mem (sound row.finding) closed
    refine ⟨raised, inside, latest, isOpen, repoId, path, lineHash, fun same => gone ?_, gone⟩
    rwa [Objects.lineHashes, same] at there
  · exact fun row mem new closed => recordFindings_closes mem new closed
  · exact recordFindings_twice ordered (recorder_truthful read) later
  · exact fun tip path hashes failed => fileLineHashes_failed failed

end Calls

section Sample

/-- The flagged line is in the file at tip 1 and gone at any other. -/
def Objects.sample : Objects where
  entry tip path :=
    if path = "src/a.py" then
      if tip = "tip-1" then .blob "return None\n".toList else .blob "pass\n".toList
    else .absent
  typed tip path type other := by
    split at other
    · split at other <;> cases other
    · cases other

/-- Git answers at once and shows the first line as changed. -/
def Objects.respond (objects : Objects) : (read : GitRead) → read.Answer
  | .catFile tip path =>
      match objects.entry tip path with
      | .blob text => some text
      | .absent | .other _ => none
  | .lsTree .. => none
  | .changedHunks .. => [(1, 1)]

theorem Objects.respond_answers (objects : Objects) (read : GitRead)
    : objects.Answers read (objects.respond read) := by
  cases read with
  | catFile tip path =>
      intro text found
      simp only [respond] at found
      cases entry : objects.entry tip path <;> rw [entry] at found <;> cases found
      rfl
  | lsTree tip path =>
      intro listed found
      cases found
  | changedHunks base tip path => trivial

/-- A review that flags the line, and one that finds nothing. -/
def Delivered.flagging : Delivered :=
  ⟨"repo", "tip-0", "tip-1", "refs/heads/main", "play-1", ["src/a.py"],
    [⟨"fail-open", "src/a.py", 1⟩], []⟩

def Delivered.passing : Delivered :=
  ⟨"repo", "tip-1", "tip-2", "refs/heads/main", "play-2", ["src/a.py"], [], []⟩

/-- Both reviews, recorded. -/
def sampleReviews : List Verb :=
  [Delivered.flagging, Delivered.passing].map (fun delivered =>
    .recordFindings ((recorder .sample delivered).answered Objects.sample.respond) 10)

/-- The first review opens the finding, and the second closes it. -/
theorem closes_sound_sample
    : (history .sample .empty sampleReviews).rows.map (fun row => row.outcome)
        = [.open, .appliedFixed]
      ∧ ∃ row ∈ (history .sample .empty sampleReviews).rows,
          row.outcome = .appliedFixed
          ∧ row.lineHash ∉ Objects.sample.lineHashes .sample row.tipSha row.path := by
  have outcomes
      : (history .sample .empty sampleReviews).rows.map (fun row => row.outcome)
        = [.open, .appliedFixed] := by
    decide
  have wired : ∀ verb ∈ sampleReviews, verb.Wired .sample .sample := by
    intro verb mem
    obtain ⟨delivered, _, rfl⟩ := List.mem_map.mp mem
    exact ⟨delivered, Interaction.Program.yields_answered Objects.sample.respond_answers _⟩
  have mem : Outcome.appliedFixed
      ∈ (history .sample .empty sampleReviews).rows.map (fun row => row.outcome) := by
    rw [outcomes]
    decide
  obtain ⟨row, inside, closed⟩ := List.mem_map.mp mem
  obtain ⟨_, _, _, _, _, _, _, _, gone⟩ := (closes_sound .sample .sample wired).1 row inside closed
  exact ⟨outcomes, row, inside, closed, gone⟩

/-- A hash that a finding is raised with is the hash of a line that the file has at the tip. What
is found of a file at any tip has this hash unless there is no file or none of its lines has the
same text up to whitespace; a read that fails leaves it open, and reads that do not fail decide it.
-/
theorem line_readings_agree (host : Host) (objects : Objects) {tip path : String} {line : Nat}
    {hunks : List (Nat × Nat)} {hash : String}
    (resolved : (resolveAndHash host tip path line hunks).Yields objects.Answers (some hash))
    : (∀ hashes,
        (fileLineHashes host tip path).Yields objects.Answers (some hashes) → hash ∈ hashes)
      ∧ ∃ text content,
          objects.entry tip path = .blob text ∧ (splitLines text)[line - 1]? = some content
          ∧ ∀ later,
              (∀ hashes,
                (fileLineHashes host later path).Yields objects.Answers (some hashes)
                → hash ∉ hashes
                → ∀ text,
                    objects.entry later path = .blob text
                    → ∀ other ∈ splitLines text, normalizeLine other ≠ normalizeLine content)
              ∧ ∀ found,
                  (fileLineHashes host later path).Yields
                    (fun read answer => objects.Answers read answer ∧ read.Succeeds objects answer)
                    found
                  → ∃ hashes, found = some hashes := by
  obtain ⟨text, content, isBlob, isLine, filled, isHash⟩ := resolveAndHash_line resolved
  refine ⟨fun hashes read => ?_, text, content, isBlob, isLine, fun later => ⟨?_, ?_⟩⟩
  · rw [fileLineHashes_sound read]
    exact resolveAndHash_sound resolved
  · intro hashes read absent text laterBlob other mem same
    have known : lineHash host other ∈ objects.lineHashes host later path :=
      Objects.mem_lineHashes laterBlob mem (same ▸ filled)
    rw [fileLineHashes_sound read, isHash] at absent
    rw [lineHash, same] at known
    exact absent known
  · exact fun found read => fileLineHashes_determined read

theorem line_readings_agree_sample
    : Host.sampleHash
      ∈ Objects.sample.lineHashes .sample "tip-1" "src/a.py" := by
  have resolved
      : (resolveAndHash .sample "tip-1" "src/a.py" 1 [(1, 1)]).Yields Objects.sample.Answers
          (some Host.sampleHash) := by
    have answered :=
      Interaction.Program.yields_answered Objects.sample.respond_answers
        (resolveAndHash .sample "tip-1" "src/a.py" 1 [(1, 1)])
    have hashed
        : (resolveAndHash .sample "tip-1" "src/a.py" 1 [(1, 1)]).answered Objects.sample.respond
          = some Host.sampleHash := by
      decide
    rwa [hashed] at answered
  refine (line_readings_agree .sample .sample resolved).1 _ ?_
  exact Interaction.Program.yields_answered Objects.sample.respond_answers
    (fileLineHashes .sample "tip-1" "src/a.py")

end Sample

end Outcomes

import Myndaix.Capture.Verbs
import Myndaix.Transactions.RelyGuarantee

/-! What recorders and proposers promise one another: a transaction changes only classes whose rows
it has locked, and so each commit does to its class what the verb would do alone.
-/

namespace Capture

open Interaction Relational Transactions

variable {config : Config} {database later : Database} {fingerprint : Str}

-- Consistency

/-- The primary keys hold: a class has one row, and one sighting for each commit. -/
structure Consistent (database : Database) : Prop where
  candidates : Unique Candidate.fingerprint database.candidates
  occurrences
    : Unique (fun row : Occurrence => (row.fingerprint, row.commitSha)) database.occurrences

theorem Consistent.empty : Consistent .empty :=
  ⟨List.nodup_nil, List.nodup_nil⟩

theorem Consistent.update (consistent : Consistent database) (updated : Str)
    (assignment : Assignment)
    : Consistent (store.apply (.update updated assignment) database) :=
  ⟨consistent.candidates.update assignment.apply_fingerprint, consistent.occurrences⟩

/-- Updates keep the keys, by induction on them. -/
theorem Consistent.view {changes : List Change} (consistent : Consistent database)
    (updates
      : ∀ change ∈ changes, ∃ fingerprint assignment, change = .update fingerprint assignment)
    : Consistent (store.view database changes) := by
  induction changes generalizing database with
  | nil => exact consistent
  | cons change changes ih =>
      obtain ⟨fingerprint, assignment, rfl⟩ := updates change List.mem_cons_self
      exact ih (consistent.update fingerprint assignment)
        (fun next mem => updates next (List.mem_cons_of_mem _ mem))

theorem Consistent.insertCandidate (consistent : Consistent database) {row : Candidate}
    (absent : database.candidate? row.fingerprint = none)
    : Consistent (store.apply (.insertCandidate row) database) :=
  ⟨consistent.candidates.append absent, consistent.occurrences⟩

theorem Consistent.insertOccurrence (consistent : Consistent database) {row : Occurrence}
    (unseen : database.seen row.fingerprint row.commitSha = false)
    : Consistent (store.apply (.insertOccurrence row) database) := by
  refine ⟨consistent.candidates, consistent.occurrences.append (lookup_none.mpr ?_)⟩
  intro other mem same
  obtain ⟨ofClass, ofCommit⟩ := Prod.mk.inj same
  refine List.any_eq_false.mp unseen other (List.mem_filter.mpr ⟨mem, ?_⟩) ?_
  · exact decide_eq_true ofClass
  · exact decide_eq_true ofCommit

/-- A class's sightings are of different commits. -/
theorem Consistent.commits_nodup (consistent : Consistent database) (fingerprint : Str)
    : ((database.occurrencesOf fingerprint).map Occurrence.commitSha).Nodup := by
  have pairs
      : ((database.occurrencesOf fingerprint).map
          (fun row => (row.fingerprint, row.commitSha))).Nodup :=
    List.Nodup.sublist (List.filter_sublist.map _) consistent.occurrences
  refine List.Nodup.of_map (fun commit => (fingerprint, commit)) ?_
  rw [List.map_map]
  refine (List.map_congr_left fun row mem => ?_) ▸ pairs
  have own : row.fingerprint = fingerprint := by simpa using (List.mem_filter.mp mem).2
  rw [own]
  rfl

-- Commits

namespace Sighting

variable (sighting : Sighting)

/-- The class's row when it has been upserted. -/
def upserted (fingerprint : Str) (database : Database) : Candidate :=
  match database.candidate? fingerprint with
  | none => sighting.candidate fingerprint
  | some row => (Assignment.pathGlob sighting.pathGlob).apply row

/-- The class's row when it has been counted. -/
def settled (row : Candidate) (counts : Counts) : Candidate :=
  if sighting.ready row counts then (Assignment.move .ready).apply row
  else if row.state = .new then (Assignment.move .accumulating).apply row
  else row

end Sighting

/-- What a recorded sighting does: it adds its commit to the class if that is new, and the class
moves by what is then counted.
-/
structure Captured (fingerprint : Str) (sighting : Sighting) (found : Option ReadyClass)
    (database later : Database)
    : Prop where
  others : ∀ other, other ≠ fingerprint → SameClass other database later
  occurrences
    : later.occurrencesOf fingerprint
      = database.occurrencesOf fingerprint
        ++ if database.seen fingerprint sighting.commitSha then []
          else [sighting.occurrence fingerprint]
  candidate
    : later.candidate? fingerprint
      = some (sighting.settled (sighting.upserted fingerprint database) (later.counts fingerprint))
  found
    : found
      = if sighting.ready (sighting.upserted fingerprint database) (later.counts fingerprint) then
          some
            (sighting.report (sighting.upserted fingerprint database) (later.counts fingerprint))
        else none

/-- What a guarded update does. -/
def Moved (fingerprint : Str) (condition : Candidate → Bool) (assignment : Assignment) (won : Bool)
    (database later : Database)
    : Prop :=
  if won then
    (database.candidate? fingerprint).any condition = true
    ∧ later = store.apply (.update fingerprint assignment) database
  else later = database

/-- What an update without a key does: it updates rows that meet the condition and nothing else. -/
def Swept (condition : Candidate → Bool) (assignment : Assignment) (database later : Database)
    : Prop :=
  ∀ fingerprint,
    SameClass fingerprint database later
    ∨ (database.candidate? fingerprint).any condition = true
      ∧ SameClass fingerprint (store.apply (.update fingerprint assignment) database) later

/-- The commits of the verbs. -/
def Commits (config : Config) (database later : Database) : Verb → Reply → Prop
  | .recordCapture sighting, .ready found =>
      if sighting.admissible then
        Captured (config.fingerprint sighting.repoId sighting.ruleTag) sighting found database later
      else found = none ∧ later = database
  | .claimForProposing fingerprint branch draftSha now, .won won =>
      Moved fingerprint (fun row => row.state = .ready) (.claim branch draftSha now) won
        database later
  | .reapStuckProposing timeoutMinutes now, .reaped _ =>
      Swept (stuck timeoutMinutes now) .release database later
  | .markCaptureProposed fingerprint branch draftSha prNumber now, .won won =>
      Moved fingerprint (claimedBy branch draftSha) (.propose prNumber now) won database later
  | .releaseProposing fingerprint branch draftSha, .won won =>
      Moved fingerprint (claimedBy branch draftSha) .release won database later
  | .resolveCapture fingerprint _, .won won =>
      ∃ assignment ∈ [Assignment.move .promoted, .resolve .declined, .resolve .stale],
        Moved fingerprint (fun row => row.state = .proposed) assignment won database later
  | .expireStaleCaptures ttlDays now, .expired _ =>
      Swept (overdue ttlDays now) (.resolve .stale) database later
  | _, _ => False

/-- What others do to the tables under a transaction that holds these locks. -/
structure Rely (held : List Key) (database later : Database) : Prop where
  classes : ∀ fingerprint, Key.candidate fingerprint ∈ held → SameClass fingerprint database later
  consistent : Consistent database → Consistent later
  rows
    : ∀ fingerprint,
        (database.candidate? fingerprint).isSome = true
        → (later.candidate? fingerprint).isSome = true

theorem Rely.refl (held : List Key) (database : Database) : Rely held database database :=
  ⟨fun fingerprint _ => SameClass.refl fingerprint database, id, fun _ => id⟩

theorem Rely.trans {held : List Key} {first second third : Database}
    (earlier : Rely held first second) (latest : Rely held second third)
    : Rely held first third where
  classes fingerprint locked :=
    (earlier.classes fingerprint locked).trans (latest.classes fingerprint locked)
  consistent := latest.consistent ∘ earlier.consistent
  rows fingerprint := latest.rows fingerprint ∘ earlier.rows fingerprint

/-- A place at which a transaction has kept to its locks. -/
structure Orderly (place : Place Database Key Change) : Prop where
  locked : ∀ change ∈ place.changes, Key.candidate change.fingerprint ∈ place.locks
  consistent : Consistent place.committed → Consistent (store.viewAt place)

/-- The transactions of the rung as a discipline. -/
def protocol {Client : Type} (config : Config)
    : Discipline store (code config)
        (@unrestricted Database Key Change CaptureError Verb Client Reply) where
  invariant := Consistent
  rely _ := Rely
  permits _ _ _ _ := True
  post verb _ reply place :=
    Orderly place ∧ Commits config place.committed (store.viewAt place) verb reply
  rely_refl _ := Rely.refl
  rely_trans := Rely.trans
  invariant_commit consistent ends := ends.1.consistent consistent
  rely_commit := by
    intro system next client session reply other watcher _ _ _ ends _ disjoint
    refine ⟨fun fingerprint locked => SameClass.view fun change mem same => ?_,
      ends.1.consistent, fun fingerprint => candidate?_view_isSome⟩
    exact disjoint _ locked (same ▸ ends.1.locked change mem)

-- Rules

/-- A transaction of the rung among the others. -/
def captureSetting
    : Setting (Action Key Change CaptureError) (Action.Answer Database)
        (Place Database Key Change) :=
  store.amid Rely Rely.refl Rely.trans (fun _ _ => True)

section Rules

variable {first rows : Database} {held : List Key} {changes : List Change} {Answer : Type}
  {post : Answer → Place Database Key Change → Prop} {fact : Database → Prop}

theorem look_rule {next : Database → Txn Answer} (stable : Stable Rely held fact)
    (holds : fact rows)
    (continues
      : ∀ rows,
          fact rows
          → (next (store.view rows changes)).Ensures captureSetting post ⟨rows, held, changes⟩)
    : (look >>= next).Ensures captureSetting post ⟨rows, held, changes⟩ :=
  Ensures.look stable holds (fun _ _ => trivial) continues

theorem lock_rule {key : Key} {next : Unit → Txn Answer} (stable : Stable Rely held fact)
    (holds : fact rows)
    (continues
      : ∀ rows,
          fact rows → (next ()).Ensures captureSetting post ⟨rows, key :: held, changes⟩)
    : (lock key >>= next).Ensures captureSetting post ⟨rows, held, changes⟩ :=
  Ensures.lock stable holds (fun _ _ => trivial) continues

theorem write_rule {change : Change} {next : Unit → Txn Answer} (stable : Stable Rely held fact)
    (holds : fact rows)
    (continues
      : ∀ rows,
          fact rows → (next ()).Ensures captureSetting post ⟨rows, held, changes ++ [change]⟩)
    : (write change >>= next).Ensures captureSetting post ⟨rows, held, changes⟩ :=
  Ensures.write stable holds (fun _ _ => trivial) continues

theorem insert_rule {key : Key} {change : Change} {next : Bool → Txn Answer}
    (stable : Stable Rely held fact) (holds : fact rows)
    (added
      : ∀ rows,
          fact rows
          → store.present key (store.view rows changes) = false
          → (next true).Ensures captureSetting post ⟨rows, key :: held, changes ++ [change]⟩)
    (conflict
      : ∀ rows,
          fact rows
          → store.present key (store.view rows changes) = true
          → (next false).Ensures captureSetting post ⟨rows, held, changes⟩)
    : (insert [key] change >>= next).Ensures captureSetting post ⟨rows, held, changes⟩ := by
  refine Ensures.insert stable holds (fun _ _ => trivial) ?_ ?_
  · exact fun rows here absent => added rows here (absent key List.mem_cons_self)
  · intro rows key' here mem present
    obtain rfl := List.mem_singleton.mp mem
    exact conflict rows here present

/-- Under the class's lock its rows stay as they were when it was locked. -/
theorem Stable.sameClass (locked : Key.candidate fingerprint ∈ held)
    : Stable Rely held (SameClass fingerprint first) :=
  fun _ _ moved same => same.trans (moved.classes fingerprint locked)

theorem Stable.any {condition : Candidate → Bool} (locked : Key.candidate fingerprint ∈ held)
    : Stable Rely held (fun rows => (rows.candidate? fingerprint).any condition = true) := by
  intro rows later moved holds
  rwa [(moved.classes fingerprint locked).1]

end Rules

-- Guarded updates

section Updates

variable {condition : Candidate → Bool} {assignment : Assignment}

/-- A transaction without changes is orderly. -/
theorem Orderly.idle (database : Database) (held : List Key) : Orderly ⟨database, held, []⟩ :=
  ⟨by simp, id⟩

/-- A guarded update moves its class's row, or changes nothing. -/
theorem updateWhere_ensures (database : Database)
    : (updateWhere fingerprint condition assignment).Ensures captureSetting
        (fun won place =>
          Orderly place
          ∧ Moved fingerprint condition assignment won place.committed (store.viewAt place))
        ⟨database, [], []⟩ := by
  have missed (rows : Database) (held : List Key)
      : (Program.done false : Txn Bool).Ensures captureSetting
          (fun won place =>
            Orderly place
            ∧ Moved fingerprint condition assignment won place.committed (store.viewAt place))
          ⟨rows, held, []⟩ :=
    Ensures.finish (Stable.const True) trivial (fun rows _ => ⟨Orderly.idle rows held, rfl⟩)
  unfold updateWhere
  refine look_rule (Stable.const True) trivial (fun rows _ => ?_)
  unfold updateFrom
  split
  · refine lock_rule (Stable.const True) trivial (fun rows _ => ?_)
    refine look_rule (Stable.const True) trivial (fun rows _ => ?_)
    have locked : Key.candidate fingerprint ∈ [Key.candidate fingerprint] :=
      List.mem_singleton_self _
    split
    · rename_i meets
      refine write_rule (Stable.any locked) meets (fun rows meets => ?_)
      refine Ensures.finish (Stable.any locked) meets (fun rows meets => ⟨⟨?_, ?_⟩, meets, rfl⟩)
      · intro change mem
        obtain rfl := List.mem_singleton.mp mem
        exact locked
      · exact fun consistent => consistent.update fingerprint assignment
    · exact missed rows _
  · exact missed rows []

end Updates

-- Sweeps

section Sweeps

variable {condition : Candidate → Bool} {assignment : Assignment}

/-- How far a sweep has come: it has only updated rows that met its condition, each once. -/
structure Sweeping (condition : Candidate → Bool) (assignment : Assignment)
    (place : Place Database Key Change)
    : Prop where
  updates
    : ∀ change ∈ place.changes,
        ∃ fingerprint,
          change = .update fingerprint assignment ∧ Key.candidate fingerprint ∈ place.locks
  each
    : ∀ fingerprint,
        (∀ change ∈ place.changes, change.fingerprint ≠ fingerprint)
        ∨ Key.candidate fingerprint ∈ place.locks
          ∧ (place.committed.candidate? fingerprint).any condition = true
          ∧ SameClass fingerprint
              (store.apply (.update fingerprint assignment) place.committed) (store.viewAt place)

/-- Others leave what is locked. -/
theorem Sweeping.moved {place later : Place Database Key Change}
    (sweeping : Sweeping condition assignment place) (locks : later.locks = place.locks)
    (changes : later.changes = place.changes)
    (moved : Rely place.locks place.committed later.committed)
    : Sweeping condition assignment later := by
  refine ⟨by rw [changes, locks]; exact sweeping.updates, fun fingerprint => ?_⟩
  rw [changes, locks]
  refine (sweeping.each fingerprint).imp id fun released => ?_
  obtain ⟨locked, found, same⟩ := released
  have kept := moved.classes fingerprint locked
  refine ⟨locked, by rwa [kept.1], ?_⟩
  have before := kept.symm.congr_apply (.update fingerprint assignment)
  have after := kept.congr_view place.changes
  have view : store.viewAt later = store.view later.committed place.changes := by
    rw [Store.viewAt, changes]
  exact before.trans (same.trans (view ▸ after))

theorem Sweeping.lock {place : Place Database Key Change}
    (sweeping : Sweeping condition assignment place) (key : Key)
    : Sweeping condition assignment { place with locks := key :: place.locks } := by
  refine ⟨fun change mem => ?_, fun fingerprint => ?_⟩
  · obtain ⟨fingerprint, same, locked⟩ := sweeping.updates change mem
    exact ⟨fingerprint, same, List.mem_cons_of_mem _ locked⟩
  · exact (sweeping.each fingerprint).imp id
      (fun released => ⟨List.mem_cons_of_mem _ released.1, released.2⟩)

/-- Updating one row more, when an updated row does not meet the condition again. -/
theorem Sweeping.update {place : Place Database Key Change}
    (sweeping : Sweeping condition assignment place)
    (spent : ∀ row, condition (assignment.apply row) = false)
    (locked : Key.candidate fingerprint ∈ place.locks)
    (found : ((store.viewAt place).candidate? fingerprint).any condition = true)
    : Sweeping condition assignment
        { place with changes := place.changes ++ [.update fingerprint assignment] } := by
  refine ⟨fun change mem => ?_, fun other => ?_⟩
  · rcases List.mem_append.mp mem with mem | mem
    · exact sweeping.updates change mem
    · exact ⟨fingerprint, List.mem_singleton.mp mem, locked⟩
  · have view
        : store.viewAt { place with changes := place.changes ++ [.update fingerprint assignment] }
          = store.apply (.update fingerprint assignment) (store.viewAt place) :=
      store.view_append _ _ _
    by_cases own : fingerprint = other
    · subst own
      rcases sweeping.each fingerprint with untouched | ⟨_, _, released⟩
      · have same : SameClass fingerprint place.committed (store.viewAt place) :=
          SameClass.view untouched
        refine .inr ⟨locked, by rwa [← same.1], ?_⟩
        rw [view]
        exact same.congr_apply _
      · -- A row that was updated before is not found again.
        rw [released.1, candidate?_update, if_pos rfl] at found
        cases row : place.committed.candidate? fingerprint with
        | none => simp [row] at found
        | some row' => simp [row, spent] at found
    · have kept : SameClass other (store.viewAt place) _ :=
        SameClass.apply (show (Change.update fingerprint assignment).fingerprint ≠ other from own)
      refine (sweeping.each other).imp (fun untouched change mem => ?_) (fun released => ?_)
      · rcases List.mem_append.mp mem with mem | mem
        · exact untouched change mem
        · rw [List.mem_singleton.mp mem]
          exact own
      · rw [view]
        exact ⟨released.1, released.2.1, released.2.2.trans kept⟩

theorem Stable.sweeping {held : List Key} {changes : List Change}
    : Stable Rely held (fun rows => Sweeping condition assignment ⟨rows, held, changes⟩) :=
  fun _ _ moved sweeping => sweeping.moved rfl rfl moved

theorem Stable.viewAny {condition : Candidate → Bool} {held : List Key} {changes : List Change}
    (locked : Key.candidate fingerprint ∈ held)
    : Stable Rely held
        (fun rows => ((store.view rows changes).candidate? fingerprint).any condition = true) := by
  intro rows later moved holds
  rwa [((moved.classes fingerprint locked).congr_view changes).1]

/-- One row of the update goes on sweeping. -/
theorem sweepOne_ensures (spent : ∀ row, condition (assignment.apply row) = false)
    {snapshot : Database} {swept : List (Str × Option Nat)} {place : Place Database Key Change}
    (sweeping : Sweeping condition assignment place)
    : (sweepOne snapshot condition assignment swept fingerprint).Ensures captureSetting
        (fun _ => Sweeping condition assignment) place := by
  have finish {swept : List (Str × Option Nat)} {rows : Database} {held : List Key}
      {changes : List Change} (sweeping : Sweeping condition assignment ⟨rows, held, changes⟩)
      : (Program.done swept : Txn (List (Str × Option Nat))).Ensures captureSetting
          (fun _ => Sweeping condition assignment) ⟨rows, held, changes⟩ :=
    Ensures.finish Stable.sweeping sweeping (fun _ sweeping => sweeping)
  obtain ⟨rows, held, changes⟩ := place
  unfold sweepOne
  split
  · refine lock_rule Stable.sweeping sweeping (fun rows sweeping => ?_)
    refine look_rule Stable.sweeping (sweeping.lock (.candidate fingerprint))
      (fun rows sweeping => ?_)
    have locked : Key.candidate fingerprint ∈ Key.candidate fingerprint :: held :=
      List.mem_cons_self
    split
    · rename_i found
      refine write_rule (Stable.sweeping.and (Stable.viewAny locked)) ⟨sweeping, found⟩
        (fun rows here => ?_)
      exact finish (here.1.update spent locked here.2)
    · exact finish sweeping
  · exact finish sweeping

/-- A sweep updates what it should, by the loop rule. -/
theorem sweep_ensures (spent : ∀ row, condition (assignment.apply row) = false)
    (database : Database)
    : (sweep config condition assignment).Ensures captureSetting
        (fun _ place =>
          Orderly place ∧ Swept condition assignment place.committed (store.viewAt place))
        ⟨database, [], []⟩ := by
  unfold sweep
  refine look_rule (Stable.const True) trivial (fun rows _ => ?_)
  have start : Sweeping condition assignment ⟨rows, [], []⟩ := ⟨by simp, by simp⟩
  have loop (items : List Str)
      : (Program.fold (sweepOne rows condition assignment) [] items).Ensures captureSetting
          (fun _ => Sweeping condition assignment) ⟨rows, [], []⟩ := by
    refine Program.Ensures.fold (fun _ _ => Sweeping condition assignment) ?_ ?_ start
    · intro _ _ state later sweeping moved
      exact sweeping.moved moved.1 moved.2.1 moved.2.2
    · intro _ _ _ _ sweeping
      exact sweepOne_ensures spent sweeping
  refine Program.Ensures.weaken (loop _)
    (fun _ place sweeping => ⟨⟨?_, fun consistent => ?_⟩, fun fingerprint => ?_⟩)
  · intro change mem
    obtain ⟨fingerprint, rfl, locked⟩ := sweeping.updates change mem
    exact locked
  · exact consistent.view fun change mem =>
      let ⟨fingerprint, same, _⟩ := sweeping.updates change mem
      ⟨fingerprint, _, same⟩
  · exact (sweeping.each fingerprint).imp SameClass.view And.right

end Sweeps

-- The recorder

section Recorder

variable {sighting : Sighting} {first rows : Database} {held : List Key} {changes : List Change}
  {row : Candidate} {sightings : List Occurrence} {Answer : Type}
  {post : Answer → Place Database Key Change → Prop}

/-- What a recorder has made of its class since it locked it: this row and these sightings. -/
structure Recording (fingerprint : Str) (first : Database) (row : Candidate)
    (sightings : List Occurrence) (changes : List Change)
    : Prop where
  own : ∀ change ∈ changes, change.fingerprint = fingerprint
  row : (store.view first changes).candidate? fingerprint = some row
  sightings : (store.view first changes).occurrencesOf fingerprint = sightings
  consistent
    : ∀ rows,
        SameClass fingerprint first rows → Consistent rows → Consistent (store.view rows changes)

theorem Recording.update (recording : Recording fingerprint first row sightings changes)
    (assignment : Assignment)
    : Recording fingerprint first (assignment.apply row) sightings
        (changes ++ [.update fingerprint assignment]) where
  own change mem := by
    rcases List.mem_append.mp mem with mem | mem
    · exact recording.own change mem
    · rw [List.mem_singleton.mp mem]
      rfl
  row := by
    rw [Store.view_append, Store.view_cons, Store.view_nil, candidate?_update, if_pos rfl,
      recording.row]
    rfl
  sightings := by
    rw [Store.view_append, Store.view_cons, Store.view_nil, occurrencesOf_update,
      recording.sightings]
  consistent rows same consistent := by
    rw [Store.view_append, Store.view_cons, Store.view_nil]
    exact (recording.consistent rows same consistent).update fingerprint assignment

theorem Recording.insertOccurrence (recording : Recording fingerprint first row sightings changes)
    {sighted : Occurrence} (own : sighted.fingerprint = fingerprint)
    (unseen : sightings.any (fun other => other.commitSha = sighted.commitSha) = false)
    : Recording fingerprint first row (sightings ++ [sighted])
        (changes ++ [.insertOccurrence sighted]) where
  own change mem := by
    rcases List.mem_append.mp mem with mem | mem
    · exact recording.own change mem
    · rw [List.mem_singleton.mp mem]
      exact own
  row := by
    rw [Store.view_append, Store.view_cons, Store.view_nil, candidate?_insertOccurrence,
      recording.row]
  sightings := by
    rw [Store.view_append, Store.view_cons, Store.view_nil, occurrencesOf_insertOccurrence,
      recording.sightings, if_pos own]
  consistent rows same consistent := by
    rw [Store.view_append, Store.view_cons, Store.view_nil]
    refine (recording.consistent rows same consistent).insertOccurrence ?_
    rw [Database.seen, own, (same.congr_view changes).2, recording.sightings, unseen]

/-- The upsert locks the class and leaves its row as it then has to be. -/
theorem upsert_rule {next : Unit → Txn Answer} (database : Database)
    (continues
      : ∀ first changes,
          Recording fingerprint first (sighting.upserted fingerprint first)
              (first.occurrencesOf fingerprint) changes
          → (next ()).Ensures captureSetting post
              ⟨first, [.candidate fingerprint], changes⟩)
    : (upsert fingerprint sighting >>= next).Ensures captureSetting post ⟨database, [], []⟩ := by
  unfold upsert
  simp only [Program.bind_assoc]
  refine insert_rule (Stable.const True) trivial (fun rows _ absent => ?_)
    (fun rows _ present => ?_)
  · have absent : rows.candidate? fingerprint = none := by
      simpa [store, Store.view] using absent
    have inserted
        : Recording fingerprint rows (sighting.upserted fingerprint rows)
            (rows.occurrencesOf fingerprint)
            [.insertCandidate (sighting.candidate fingerprint)] := by
      refine ⟨fun change mem => ?_, ?_, rfl, fun later same consistent => ?_⟩
      · rw [List.mem_singleton.mp mem]
        rfl
      · rw [Store.view_cons, Store.view_nil, candidate?_insertCandidate, absent,
          Sighting.upserted, absent]
        exact if_pos rfl
      · exact consistent.insertCandidate (same.1.trans absent)
    exact continues rows _ inserted
  · have kept (held : List Key)
        : Stable Rely held (fun rows => (rows.candidate? fingerprint).isSome = true) :=
      fun _ _ moved => moved.rows fingerprint
    simp only [Bool.false_eq_true, if_false, Program.bind_assoc]
    refine lock_rule (kept []) (by simpa [store, Store.view] using present) (fun rows present => ?_)
    refine write_rule (kept _) present (fun rows present => ?_)
    obtain ⟨row, found⟩ := Option.isSome_iff_exists.mp present
    refine continues rows _ ⟨fun change mem => ?_, ?_, rfl, fun later _ consistent => ?_⟩
    · rw [List.mem_singleton.mp mem]
      rfl
    · rw [Store.view_append, Store.view_nil, Store.view_cons, Store.view_nil, candidate?_update,
        if_pos rfl, found, Sighting.upserted, found]
      rfl
    · exact consistent.update fingerprint _

/-- The place of a recorder that is through. -/
def Recorded (fingerprint : Str) (sighting : Sighting) (found : Option ReadyClass)
    (place : Place Database Key Change)
    : Prop :=
  Orderly place
  ∧ Captured fingerprint sighting found place.committed (store.viewAt place)

/-- The class's sightings when this one is recorded. -/
def Sighting.recorded (sighting : Sighting) (fingerprint : Str) (database : Database)
    : List Occurrence :=
  database.occurrencesOf fingerprint
    ++ if database.seen fingerprint sighting.commitSha then []
      else [sighting.occurrence fingerprint]

/-- Recording the sighting, once for each commit. -/
theorem sighting_rule {next : Bool → Txn Answer}
    (locked : Key.candidate fingerprint ∈ held)
    (recording : Recording fingerprint first row (first.occurrencesOf fingerprint) changes)
    (same : SameClass fingerprint first rows)
    (continues
      : ∀ fresh held rows changes,
          Key.candidate fingerprint ∈ held
          → Recording fingerprint first row (sighting.recorded fingerprint first) changes
          → SameClass fingerprint first rows
          → (next fresh).Ensures captureSetting post ⟨rows, held, changes⟩)
    : (insert [.occurrence fingerprint sighting.commitSha]
          (.insertOccurrence (sighting.occurrence fingerprint))
        >>= next).Ensures captureSetting post ⟨rows, held, changes⟩ := by
  have seen {rows : Database} (same : SameClass fingerprint first rows)
      : store.present (.occurrence fingerprint sighting.commitSha) (store.view rows changes)
        = first.seen fingerprint sighting.commitSha := by
    show (store.view rows changes).seen _ _ = _
    rw [Database.seen, (same.congr_view changes).2, recording.sightings]
    rfl
  refine insert_rule (Stable.sameClass locked) same (fun rows same absent => ?_)
    (fun rows same present => ?_)
  · rw [seen same] at absent
    refine continues true _ rows _ (List.mem_cons_of_mem _ locked) ?_ same
    rw [Sighting.recorded, absent]
    exact recording.insertOccurrence rfl absent
  · rw [seen same] at present
    refine continues false held rows changes locked ?_ same
    rw [Sighting.recorded, present, if_pos rfl, List.append_nil]
    exact recording

/-- The class as it was locked has been settled. -/
theorem Recording.captured {found : Option ReadyClass} {counts : Counts}
    (recording
      : Recording fingerprint first
          (sighting.settled (sighting.upserted fingerprint first) counts)
          (sighting.recorded fingerprint first) changes)
    (locked : Key.candidate fingerprint ∈ held) (same : SameClass fingerprint first rows)
    (counted : (store.view first changes).counts fingerprint = counts)
    (found_
      : found
        = if sighting.ready (sighting.upserted fingerprint first) counts then
            some (sighting.report (sighting.upserted fingerprint first) counts)
          else none)
    : Recorded fingerprint sighting found ⟨rows, held, changes⟩ := by
  have view := same.congr_view changes
  have upserted : sighting.upserted fingerprint rows = sighting.upserted fingerprint first := by
    rw [Sighting.upserted, Sighting.upserted, same.1]
  have counted : (store.view rows changes).counts fingerprint = counts :=
    view.counts.trans counted
  refine ⟨⟨fun change mem => ?_, fun consistent => ?_⟩, fun other different => ?_, ?_, ?_, ?_⟩
  · rw [recording.own change mem]
    exact locked
  · exact recording.consistent rows same consistent
  · refine SameClass.view fun change mem own => different ?_
    exact own.symm.trans (recording.own change mem)
  · refine view.2.trans (recording.sightings.trans ?_)
    show sighting.recorded fingerprint first = _
    rw [Sighting.recorded, same.2, same.seen]
  · show (store.view rows changes).candidate? fingerprint = _
    rw [Store.viewAt, counted, upserted]
    exact view.1.trans recording.row
  · rw [Store.viewAt, counted, upserted]
    exact found_

/-- Settling a class that has been counted. -/
theorem settle_ensures {counts : Counts} (locked : Key.candidate fingerprint ∈ held)
    (recording
      : Recording fingerprint first (sighting.upserted fingerprint first)
          (sighting.recorded fingerprint first) changes)
    (counted : (store.view first changes).counts fingerprint = counts)
    (same : SameClass fingerprint first rows)
    : (settle fingerprint sighting counts (sighting.upserted fingerprint first)).Ensures
        captureSetting (Recorded fingerprint sighting) ⟨rows, held, changes⟩ := by
  have moved (assignment : Assignment)
      : (store.view first (changes ++ [.update fingerprint assignment])).counts fingerprint
        = counts := by
    rw [Store.view_append, Store.view_cons, Store.view_nil, ← counted]
    rfl
  unfold settle
  split
  · rename_i ready
    refine write_rule (Stable.sameClass locked) same (fun rows same => ?_)
    refine Ensures.finish (Stable.sameClass locked) same (fun rows same => ?_)
    have settled := recording.update (.move .ready)
    refine Recording.captured ?_ locked same (moved _) (if_pos ready).symm
    rwa [Sighting.settled, if_pos ready]
  · rename_i notReady
    split
    · rename_i fresh
      refine write_rule (Stable.sameClass locked) same (fun rows same => ?_)
      refine Ensures.finish (Stable.sameClass locked) same (fun rows same => ?_)
      have settled := recording.update (.move .accumulating)
      refine Recording.captured ?_ locked same (moved _) (if_neg notReady).symm
      rwa [Sighting.settled, if_neg notReady, if_pos fresh]
    · rename_i old
      refine Ensures.finish (Stable.sameClass locked) same (fun rows same => ?_)
      refine Recording.captured ?_ locked same counted (if_neg notReady).symm
      rwa [Sighting.settled, if_neg notReady, if_neg old]

/-- An admissible sighting is recorded, whatever the others do. -/
theorem recordCapture_ensures (admissible : sighting.admissible = true) (database : Database)
    : (recordCapture config sighting).Ensures captureSetting
        (Recorded (config.fingerprint sighting.repoId sighting.ruleTag) sighting)
        ⟨database, [], []⟩ := by
  unfold recordCapture
  rw [if_neg (by simp [admissible])]
  generalize config.fingerprint sighting.repoId sighting.ruleTag = fingerprint
  refine upsert_rule database (fun first changes recording => ?_)
  have locked : Key.candidate fingerprint ∈ [Key.candidate fingerprint] :=
    List.mem_singleton_self _
  refine sighting_rule locked recording (SameClass.refl _ _)
    (fun _ held rows changes locked recording same => ?_)
  refine look_rule (Stable.sameClass locked) same (fun counted same' => ?_)
  refine look_rule (Stable.sameClass locked) same' (fun rows same => ?_)
  have counts
      : (store.view first changes).counts fingerprint
        = (store.view counted changes).counts fingerprint :=
    (same'.congr_view changes).symm.counts
  have row : (store.view rows changes).candidate? fingerprint
      = some (sighting.upserted fingerprint first) :=
    (same.congr_view changes).1.trans recording.row
  simp only [row]
  exact settle_ensures locked recording counts same

end Recorder

/-- Every verb keeps to the protocol. -/
theorem protocol_verified {Client : Type} (config : Config)
    : (protocol config
        : Discipline store (code config)
          (@unrestricted Database Key Change CaptureError Verb Client Reply)).Verified := by
  intro verb database _
  cases verb with
  | recordCapture sighting =>
      refine Program.Ensures.map ?_
      by_cases admissible : sighting.admissible = true
      · refine Program.Ensures.weaken (recordCapture_ensures admissible database) ?_
        intro found place recorded
        exact ⟨recorded.1, by rw [Commits, if_pos admissible]; exact recorded.2⟩
      · rw [recordCapture, if_pos (by simpa using admissible)]
        refine Ensures.finish (Stable.const True) trivial (fun rows _ => ⟨Orderly.idle rows _, ?_⟩)
        rw [Commits, if_neg admissible]
        exact ⟨rfl, rfl⟩
  | claimForProposing fingerprint branch draftSha now =>
      exact Program.Ensures.map (updateWhere_ensures database)
  | reapStuckProposing timeoutMinutes now =>
      simp only [code, reapStuckProposing, Program.bind_assoc]
      exact Program.Ensures.map
        (sweep_ensures (fun row => by simp [stuck, Assignment.apply]) database)
  | markCaptureProposed fingerprint branch draftSha prNumber now =>
      exact Program.Ensures.map (updateWhere_ensures database)
  | releaseProposing fingerprint branch draftSha =>
      exact Program.Ensures.map (updateWhere_ensures database)
  | resolveCapture fingerprint outcome =>
      refine Program.Ensures.map ?_
      have resolved {assignment : Assignment}
          (known : assignment ∈ [Assignment.move .promoted, .resolve .declined, .resolve .stale])
          : (updateWhere fingerprint (fun row => row.state = .proposed) assignment).Ensures
              captureSetting
              (fun won place =>
                Orderly place
                ∧ Commits config place.committed (store.viewAt place)
                    (.resolveCapture fingerprint outcome) (.won won))
              ⟨database, [], []⟩ :=
        Program.Ensures.weaken (updateWhere_ensures database)
          (fun _ _ ends => ⟨ends.1, assignment, known, ends.2⟩)
      unfold resolveCapture
      split
      · exact resolved (by simp)
      · split
        · exact resolved (by simp)
        · split
          · exact resolved (by simp)
          · exact Ensures.raise (Stable.const True) trivial (fun _ _ => trivial)
  | expireStaleCaptures ttlDays now =>
      exact Program.Ensures.map
        (sweep_ensures (fun row => by simp [overdue, Assignment.apply]) database)

end Capture

import Myndaix.Interaction.Answers
import Myndaix.Knowledge.Fence

/-! Two ways to bring the index in step with a corpus: the differences of a sync, and a rebuild
that archives everything and ingests it again. Where the path and the hash of a file tell its
content, both leave the same documents, and another sync finds nothing to do.
-/

namespace Knowledge

open Interaction Transactions

variable {config : Config} {content : String → String → DocRecord} {scope path : String}
  {database rows cur : Database} {docs : List DocRecord} {doc : DocRecord} {result : SyncResult}

-- What recall can find

/-- The document that a row stores. -/
def KnowledgeDoc.record (row : KnowledgeDoc) : DocRecord :=
  ⟨row.path, row.title, row.tags, row.body, row.contentSha, row.lossy⟩

/-- The active document of a path, with all that a search reads of it. -/
def Database.recallable (database : Database) (scope path : String) : Option DocRecord :=
  ((database.current? scope path).filter (fun row => row.status = .active)).map KnowledgeDoc.record

/-- The paths and hashes of the active documents. -/
def Database.activePairs (database : Database) (scope : String) : Set (String × String) :=
  {pair | ∃ doc, database.recallable scope pair.1 = some doc ∧ doc.contentSha = pair.2}

theorem recallable_bump (database : Database) (scope other path : String)
    : (store.apply (.bumpGen scope) database).recallable other path
      = database.recallable other path := by
  rw [Database.recallable, current?_bump, Database.recallable]

/-- An active row makes its document recallable. -/
theorem recallable_insert (sequenced : Sequenced database) (doc : DocRecord) (scope path : String)
    : (store.apply (.insertDoc (doc.row scope)) database).recallable scope path
      = if doc.path = path then some doc else database.recallable scope path := by
  rw [Database.recallable, current?_insert sequenced]
  by_cases own : doc.path = path
  · rw [if_pos ⟨rfl, own⟩, if_pos own]
    rfl
  · rw [if_neg fun both => own both.2, if_neg own]
    rfl

/-- A tombstone makes its document unrecallable. -/
theorem recallable_archive (sequenced : Sequenced database) (scope gone path : String)
    : (store.apply (.insertDoc (archived scope gone)) database).recallable scope path
      = if gone = path then none else database.recallable scope path := by
  rw [Database.recallable, current?_insert sequenced]
  by_cases own : gone = path
  · rw [if_pos ⟨rfl, own⟩, if_pos own]
    rfl
  · rw [if_neg fun both => own both.2, if_neg own]
    rfl

theorem recallable_eq_none
    : database.recallable scope path = none ↔ database.active scope path = false := by
  rw [Database.recallable, Database.active, Option.map_eq_none_iff]
  cases database.current? scope path with
  | none => simp
  | some row => simp [Option.filter]

/-- What is recallable has a current row that is active and has the same hash. -/
theorem current?_of_recallable (found : database.recallable scope path = some doc)
    : ∃ row,
        database.current? scope path = some row ∧ row.status = .active ∧ row.record = doc := by
  obtain ⟨row, kept, same⟩ := Option.map_eq_some_iff.mp found
  obtain ⟨current, active⟩ := Option.filter_eq_some_iff.mp kept
  exact ⟨row, current, of_decide_eq_true active, same⟩

-- Stored corpora

/-- The path and the hash tell the content. -/
def Determined (content : String → String → DocRecord) (doc : DocRecord) : Prop :=
  doc = content doc.path doc.contentSha

/-- A verb whose walk found documents with the content that path and hash tell. -/
abbrev WalkedVerb (content : String → String → DocRecord) : Type :=
  {verb : Verb // ∀ doc ∈ verb.docs, Determined content doc}

def walkedCode (config : Config) (content : String → String → DocRecord) (verb : WalkedVerb content)
    : Txn Reply :=
  code config verb.val

/-- The index as such walkers leave it, in any order of their calls and with crashes anywhere. -/
def Corpus [DecidableEq Client] (config : Config) (content : String → String → DocRecord)
    : System Database Int Change Empty (WalkedVerb content) Reply Client → Prop :=
  Reachable store (walkedCode config content) unrestricted .empty

/-- An active row stores a document that was walked and is not too large. -/
def Recorded (config : Config) (content : String → String → DocRecord) (row : KnowledgeDoc)
    : Prop :=
  row.status = .active → Determined content row.record ∧ config.oversize row.record = false

/-- A change that inserts no other rows. -/
def Records (config : Config) (content : String → String → DocRecord) : Change → Prop
  | .bumpGen _ => True
  | .insertDoc row => Recorded config content row

/-- The writes that a walker makes. -/
def Writes (config : Config) (content : String → String → DocRecord)
    (action : Action Int Change Empty)
    : Prop :=
  match action with
  | .write change => Records config content change
  | .insert .. => False
  | _ => True

/-- A program that makes no other writes. -/
def WritesOnly {Answer : Type} (config : Config) (content : String → String → DocRecord)
    (program : Txn Answer)
    : Prop :=
  program.Ensures (Program.anywhere (Writes config content)) (fun _ _ => True) ()

section Writes

variable {Answer Other : Type}

theorem WritesOnly.done (answer : Answer)
    : WritesOnly config content (pure answer : Txn Answer) :=
  Program.Ensures.done fun _ _ => trivial

theorem WritesOnly.bind {program : Txn Answer} {next : Answer → Txn Other}
    (first : WritesOnly config content program)
    (second : ∀ answer, WritesOnly config content (next answer))
    : WritesOnly config content (program >>= next) :=
  Program.Ensures.bind first fun answer _ _ => second answer

theorem WritesOnly.look : WritesOnly config content look :=
  Program.Ensures.call fun _ _ => ⟨trivial, fun answer _ _ => WritesOnly.done answer⟩

theorem WritesOnly.lock (key : Int) : WritesOnly config content (lock key) :=
  Program.Ensures.call fun _ _ => ⟨trivial, fun answer _ _ => WritesOnly.done answer⟩

theorem WritesOnly.write {change : Change} (records : Records config content change)
    : WritesOnly config content (write change) :=
  Program.Ensures.call fun _ _ => ⟨records, fun answer _ _ => WritesOnly.done answer⟩

/-- A loop writes what its rounds write. -/
theorem WritesOnly.fold {Item : Type} {body : Answer → Item → Txn Answer} {items : List Item}
    (round : ∀ answer item, item ∈ items → WritesOnly config content (body answer item))
    (answer : Answer)
    : WritesOnly config content (Program.fold body answer items) := by
  induction items generalizing answer with
  | nil => exact .done answer
  | cons item items ih =>
      refine .bind (round answer item List.mem_cons_self) fun next => ih ?_ next
      exact fun answer other mem => round answer other (List.mem_cons_of_mem _ mem)

theorem WritesOnly.tombstone (scope : String) (result : SyncResult) (paths : List String)
    : WritesOnly config content (tombstone scope result paths) := by
  refine .fold (fun result path _ => .bind (.write ?_) fun _ => .done _) result
  exact fun active => nomatch active

theorem WritesOnly.insertActive (scope : String) (determined : Determined content doc)
    : WritesOnly config content (insertActive config scope doc) := by
  unfold Knowledge.insertActive
  split
  · exact .done false
  · rename_i fits
    refine .bind (.write fun _ => ⟨determined, ?_⟩) fun _ => .done true
    exact Bool.eq_false_iff.mpr fits

theorem WritesOnly.gated {expectFence : Option Nat} {body : Database → Txn SyncResult}
    (writes : ∀ cur, WritesOnly config content (body cur))
    : WritesOnly config content (gated config scope expectFence body) := by
  refine .bind (.lock _) fun _ => .bind .look fun rows => ?_
  split
  · exact .done _
  · exact .bind (.write trivial) fun _ => .bind .look writes

/-- A walker writes rows of what it walked. -/
theorem WritesOnly.verb (verb : WalkedVerb content)
    : WritesOnly config content (walkedCode config content verb) := by
  obtain ⟨verb, walked⟩ := verb
  cases verb with
  | knowledgeFence scope => exact .bind .look fun _ => .done _
  | knowledgeSync scope docs tombstoneMissing expectFence =>
      refine .bind ?_ fun _ => .done _
      rw [knowledgeSync_eq]
      refine .gated fun cur => .bind (.fold ?_ _) fun result => ?_
      · intro result doc mem
        unfold syncDoc
        dsimp only
        split
        · exact .done _
        · refine .bind (.insertActive scope (walked doc mem)) fun stored => ?_
          split
          · exact .done _
          · split
            · exact .tombstone ..
            · exact .done _
      · split
        · exact .tombstone ..
        · exact .done _
  | knowledgeRebuild scope docs expectFence =>
      refine .bind ?_ fun _ => .done _
      rw [knowledgeRebuild_eq]
      refine .gated fun cur => .bind (.tombstone ..) fun result => .fold ?_ _
      intro result doc mem
      refine .bind (.insertActive scope (walked doc mem)) fun stored => ?_
      split
      · exact .done _
      · exact .done _

end Writes

/-- The walkers' transactions as a discipline: all rows record what was walked. -/
def recording {Client : Type} (config : Config) (content : String → String → DocRecord)
    : Discipline store (walkedCode config content)
        (@unrestricted Database Int Change Empty (WalkedVerb content) Client Reply) where
  invariant database := Sequenced database ∧ ∀ row ∈ database.docs, Recorded config content row
  rely _ _ _ _ := True
  permits _ _ _ action := Writes config content action
  post _ _ _ place := ∀ change ∈ place.changes, Records config content change
  rely_refl _ _ _ := trivial
  rely_trans _ _ := trivial
  invariant_commit := by
    rintro - - - ⟨committed, locks, changes⟩ holds records
    induction changes generalizing committed with
    | nil => exact holds
    | cons change changes ih =>
        refine ih _ ⟨holds.1.apply change, ?_⟩ fun other mem =>
          records other (List.mem_cons_of_mem _ mem)
        have made := records change List.mem_cons_self
        cases change with
        | bumpGen scope =>
            simp only [store, Change.apply]
            split <;> exact holds.2
        | insertDoc row =>
            intro other mem
            rcases List.mem_append.mp mem with old | new
            · exact holds.2 other old
            · rw [List.mem_singleton.mp new]
              exact made
  rely_commit _ _ _ _ _ _ := trivial

theorem recording_verified {Client : Type} (config : Config)
    (content : String → String → DocRecord)
    : (recording config content
        : Discipline store (walkedCode config content)
          (@unrestricted Database Int Change Empty (WalkedVerb content)
            Client Reply)).Verified := by
  intro verb database _
  have stable {place later : Place Database Int Change}
      (holds : ∀ change ∈ place.changes, Records config content change)
      (moved
        : ((recording config content
              : Discipline store (walkedCode config content)
                (@unrestricted Database Int Change Empty (WalkedVerb content) Client Reply)).setting
            verb database).interferes place later)
      : ∀ change ∈ later.changes, Records config content change :=
    moved.2.1 ▸ holds
  have step {action : Action Int Change Empty} {place after : Place Database Int Change}
      {answer : action.Answer Database} (writes : Writes config content action)
      (holds : ∀ change ∈ place.changes, Records config content change)
      (answered : store.answers action place answer after)
      : ∀ change ∈ after.changes, Records config content change := by
    cases action with
    | look => exact answered.2 ▸ holds
    | lock key => exact answered ▸ holds
    | tryLock key =>
        subst answered
        split
        · exact holds
        · exact holds
    | insert keys change => exact writes.elim
    | write change =>
        subst answered
        intro other mem
        rcases List.mem_append.mp mem with old | new
        · exact holds other old
        · rw [List.mem_singleton.mp new]
          exact writes
    | unlock => exact answered ▸ holds
    | raise error => exact answered.elim
  exact ((WritesOnly.verb verb).within _ stable (fun writes _ => writes) step
    (List.forall_mem_nil _)).weaken
    fun _ _ ends => ends.2

/-- In every state of the index, an active document is one that was walked and is not too large. -/
theorem recallable_recorded [DecidableEq Client]
    {system : System Database Int Change Empty (WalkedVerb content) Reply Client}
    (corpus : Corpus config content system)
    : Sequenced system.committed
      ∧ ∀ scope path doc,
          system.committed.recallable scope path = some doc
          → doc.path = path ∧ Determined content doc ∧ config.oversize doc = false := by
  have sound := (recording_verified config content).sound
    ⟨Sequenced.empty, List.forall_mem_nil _⟩ corpus
  obtain ⟨sequenced, recorded⟩ := sound.invariant
  refine ⟨sequenced, fun scope path doc found => ?_⟩
  obtain ⟨row, current, active, rfl⟩ := current?_of_recallable found
  have inside := List.mem_filter.mp (newest_mem current)
  exact ⟨of_decide_eq_true inside.2, recorded row (List.mem_filter.mp inside.1).1 active⟩

-- One document

/-- What is to be found of a document after its file was walked. -/
def indexed (config : Config) (doc : DocRecord) : Option DocRecord :=
  if config.oversize doc then none else some doc

/-- The path has this document, and all others have what they had. -/
def Replaces (scope gone : String) (found : Option DocRecord) (before after : Database) : Prop :=
  Sequenced after
  ∧ ∀ path,
      after.recallable scope path = if gone = path then found else before.recallable scope path

theorem Replaces.refl (sequenced : Sequenced database) (scope path : String)
    : Replaces scope path (database.recallable scope path) database database := by
  refine ⟨sequenced, fun other => ?_⟩
  split
  · rename_i same
    rw [same]
  · rfl

/-- Tombstoning leaves nothing of these documents, by induction on them. -/
theorem alone_tombstone (sequenced : Sequenced database) (scope : String) (result : SyncResult)
    (paths : List String)
    : ∃ after,
        store.alone (tombstone scope result paths) database
          = .ok ({ result with tombstoned := result.tombstoned + paths.length }, after)
        ∧ Sequenced after
        ∧ ∀ path,
            after.recallable scope path
              = if path ∈ paths then none else database.recallable scope path := by
  induction paths generalizing database result with
  | nil => exact ⟨database, rfl, sequenced, fun path => (if_neg List.not_mem_nil).symm⟩
  | cons gone paths ih =>
      obtain ⟨after, ran, sequenced', found⟩ :=
        ih (sequenced.apply (.insertDoc (archived scope gone)))
          { result with tombstoned := result.tombstoned + 1 }
      refine ⟨after, ?_, sequenced', fun path => ?_⟩
      · refine Eq.trans ran ?_
        rw [List.length_cons, Nat.add_right_comm, Nat.add_assoc]
      · rw [found, recallable_archive sequenced]
        by_cases later : path ∈ paths
        · rw [if_pos later, if_pos (List.mem_cons_of_mem _ later)]
        · rw [if_neg later]
          by_cases here : gone = path
          · rw [if_pos here, if_pos (here ▸ List.mem_cons_self)]
          · rw [if_neg here, if_neg]
            exact fun mem => (List.mem_cons.mp mem).elim (fun same => here same.symm) later

/-- Inserting a document replaces what its path had, unless it is too large. -/
theorem alone_insertActive (sequenced : Sequenced database) (fits : config.oversize doc = false)
    : ∃ after,
        store.alone (insertActive config scope doc) database = .ok (true, after)
        ∧ Replaces scope doc.path (some doc) database after := by
  refine ⟨_, ?_, sequenced.apply (.insertDoc (doc.row scope)), ?_⟩
  rotate_left
  · exact recallable_insert sequenced doc scope
  rw [insertActive, if_neg (Bool.eq_false_iff.mp fits)]
  rfl

/-- A sync and a row of the same hash: what is recallable is the document that was walked. -/
theorem recallable_unchanged {prev : KnowledgeDoc}
    (current : cur.current? scope doc.path = some prev)
    (unchanged : (prev.contentSha = doc.contentSha && prev.status = .active) = true)
    (known
      : ∀ other,
          cur.recallable scope doc.path = some other
          → other.path = doc.path ∧ Determined content other ∧ config.oversize other = false)
    (determined : Determined content doc)
    : cur.recallable scope doc.path = indexed config doc := by
  rw [Bool.and_eq_true, decide_eq_true_eq] at unchanged
  have found : cur.recallable scope doc.path = some prev.record := by
    rw [Database.recallable, current, Option.filter_some, if_pos unchanged.2]
    rfl
  obtain ⟨path, told, fits⟩ := known prev.record found
  have same : prev.record = doc := by
    rw [told, determined, path]
    exact congrArg (content doc.path) unchanged.1
  rw [found, indexed, ← same, fits]
  rfl

/-- One document of a sync ends as it was walked. -/
theorem alone_syncDoc (sequenced : Sequenced database)
    (kept : database.recallable scope doc.path = cur.recallable scope doc.path)
    (known
      : ∀ other,
          cur.recallable scope doc.path = some other
          → other.path = doc.path ∧ Determined content other ∧ config.oversize other = false)
    (determined : Determined content doc)
    : ∃ next after,
        store.alone (syncDoc config scope cur result doc) database = .ok (next, after)
        ∧ Replaces scope doc.path (indexed config doc) database after := by
  unfold syncDoc
  dsimp only
  split
  · rename_i unchanged
    obtain ⟨prev, current, unchanged⟩ := (Option.any_eq_true ..).mp unchanged
    refine ⟨_, database, rfl, ?_⟩
    rw [← recallable_unchanged current unchanged known determined, ← kept]
    exact .refl sequenced scope doc.path
  · by_cases fits : config.oversize doc = false
    · obtain ⟨after, ran, replaces⟩ := @alone_insertActive config scope database doc sequenced fits
      refine ⟨_, after, Store.alone_then ran _, ?_⟩
      rw [indexed, if_neg (Bool.eq_false_iff.mp fits)]
      exact replaces
    · have large : config.oversize doc = true := by simpa using fits
      have gone : indexed config doc = none := if_pos large
      have skips : insertActive config scope doc = pure false := if_pos large
      rw [gone, skips]
      simp only [Program.pure_eq_done, Program.done_bind, Bool.false_eq_true, if_false]
      split
      · obtain ⟨after, ran, sequenced', found⟩ := alone_tombstone sequenced scope
          { result with skippedOversize := result.skippedOversize ++ [doc.path] } [doc.path]
        refine ⟨_, after, ran, sequenced', fun path => ?_⟩
        rw [found]
        simp only [List.mem_singleton, eq_comm]
      · rename_i inactive
        have absent : database.recallable scope doc.path = none := by
          rw [kept, recallable_eq_none]
          exact Bool.eq_false_iff.mpr inactive
        refine ⟨_, database, rfl, ?_⟩
        rw [← absent]
        exact .refl sequenced scope doc.path

/-- One document of a rebuild ends as it was walked, if nothing was left of its path. -/
theorem alone_reingestDoc (sequenced : Sequenced database)
    (absent : database.recallable scope doc.path = none)
    : ∃ next after,
        store.alone (reingestDoc config scope result doc) database = .ok (next, after)
        ∧ Replaces scope doc.path (indexed config doc) database after := by
  unfold reingestDoc
  by_cases fits : config.oversize doc = false
  · obtain ⟨after, ran, replaces⟩ := @alone_insertActive config scope database doc sequenced fits
    have there : indexed config doc = some doc := if_neg (Bool.eq_false_iff.mp fits)
    refine ⟨_, after, Store.alone_then ran _, ?_⟩
    rw [there]
    exact replaces
  · have large : config.oversize doc = true := by simpa using fits
    have gone : indexed config doc = none := if_pos large
    have skips : insertActive config scope doc = pure false := if_pos large
    rw [skips]
    refine ⟨_, database, rfl, ?_⟩
    rw [gone, ← absent]
    exact .refl sequenced scope doc.path

-- Whole walks

/-- What a walk makes recallable: its documents that are not too large. -/
def walked (config : Config) (docs : List DocRecord) (path : String) : Option DocRecord :=
  (docs.find? (fun doc => doc.path = path)).bind (indexed config)

theorem walked_mem (distinct : (docs.map DocRecord.path).Nodup) (mem : doc ∈ docs)
    : walked config docs doc.path = indexed config doc := by
  have found : docs.find? (fun other => other.path = doc.path) = some doc := by
    induction docs with
    | nil => cases mem
    | cons first docs ih =>
        rw [List.map_cons, List.nodup_cons] at distinct
        rcases List.mem_cons.mp mem with rfl | mem
        · simp
        · have other : first.path ≠ doc.path := fun same =>
            distinct.1 (same ▸ List.mem_map_of_mem mem)
          rw [List.find?_cons_of_neg (by simpa using other)]
          exact ih distinct.2 mem
  rw [walked, found, Option.bind_some]

theorem walked_missing (missing : path ∉ docs.map DocRecord.path)
    : walked config docs path = none := by
  have unfound : docs.find? (fun doc => doc.path = path) = none := by
    rw [List.find?_eq_none]
    exact fun doc mem same => missing (of_decide_eq_true same ▸ List.mem_map_of_mem mem)
  rw [walked, unfound, Option.bind_none]

/-- A walk that has come to the rest of its documents: the others have what was walked. -/
structure Halfway (config : Config) (scope : String) (docs : List DocRecord) (first : Database)
    (rest : List DocRecord) (rows : Database)
    : Prop where
  suffix : rest <:+ docs
  sequenced : Sequenced rows
  found
    : ∀ path,
        rows.recallable scope path
          = if path ∈ docs.map DocRecord.path ∧ path ∉ rest.map DocRecord.path then
              walked config docs path
            else first.recallable scope path

/-- One round, on a path that no other document has. -/
theorem Halfway.round {rest : List DocRecord} {after : Database}
    (distinct : (docs.map DocRecord.path).Nodup)
    (halfway : Halfway config scope docs database (doc :: rest) rows)
    (replaces : Replaces scope doc.path (indexed config doc) rows after)
    : Halfway config scope docs database rest after where
  suffix := (List.suffix_cons doc rest).trans halfway.suffix
  sequenced := replaces.1
  found path := by
    have inside : doc ∈ docs := halfway.suffix.subset List.mem_cons_self
    have fresh : doc.path ∉ rest.map DocRecord.path :=
      (List.nodup_cons.mp (distinct.sublist (halfway.suffix.sublist.map DocRecord.path))).1
    rw [replaces.2]
    by_cases here : doc.path = path
    · subst here
      rw [if_pos rfl, if_pos ⟨List.mem_map_of_mem inside, fresh⟩, walked_mem distinct inside]
    · have same : path ∈ (doc :: rest).map DocRecord.path ↔ path ∈ rest.map DocRecord.path := by
        rw [List.map_cons, List.mem_cons, or_iff_right (Ne.symm here)]
      rw [if_neg here, halfway.found]
      simp only [same]

/-- A loop over the documents, each of which replaces what its path has. -/
theorem alone_docs {body : SyncResult → DocRecord → Txn SyncResult}
    (sequenced : Sequenced database) (distinct : (docs.map DocRecord.path).Nodup)
    (round
      : ∀ {result doc rows},
          doc ∈ docs → Sequenced rows
          → rows.recallable scope doc.path = database.recallable scope doc.path
          → ∃ next after,
              store.alone (body result doc) rows = .ok (next, after)
              ∧ Replaces scope doc.path (indexed config doc) rows after)
    (result : SyncResult)
    : ∃ last after,
        store.alone (Program.fold body result docs) database = .ok (last, after)
        ∧ Sequenced after
        ∧ ∀ path,
            after.recallable scope path
              = if path ∈ docs.map DocRecord.path then walked config docs path
                else database.recallable scope path := by
  have start : Halfway config scope docs database docs database :=
    ⟨List.suffix_rfl, sequenced, fun path => (if_neg fun both => both.2 both.1).symm⟩
  have onward {result : SyncResult} {doc : DocRecord} {rest : List DocRecord} {rows : Database}
      (halfway : Halfway config scope docs database (doc :: rest) rows)
      : ∃ next after,
          store.alone (body result doc) rows = .ok (next, after)
          ∧ Halfway config scope docs database rest after := by
    have inside : doc ∈ docs := halfway.suffix.subset List.mem_cons_self
    have kept := (halfway.found doc.path).trans
      (if_neg fun both => both.2 (List.mem_map_of_mem List.mem_cons_self))
    obtain ⟨next, after, ran, replaces⟩ := @round result doc rows inside halfway.sequenced kept
    exact ⟨next, after, ran, halfway.round distinct replaces⟩
  obtain ⟨last, after, ran, through⟩ :=
    Store.alone_fold (fun _ rest rows => Halfway config scope docs database rest rows) onward start
  refine ⟨last, after, ran, through.sequenced, fun path => ?_⟩
  rw [through.found, List.map_nil]
  simp only [List.not_mem_nil, not_false_eq_true, and_true]

/-- After a sync, the walked documents are recallable and no others. -/
theorem alone_syncBody (sequenced : Sequenced cur) (distinct : (docs.map DocRecord.path).Nodup)
    (known
      : ∀ path doc,
          cur.recallable scope path = some doc
          → doc.path = path ∧ Determined content doc ∧ config.oversize doc = false)
    (determined : ∀ doc ∈ docs, Determined content doc)
    : ∃ result after,
        store.alone (syncBody config scope docs true cur) cur = .ok (result, after)
        ∧ Sequenced after ∧ ∀ path, after.recallable scope path = walked config docs path := by
  obtain ⟨result, rows, ran, sequenced', found⟩ :=
    @alone_docs config scope cur docs (syncDoc config scope cur) sequenced distinct
      (fun inside sequenced kept =>
        alone_syncDoc sequenced kept (known _) (determined _ inside))
      .start
  obtain ⟨after, ran', sequenced'', found'⟩ := alone_tombstone sequenced' scope result
    ((config.order (cur.paths scope)).filter
      (fun path => cur.active scope path && path ∉ docs.map DocRecord.path))
  refine ⟨_, after, (Store.alone_then ran _).trans ran', sequenced'', fun path => ?_⟩
  rw [found', found]
  by_cases inside : path ∈ docs.map DocRecord.path
  · rw [if_pos inside, if_neg fun listed => ?_]
    have missing := (List.mem_filter.mp listed).2
    rw [Bool.and_eq_true, decide_eq_true_eq] at missing
    exact missing.2 inside
  · rw [if_neg inside, walked_missing inside]
    by_cases active : cur.active scope path = true
    · have listed := (config.order_perm _).mem_iff.mpr (active_mem_paths active)
      rw [if_pos]
      exact List.mem_filter.mpr ⟨listed, by simp [active, inside]⟩
    · rw [recallable_eq_none.mpr (Bool.eq_false_iff.mpr active), ite_self]

/-- After a rebuild, the same. -/
theorem alone_rebuildBody (sequenced : Sequenced cur) (distinct : (docs.map DocRecord.path).Nodup)
    : ∃ result after,
        store.alone (rebuildBody config scope docs cur) cur = .ok (result, after)
        ∧ Sequenced after ∧ ∀ path, after.recallable scope path = walked config docs path := by
  obtain ⟨rows, ran, sequenced', found⟩ := alone_tombstone sequenced scope .start
    ((config.order (cur.paths scope)).filter (cur.active scope))
  have empty (path : String) : rows.recallable scope path = none := by
    rw [found]
    split
    · rfl
    · rename_i unlisted
      refine recallable_eq_none.mpr (Bool.eq_false_iff.mpr fun active => unlisted ?_)
      have listed := (config.order_perm _).mem_iff.mpr (active_mem_paths active)
      exact List.mem_filter.mpr ⟨listed, active⟩
  obtain ⟨result, after, ran', sequenced'', found'⟩ :=
    @alone_docs config scope rows docs (reingestDoc config scope) sequenced' distinct
      (fun _ sequenced kept => alone_reingestDoc sequenced (kept.trans (empty _)))
      { SyncResult.start with tombstoned := SyncResult.start.tombstoned + _ }
  refine ⟨result, after, (Store.alone_then ran _).trans ran', sequenced'', fun path => ?_⟩
  rw [found']
  split
  · rfl
  · rename_i missing
    rw [empty, walked_missing missing]

-- Nothing to do

/-- Nothing has been inserted or tombstoned. -/
def SyncResult.Idle (result : SyncResult) : Prop :=
  result.inserted = 0 ∧ result.tombstoned = 0

/-- A sync passes over a document that is there as it was walked, or is too large and not there. -/
theorem alone_settledDoc (settled : cur.recallable scope doc.path = indexed config doc)
    (idle : result.Idle)
    : ∃ next,
        store.alone (syncDoc config scope cur result doc) rows = .ok (next, rows) ∧ next.Idle := by
  unfold syncDoc
  dsimp only
  by_cases fits : config.oversize doc = false
  · have there : indexed config doc = some doc := if_neg (Bool.eq_false_iff.mp fits)
    obtain ⟨prev, current, active, same⟩ := current?_of_recallable (settled.trans there)
    have sha : prev.contentSha = doc.contentSha := same ▸ rfl
    have unchanged
        : (cur.current? scope doc.path).any
            (fun row => row.contentSha = doc.contentSha && row.status = .active)
          = true := by
      rw [current, Option.any_some, decide_eq_true sha, decide_eq_true active]
      rfl
    rw [if_pos unchanged]
    exact ⟨_, rfl, idle⟩
  · have large : config.oversize doc = true := by simpa using fits
    have gone : indexed config doc = none := if_pos large
    have inactive : cur.active scope doc.path = false := recallable_eq_none.mp (settled.trans gone)
    have skips : insertActive config scope doc = pure false := if_pos large
    have changed
        : ¬(cur.current? scope doc.path).any
            (fun row => row.contentSha = doc.contentSha && row.status = .active)
          = true := by
      intro unchanged
      obtain ⟨prev, current, both⟩ := (Option.any_eq_true ..).mp unchanged
      rw [Database.active, current, Option.any_some] at inactive
      rw [inactive, Bool.and_false] at both
      cases both
    have archived : ¬(cur.current? scope doc.path).any (fun row => row.status = .active) = true :=
      Bool.eq_false_iff.mp inactive
    rw [if_neg changed, skips]
    simp only [Program.pure_eq_done, Program.done_bind, Bool.false_eq_true, if_false]
    rw [if_neg archived]
    exact ⟨_, rfl, idle⟩

/-- A sync of a walk that the index already has does nothing. -/
theorem alone_settledBody (distinct : (docs.map DocRecord.path).Nodup)
    (settled : ∀ path, cur.recallable scope path = walked config docs path)
    : ∃ result,
        store.alone (syncBody config scope docs true cur) cur = .ok (result, cur)
        ∧ result.Idle := by
  have round {result : SyncResult} {doc : DocRecord} {rest : List DocRecord} {rows : Database}
      (here : rows = cur ∧ doc :: rest <:+ docs ∧ result.Idle)
      : ∃ next after,
          store.alone (syncDoc config scope cur result doc) rows = .ok (next, after)
          ∧ after = cur ∧ rest <:+ docs ∧ next.Idle := by
    obtain ⟨same, suffix, idle⟩ := here
    have found := (settled doc.path).trans (walked_mem distinct (suffix.subset List.mem_cons_self))
    obtain ⟨next, ran, idle'⟩ := @alone_settledDoc config scope rows cur doc result found idle
    exact ⟨next, rows, ran, same, (List.suffix_cons doc rest).trans suffix, idle'⟩
  have start : cur = cur ∧ docs <:+ docs ∧ SyncResult.start.Idle :=
    ⟨rfl, List.suffix_rfl, rfl, rfl⟩
  obtain ⟨result, after, ran, same, -, idle⟩ :=
    Store.alone_fold (fun result rest rows => rows = cur ∧ rest <:+ docs ∧ SyncResult.Idle result)
      round start
  subst same
  have none_
      : (config.order (after.paths scope)).filter
          (fun path => after.active scope path && path ∉ docs.map DocRecord.path)
        = [] := by
    rw [List.filter_eq_nil_iff]
    intro path _ gone
    rw [Bool.and_eq_true, decide_eq_true_eq] at gone
    have absent := recallable_eq_none.mp ((settled path).trans (walked_missing gone.2))
    rw [absent] at gone
    cases gone.1
  refine ⟨result, (Store.alone_then ran _).trans ?_, idle⟩
  rw [if_pos rfl, none_]
  rfl

-- Both ways

/-- A commit runs its body behind the bumped generation, or is rejected. -/
theorem alone_gated {expectFence : Option Nat} {body : Database → Txn SyncResult}
    : store.alone (gated config scope expectFence body) database
      = if stale database scope expectFence then .ok (.conflicted, database)
        else
          store.alone (body (store.apply (.bumpGen scope) database))
            (store.apply (.bumpGen scope) database) := by
  have runs
      : store.alone (gated config scope expectFence body) database
        = store.alone
            (if stale database scope expectFence then pure .conflicted
            else do
              write (.bumpGen scope)
              let cur ← look
              body cur)
            database :=
    rfl
  rw [runs]
  split
  · rfl
  · rfl

/-- A sync with tombstones and a rebuild of the same walk leave the same active paths and hashes and
the same documents to be found, which are those of the walk, and another sync of the walk inserts
and tombstones nothing.
-/
theorem sync_eq_rebuild [DecidableEq Client]
    {system : System Database Int Change Empty (WalkedVerb content) Reply Client}
    (corpus : Corpus config content system) (scope : String) (docs : List DocRecord)
    (distinct : (docs.map DocRecord.path).Nodup)
    (determined : ∀ doc ∈ docs, Determined content doc) {expected expected' : Option Nat}
    (accepted : stale system.committed scope expected = false)
    (accepted' : stale system.committed scope expected' = false)
    : ∃ first synced second rebuilt,
        store.alone (knowledgeSync config scope docs true expected) system.committed
          = .ok (first, synced)
        ∧ store.alone (knowledgeRebuild config scope docs expected') system.committed
          = .ok (second, rebuilt)
        ∧ synced.activePairs scope = rebuilt.activePairs scope
        ∧ (∀ path, synced.recallable scope path = rebuilt.recallable scope path)
        ∧ (∀ path, rebuilt.recallable scope path = walked config docs path)
        ∧ ∀ expected'',
            ∃ third after,
              store.alone (knowledgeSync config scope docs true expected'') synced
                = .ok (third, after)
              ∧ third.inserted = 0
              ∧ third.tombstoned = 0 := by
  obtain ⟨sequenced, known⟩ := recallable_recorded corpus
  have bumped := sequenced.apply (.bumpGen scope)
  have known'
      : ∀ path doc,
          (store.apply (.bumpGen scope) system.committed).recallable scope path = some doc
          → doc.path = path ∧ Determined content doc ∧ config.oversize doc = false := by
    intro path doc found
    rw [recallable_bump] at found
    exact known scope path doc found
  obtain ⟨first, synced, ran, -, found⟩ := alone_syncBody bumped distinct known' determined
  obtain ⟨second, rebuilt, ran', -, found'⟩ :=
    @alone_rebuildBody config scope _ docs bumped distinct
  have same (path : String) : synced.recallable scope path = rebuilt.recallable scope path := by
    rw [found, found']
  refine ⟨first, synced, second, rebuilt, ?_, ?_, ?_, same, found', fun expected'' => ?_⟩
  · rw [knowledgeSync_eq, alone_gated, accepted]
    exact ran
  · rw [knowledgeRebuild_eq, alone_gated, accepted']
    exact ran'
  · simp only [Database.activePairs, same]
  · rw [knowledgeSync_eq, alone_gated]
    split
    · exact ⟨_, _, rfl, rfl, rfl⟩
    · have settled (path : String)
          : (store.apply (.bumpGen scope) synced).recallable scope path
            = walked config docs path := by
        rw [recallable_bump, found]
      obtain ⟨third, ran'', idle⟩ := alone_settledBody distinct settled
      exact ⟨third, _, ran'', idle⟩

theorem sync_eq_rebuild_sample
    : ∃ first synced second rebuilt,
        store.alone (knowledgeSync .sample "research" [sampleDoc] true none) .empty
          = .ok (first, synced)
        ∧ store.alone (knowledgeRebuild .sample "research" [sampleDoc] (some 0)) .empty
          = .ok (second, rebuilt)
        ∧ synced.activePairs "research" = rebuilt.activePairs "research"
        ∧ (∀ path, synced.recallable "research" path = rebuilt.recallable "research" path)
        ∧ (∀ path, rebuilt.recallable "research" path = walked .sample [sampleDoc] path)
        ∧ ∀ expected,
            ∃ third after,
              store.alone (knowledgeSync .sample "research" [sampleDoc] true expected) synced
                = .ok (third, after)
              ∧ third.inserted = 0
              ∧ third.tombstoned = 0 :=
  have empty : Corpus .sample (fun _ _ => sampleDoc) (System.quiet .empty) :=
    (Reachable.start
      : Reachable store (walkedCode .sample (fun _ _ => sampleDoc))
          (@unrestricted _ _ _ _ _ Bool _) .empty (.quiet .empty))
  sync_eq_rebuild empty "research" [sampleDoc] (by decide) (by simp [Determined]) (by decide)
    (by decide)

end Knowledge

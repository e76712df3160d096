import Myndaix.Knowledge.Verbs
import Myndaix.Transactions.RelyGuarantee

/-! What the index's transactions promise one another: under its scope's lock a commit finds the
fence that it expects or changes nothing, and an accepted one moves the fence, leaves other scopes
alone, and archives what its walk did not find.
-/

namespace Knowledge

open Interaction Transactions

variable {config : Config} {verb : Verb} {database later : Database}

/-- A change that the verb may make to its scope: rows become active only for documents that its
walk found.
-/
def Verb.makes (verb : Verb) : Change → Prop
  | .bumpGen scope => scope = verb.scope
  | .insertDoc row =>
      row.scope = verb.scope
      ∧ (row.status = .active → row.path ∈ verb.docs.map DocRecord.path)

/-- What an accepted commit does. -/
structure Accepts (verb : Verb) (database later : Database) : Prop where
  expected : ∀ fence, verb.expectFence = some fence → database.fence verb.scope = fence
  moved : database.fence verb.scope < later.fence verb.scope
  others : ∀ scope, database.fence scope ≤ later.fence scope
  elsewhere : ∀ scope, scope ≠ verb.scope → SameScope scope database later
  deleted
    : verb.tombstones = true
      → ∀ path, path ∉ verb.docs.map DocRecord.path → later.active verb.scope path = false

/-- The commits of the index: accepted, or without any change. -/
def Commits (verb : Verb) (reply : Reply) (database later : Database) : Prop :=
  if reply.accepted then Accepts verb database later else later = database

/-- What others do to the tables under a transaction that holds these locks. -/
def Rely (config : Config) (held : List Int) (database later : Database) : Prop :=
  (∀ scope, config.hashtext scope ∈ held → SameScope scope database later)
  ∧ (Sequenced database → Sequenced later)

theorem Rely.refl (config : Config) (held : List Int) (database : Database)
    : Rely config held database database :=
  ⟨fun scope _ => SameScope.refl scope database, id⟩

theorem Rely.trans {held : List Int} {first second third : Database}
    (earlier : Rely config held first second) (latest : Rely config held second third)
    : Rely config held first third :=
  ⟨fun scope locked => (earlier.1 scope locked).trans (latest.1 scope locked),
    latest.2 ∘ earlier.2⟩

section View

/-- Changes of one scope leave the others, by induction on them. -/
theorem view_elsewhere {changes : List Change} (makes : ∀ change ∈ changes, verb.makes change)
    {scope : String} (other : scope ≠ verb.scope)
    : SameScope scope database (store.view database changes) := by
  induction changes generalizing database with
  | nil => exact SameScope.refl scope database
  | cons change changes ih =>
      have made := makes change List.mem_cons_self
      refine SameScope.trans ?_ (ih (fun next mem => makes next (List.mem_cons_of_mem _ mem)))
      cases change with
      | bumpGen bumped =>
          obtain rfl : bumped = verb.scope := made
          exact ⟨docsOf_bump database _ _, by simp [genOf_bump, Ne.symm other]⟩
      | insertDoc row =>
          have own : row.scope ≠ scope := made.1 ▸ Ne.symm other
          exact ⟨by simp [docsOf_insert, own], genOf_insert database row scope⟩

/-- A document that the walk did not find ends inactive if it was so before or is archived on
the way, by induction on the changes.
-/
theorem view_inactive {changes : List Change} (sequenced : Sequenced database)
    (makes : ∀ change ∈ changes, verb.makes change) {path : String}
    (missing : path ∉ verb.docs.map DocRecord.path)
    (gone
      : database.active verb.scope path = false
        ∨ ∃ row,
            Change.insertDoc row ∈ changes ∧ row.scope = verb.scope ∧ row.path = path)
    : (store.view database changes).active verb.scope path = false := by
  induction changes generalizing database with
  | nil =>
      rcases gone with inactive | ⟨row, mem, _⟩
      · exact inactive
      · cases mem
  | cons change changes ih =>
      refine ih (sequenced.apply change)
        (fun next mem => makes next (List.mem_cons_of_mem _ mem)) ?_
      have made := makes change List.mem_cons_self
      cases change with
      | bumpGen scope =>
          refine gone.imp (fun inactive => ?_) ?_
          · simpa [Database.active] using inactive
          · rintro ⟨row, mem, own⟩
            exact ⟨row, (List.mem_cons.mp mem).resolve_left (by simp), own⟩
      | insertDoc row =>
          rw [Database.active, current?_insert sequenced]
          by_cases here : row.scope = verb.scope ∧ row.path = path
          · have idle : row.status ≠ .active := fun active => missing (here.2 ▸ made.2 active)
            exact Or.inl (by simp [here, idle])
          · rw [if_neg here]
            refine gone.imp id ?_
            rintro ⟨other, mem, own⟩
            rcases List.mem_cons.mp mem with same | rest
            · cases same
              exact absurd own here
            · exact ⟨other, rest, own⟩

end View

/-- How far a commit has come after its gate: the changes so far, on rows whose fence was the
expected one.
-/
structure Committing (verb : Verb) (changes : List Change) (rows : Database) : Prop where
  sequenced : Sequenced rows
  expected : ∀ fence, verb.expectFence = some fence → rows.fence verb.scope = fence
  bumped : ∃ inserts, changes = .bumpGen verb.scope :: inserts
  makes : ∀ change ∈ changes, verb.makes change

theorem Committing.moved {held : List Int} {changes : List Change} {rows later : Database}
    (committing : Committing verb changes rows) (locked : config.hashtext verb.scope ∈ held)
    (moved : Rely config held rows later)
    : Committing verb changes later where
  sequenced := moved.2 committing.sequenced
  expected fence expects :=
    (moved.1 verb.scope locked).fence.trans (committing.expected fence expects)
  bumped := committing.bumped
  makes := committing.makes

theorem Committing.insert {changes : List Change} {rows : Database} {row : KnowledgeDoc}
    (committing : Committing verb changes rows) (made : verb.makes (.insertDoc row))
    : Committing verb (changes ++ [Change.insertDoc row]) rows where
  sequenced := committing.sequenced
  expected := committing.expected
  bumped := by
    obtain ⟨inserts, rfl⟩ := committing.bumped
    exact ⟨inserts ++ [.insertDoc row], rfl⟩
  makes change mem := by
    rcases List.mem_append.mp mem with old | new
    · exact committing.makes change old
    · rw [List.mem_singleton.mp new]
      exact made

/-- What a commit has done when it is through. -/
theorem Committing.accepts {changes : List Change} {rows : Database}
    (committing : Committing verb changes rows)
    (gone
      : verb.tombstones = true
        → ∀ path,
            path ∉ verb.docs.map DocRecord.path
            → rows.active verb.scope path = true
            → ∃ row, Change.insertDoc row ∈ changes ∧ row.scope = verb.scope ∧ row.path = path)
    : Accepts verb rows (store.view rows changes) where
  expected := committing.expected
  moved := by
    obtain ⟨inserts, rfl⟩ := committing.bumped
    have bumped := fence_bump rows verb.scope
    have kept := fence_view_le (store.apply (.bumpGen verb.scope) rows) inserts verb.scope
    rw [Store.view_cons]
    omega
  others scope := fence_view_le rows changes scope
  elsewhere scope other := view_elsewhere committing.makes other
  deleted tombstones path missing := by
    refine view_inactive committing.sequenced committing.makes missing ?_
    by_cases active : rows.active verb.scope path = true
    · exact Or.inr (gone tombstones path missing active)
    · exact Or.inl (by simpa using active)

/-- The index's transactions as a discipline: accepted commits hold their scope's lock. -/
def protocol {Client : Type} (config : Config)
    : Discipline store (code config)
        (@unrestricted Database Int Change Empty Verb Client Reply) where
  invariant := Sequenced
  rely _ := Rely config
  permits _ _ _ _ := True
  post verb _ reply place :=
    Commits verb reply place.committed (store.viewAt place)
    ∧ (reply.accepted = true → config.hashtext verb.scope ∈ place.locks)
  rely_refl _ := Rely.refl config
  rely_trans := Rely.trans
  invariant_commit sequenced _ := sequenced.view _
  rely_commit := by
    intro system next client session reply other watcher _ _ _ ends _ disjoint
    refine ⟨fun scope locked => ?_, fun sequenced => sequenced.view _⟩
    obtain ⟨commits, guarded⟩ := ends
    unfold Commits at commits
    split at commits
    · rename_i accepted
      refine commits.elsewhere scope ?_
      rintro rfl
      exact disjoint _ locked (guarded accepted)
    · rw [show store.viewAt (system.place session) = system.committed from commits]
      exact SameScope.refl scope system.committed

variable {result : SyncResult}

section Rules

variable {first rows : Database} {held : List Int} {changes : List Change} {Answer : Type}
  {post : Answer → Place Database Int Change → Prop}

/-- A transaction of the index among the others. -/
def indexSetting (config : Config)
    : Setting (Action Int Change Empty) (Action.Answer Database)
        (Place Database Int Change) :=
  store.amid (Rely config) (Rely.refl config) Rely.trans (fun _ _ => True)

theorem look_rule {fact : Database → Prop} {next : Database → Txn Answer}
    (stable : Stable (Rely config) held fact) (holds : fact rows)
    (continues
      : ∀ rows,
          fact rows
          → (next (store.view rows changes)).Ensures (indexSetting config) post
              ⟨rows, held, changes⟩)
    : (look >>= next).Ensures (indexSetting config) post ⟨rows, held, changes⟩ :=
  Ensures.look stable holds (fun _ _ => trivial) continues

/-- A commit after its gate, with the rows of its scope as they were then. -/
def Writing (verb : Verb) (first : Database) (changes : List Change) (rows : Database) : Prop :=
  Committing verb changes rows ∧ SameScope verb.scope first rows

theorem Stable.writing (locked : config.hashtext verb.scope ∈ held)
    : Stable (Rely config) held (Writing verb first changes) :=
  fun _ _ moved writing =>
    ⟨writing.1.moved locked moved, writing.2.trans (moved.1 verb.scope locked)⟩

/-- A write of the verb's scope keeps writing. -/
theorem write_rule {row : KnowledgeDoc} {next : Unit → Txn Answer}
    (locked : config.hashtext verb.scope ∈ held) (here : Writing verb first changes rows)
    (made : verb.makes (.insertDoc row))
    (continues
      : ∀ rows,
          Writing verb first (changes ++ [Change.insertDoc row]) rows
          → (next ()).Ensures (indexSetting config) post
              ⟨rows, held, changes ++ [Change.insertDoc row]⟩)
    : (write (.insertDoc row) >>= next).Ensures (indexSetting config) post
        ⟨rows, held, changes⟩ :=
  Ensures.write (Stable.writing locked) here (fun _ _ => trivial)
    (fun rows here => continues rows ⟨here.1.insert made, here.2⟩)

/-- The place of a commit that has written `inserts` and answers without conflict. -/
def Wrote (verb : Verb) (first : Database) (held : List Int) (changes : List Change)
    (result : SyncResult) (place : Place Database Int Change)
    : Prop :=
  result.conflict = false
  ∧ ∃ rows, place = ⟨rows, held, changes⟩ ∧ Writing verb first changes rows

theorem archived_made (verb : Verb) (path : String)
    : verb.makes (.insertDoc (archived verb.scope path)) :=
  ⟨rfl, by simp [archived]⟩

/-- The tombstones of these documents. -/
def tombstones (scope : String) (paths : List String) : List Change :=
  paths.map (fun path => .insertDoc (archived scope path))

/-- Tombstoning writes one row for each document, by induction on them. -/
theorem tombstone_ensures {paths : List String} (locked : config.hashtext verb.scope ∈ held)
    (here : Writing verb first changes rows) (proceeds : result.conflict = false)
    : (tombstone verb.scope result paths).Ensures (indexSetting config)
        (Wrote verb first held (changes ++ tombstones verb.scope paths)) ⟨rows, held, changes⟩ := by
  unfold tombstone
  induction paths generalizing result changes rows with
  | nil =>
      refine Ensures.finish (Stable.writing locked) here (fun rows here => ⟨proceeds, rows, ?_⟩)
      simpa [tombstones] using here
  | cons path paths ih =>
      simp only [Program.fold, Program.bind_assoc]
      refine write_rule locked here (archived_made verb path) (fun rows here => ?_)
      have counted : { result with tombstoned := result.tombstoned + 1 }.conflict = false :=
        proceeds
      refine Program.Ensures.weaken (ih here counted) (fun last place wrote => ?_)
      simpa [tombstones] using wrote

/-- The place of a commit that has written some rows more. -/
def WroteMore (verb : Verb) (first : Database) (held : List Int) (changes : List Change)
    (result : SyncResult) (place : Place Database Int Change)
    : Prop :=
  ∃ inserts, Wrote verb first held (changes ++ inserts) result place

theorem Wrote.more {place : Place Database Int Change}
    (wrote : Wrote verb first held changes result place)
    : WroteMore verb first held changes result place :=
  ⟨[], by simpa using wrote⟩

theorem WroteMore.after {inserts : List Change} {place : Place Database Int Change}
    (wrote : WroteMore verb first held (changes ++ inserts) result place)
    : WroteMore verb first held changes result place := by
  obtain ⟨more, wrote⟩ := wrote
  exact ⟨inserts ++ more, by simpa using wrote⟩

/-- Answering writes nothing more. -/
theorem done_ensures (locked : config.hashtext verb.scope ∈ held)
    (proceeds : result.conflict = false) (here : Writing verb first changes rows)
    : (Program.done result : Txn SyncResult).Ensures (indexSetting config)
        (WroteMore verb first held changes) ⟨rows, held, changes⟩ :=
  Ensures.finish (Stable.writing locked) here
    (fun rows here => Wrote.more ⟨proceeds, rows, rfl, here⟩)

/-- Inserting a walked document writes its row, or nothing if it is too large. -/
theorem insertActive_rule {doc : DocRecord} {next : Bool → Txn Answer}
    (locked : config.hashtext verb.scope ∈ held) (walked : doc ∈ verb.docs)
    (here : Writing verb first changes rows)
    (stored
      : ∀ rows,
          Writing verb first (changes ++ [.insertDoc (doc.row verb.scope)]) rows
          → (next true).Ensures (indexSetting config) post
              ⟨rows, held, changes ++ [.insertDoc (doc.row verb.scope)]⟩)
    (skipped : (next false).Ensures (indexSetting config) post ⟨rows, held, changes⟩)
    : (insertActive config verb.scope doc >>= next).Ensures (indexSetting config) post
        ⟨rows, held, changes⟩ := by
  unfold insertActive
  split
  · exact skipped
  · simp only [Program.bind_assoc]
    exact write_rule locked here ⟨rfl, fun _ => List.mem_map_of_mem walked⟩ stored

/-- A loop over walked documents, each of which writes some rows, by induction on them. -/
theorem docs_ensures {body : SyncResult → DocRecord → Txn SyncResult} {docs : List DocRecord}
    (locked : config.hashtext verb.scope ∈ held) (walked : ∀ doc ∈ docs, doc ∈ verb.docs)
    (each
      : ∀ {result doc changes rows},
          doc ∈ verb.docs → result.conflict = false → Writing verb first changes rows
          → (body result doc).Ensures (indexSetting config)
              (WroteMore verb first held changes) ⟨rows, held, changes⟩)
    (here : Writing verb first changes rows) (proceeds : result.conflict = false)
    : (Program.fold body result docs).Ensures (indexSetting config)
        (WroteMore verb first held changes) ⟨rows, held, changes⟩ := by
  induction docs generalizing result changes rows with
  | nil =>
      exact Ensures.finish (Stable.writing locked) here
        (fun rows here => Wrote.more ⟨proceeds, rows, rfl, here⟩)
  | cons doc docs ih =>
      refine (each (walked doc List.mem_cons_self) proceeds here).bind ?_
      rintro next _ ⟨inserts, proceeds', rows, rfl, here⟩
      refine (ih (fun other mem => walked other (List.mem_cons_of_mem doc mem)) here
        proceeds').weaken (fun last place wrote => wrote.after)

/-- One document of a sync. -/
theorem syncDoc_ensures {doc : DocRecord} {cur : Database}
    (locked : config.hashtext verb.scope ∈ held) (walked : doc ∈ verb.docs)
    (proceeds : result.conflict = false) (here : Writing verb first changes rows)
    : (syncDoc config verb.scope cur result doc).Ensures (indexSetting config)
        (WroteMore verb first held changes) ⟨rows, held, changes⟩ := by
  simp only [syncDoc]
  split
  · exact done_ensures locked proceeds here
  · refine insertActive_rule locked walked here (fun rows here => ?_) ?_
    · exact (done_ensures locked proceeds here).weaken (fun last place wrote => wrote.after)
    · simp only [Bool.false_eq_true, if_false]
      split
      · refine Program.Ensures.weaken (tombstone_ensures locked here ?_)
          (fun last place wrote => ⟨_, wrote⟩)
        exact proceeds
      · exact done_ensures locked proceeds here

/-- One document of a rebuild. -/
theorem reingestDoc_ensures {doc : DocRecord} (locked : config.hashtext verb.scope ∈ held)
    (walked : doc ∈ verb.docs) (proceeds : result.conflict = false)
    (here : Writing verb first changes rows)
    : (reingestDoc config verb.scope result doc).Ensures (indexSetting config)
        (WroteMore verb first held changes) ⟨rows, held, changes⟩ := by
  unfold reingestDoc
  refine insertActive_rule locked walked here (fun rows here => ?_) ?_
  · exact (done_ensures locked proceeds here).weaken (fun last place wrote => wrote.after)
  · exact done_ensures locked proceeds here

end Rules

end Knowledge

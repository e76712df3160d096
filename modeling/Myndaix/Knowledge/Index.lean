import Mathlib.Data.List.Dedup
import Mathlib.Data.List.Induction
import Myndaix.Transactions.Semantics

/-! The knowledge index: append-only document rows, the generation of each scope, and the views
and the fence that are computed from them.
-/

namespace Knowledge

open Transactions

inductive DocStatus : Type where
  | active
  | archived
deriving DecidableEq, Repr

/-- What a walk finds of one document. -/
structure DocRecord where
  path : String
  title : String
  tags : String
  body : String
  contentSha : String
  lossy : Bool
deriving DecidableEq, Repr

/-- A row of `knowledge_doc`; `seq` is drawn when the row is inserted. -/
structure KnowledgeDoc where
  seq : Nat
  scope : String
  path : String
  title : String
  tags : String
  body : String
  contentSha : String
  status : DocStatus
  lossy : Bool
deriving DecidableEq, Repr

/-- A row of `knowledge_scope_gen`. -/
structure ScopeGen where
  scope : String
  gen : Nat
deriving DecidableEq, Repr

/-- The knowledge tables and the next value of the sequence behind `seq`. -/
structure Database where
  docs : List KnowledgeDoc
  gens : List ScopeGen
  nextSeq : Nat
deriving DecidableEq, Repr

def Database.empty : Database :=
  ⟨[], [], 1⟩

/-- The row with the highest `seq`. -/
def newest (rows : List KnowledgeDoc) : Option KnowledgeDoc :=
  rows.foldl (fun best row => if best.all (fun best => best.seq < row.seq) then some row else best)
    none

/-- `COALESCE(MAX(seq), 0)`. -/
def maxSeq (rows : List KnowledgeDoc) : Nat :=
  rows.foldr (fun row highest => max row.seq highest) 0

namespace Database

variable (database : Database) (scope : String)

def docsOf : List KnowledgeDoc :=
  database.docs.filter (fun row => row.scope = scope)

def genOf : Nat :=
  ((database.gens.find? (fun row => row.scope = scope)).map ScopeGen.gen).getD 0

/-- `_KNOWLEDGE_GEN_SQL`: the generation plus the highest `seq`. -/
def fence : Nat :=
  database.genOf scope + maxSeq (database.docsOf scope)

/-- `knowledge_doc_current`: the newest row of a document. -/
def current? (path : String) : Option KnowledgeDoc :=
  newest ((database.docsOf scope).filter (fun row => row.path = path))

/-- `knowledge_doc_active`: whether recall can find the document. -/
def active (path : String) : Bool :=
  (database.current? scope path).any (fun row => row.status = .active)

/-- The documents that a scope ever had. -/
def paths : List String :=
  ((database.docsOf scope).map KnowledgeDoc.path).dedup

end Database

/-- The changes that the verbs' statements make; the `seq` of an inserted row is overwritten. -/
inductive Change : Type where
  | bumpGen (scope : String)
  | insertDoc (row : KnowledgeDoc)
deriving DecidableEq, Repr

def Change.apply (change : Change) (database : Database) : Database :=
  match change with
  | .bumpGen scope =>
      if database.gens.any (fun row => row.scope = scope) then
        {
          database with
          gens := database.gens.map
            (fun row => if row.scope = scope then { row with gen := row.gen + 1 } else row)
        }
      else { database with gens := database.gens ++ [⟨scope, 1⟩] }
  | .insertDoc row =>
      {
        database with
        docs := database.docs ++ [{ row with seq := database.nextSeq }],
        nextSeq := database.nextSeq + 1
      }

/-- The knowledge tables as a store. Advisory locks are its only keys, and none of them is a
row.
-/
def store : Store Database Int Change where
  apply := Change.apply
  present _ _ := false

/-- The sequence is ahead of every row. -/
def Sequenced (database : Database) : Prop :=
  ∀ row ∈ database.docs, row.seq < database.nextSeq

theorem Sequenced.empty : Sequenced .empty := by
  intro row mem
  cases mem

/-- A scope has the same rows and the same generation. -/
def SameScope (scope : String) (database later : Database) : Prop :=
  later.docsOf scope = database.docsOf scope ∧ later.genOf scope = database.genOf scope

theorem SameScope.refl (scope : String) (database : Database)
    : SameScope scope database database :=
  ⟨rfl, rfl⟩

theorem SameScope.trans {scope : String} {first second third : Database}
    (earlier : SameScope scope first second) (latest : SameScope scope second third)
    : SameScope scope first third :=
  ⟨latest.1.trans earlier.1, latest.2.trans earlier.2⟩

section SameScope

variable {scope : String} {database later : Database} (same : SameScope scope database later)

include same

theorem SameScope.fence : later.fence scope = database.fence scope := by
  rw [Database.fence, Database.fence, same.1, same.2]

theorem SameScope.current? (path : String)
    : later.current? scope path = database.current? scope path := by
  rw [Database.current?, Database.current?, same.1]

theorem SameScope.active (path : String)
    : later.active scope path = database.active scope path := by
  rw [Database.active, Database.active, same.current?]

end SameScope

section Newest

theorem newest_append (rows : List KnowledgeDoc) (row : KnowledgeDoc)
    : newest (rows ++ [row])
      = if (newest rows).all (fun best => best.seq < row.seq) then some row else newest rows := by
  simp only [newest, List.foldl_append, List.foldl_cons, List.foldl_nil]
  congr

/-- The newest row is one of the rows, by induction on them from the back. -/
theorem newest_mem {rows : List KnowledgeDoc} {row : KnowledgeDoc}
    (found : newest rows = some row)
    : row ∈ rows := by
  induction rows using List.reverseRecOn with
  | nil => cases found
  | append_singleton rows last ih =>
      rw [newest_append] at found
      split at found
      · simp [Option.some.inj found]
      · exact List.mem_append_left _ (ih found)

theorem maxSeq_append (rows : List KnowledgeDoc) (row : KnowledgeDoc)
    : maxSeq (rows ++ [row]) = max (maxSeq rows) row.seq := by
  induction rows with
  | nil => simp [maxSeq]
  | cons first rows ih =>
      simp only [maxSeq, List.cons_append, List.foldr_cons] at ih ⊢
      rw [ih, Nat.max_assoc]

end Newest

section Apply

variable (database : Database)

theorem genOf_bump (scope other : String)
    : (store.apply (.bumpGen scope) database).genOf other
      = database.genOf other + if scope = other then 1 else 0 := by
  simp only [store, Change.apply]
  by_cases there : database.gens.any (fun row => row.scope = scope) = true
  · have kept (row : ScopeGen)
        : (if row.scope = scope then { row with gen := row.gen + 1 } else row).scope
          = row.scope := by
      split <;> rfl
    simp only [there, if_true, Database.genOf, List.find?_map, Function.comp_def, kept]
    cases found : database.gens.find? (fun row => row.scope = other) with
    | none =>
        have absent : scope ≠ other := by
          rintro rfl
          obtain ⟨row, mem, own⟩ := List.any_eq_true.mp there
          exact List.find?_eq_none.mp found row mem own
        simp [absent]
    | some row =>
        have own : row.scope = other := by simpa using List.find?_some found
        by_cases same : scope = other
        · simp [own, same]
        · simp [own, same, Ne.symm same]
  · simp only [there, Bool.false_eq_true, if_false, Database.genOf, List.find?_append]
    by_cases same : scope = other
    · subst same
      have none_ : database.gens.find? (fun row => row.scope = scope) = none := by
        refine List.find?_eq_none.mpr (fun row mem own => there ?_)
        exact List.any_eq_true.mpr ⟨row, mem, own⟩
      simp [none_]
    · simp [same]

@[simp] theorem docsOf_bump (scope other : String)
    : (store.apply (.bumpGen scope) database).docsOf other = database.docsOf other := by
  simp only [store, Change.apply, Database.docsOf]
  split <;> rfl

@[simp] theorem genOf_insert (row : KnowledgeDoc) (other : String)
    : (store.apply (.insertDoc row) database).genOf other = database.genOf other :=
  rfl

theorem docsOf_insert (row : KnowledgeDoc) (other : String)
    : (store.apply (.insertDoc row) database).docsOf other
      = database.docsOf other
        ++ if row.scope = other then [{ row with seq := database.nextSeq }] else [] := by
  by_cases own : row.scope = other <;> simp [store, Change.apply, Database.docsOf, own]

/-- The sequence stays ahead. -/
theorem Sequenced.apply {database : Database} (sequenced : Sequenced database) (change : Change)
    : Sequenced (store.apply change database) := by
  cases change with
  | bumpGen scope =>
      simp only [store, Change.apply]
      split <;> exact sequenced
  | insertDoc row =>
      intro other mem
      rcases List.mem_append.mp mem with old | new
      · exact Nat.lt_succ_of_lt (sequenced other old)
      · rw [List.mem_singleton.mp new]
        exact Nat.lt_succ_self _

theorem Sequenced.view {database : Database} (sequenced : Sequenced database)
    (changes : List Change)
    : Sequenced (store.view database changes) := by
  induction changes generalizing database with
  | nil => exact sequenced
  | cons change changes ih => exact ih (sequenced.apply change)

/-- An inserted row becomes the current one of its document, and of no other. -/
theorem current?_insert {database : Database} (sequenced : Sequenced database)
    (row : KnowledgeDoc) (scope path : String)
    : (store.apply (.insertDoc row) database).current? scope path
      = if row.scope = scope ∧ row.path = path then some { row with seq := database.nextSeq }
        else database.current? scope path := by
  rw [Database.current?, docsOf_insert]
  by_cases own : row.scope = scope ∧ row.path = path
  · obtain ⟨rfl, rfl⟩ := own
    simp only [if_true, List.filter_append, List.filter_cons, decide_true, List.filter_nil,
      newest_append, and_self]
    rw [if_pos]
    refine (Option.all_eq_true ..).mpr (fun best found => ?_)
    have inside := List.mem_filter.mp (List.mem_filter.mp (newest_mem found)).1
    exact decide_eq_true (sequenced best inside.1)
  · rw [if_neg own]
    by_cases here : row.scope = scope
    · have other : row.path ≠ path := fun same => own ⟨here, same⟩
      simp [here, other, Database.current?]
    · simp [here, Database.current?]

@[simp] theorem current?_bump (scope other path : String)
    : (store.apply (.bumpGen scope) database).current? other path
      = database.current? other path := by
  rw [Database.current?, docsOf_bump, Database.current?]

/-- No change lowers a fence. -/
theorem fence_apply_le (change : Change) (scope : String)
    : database.fence scope ≤ (store.apply change database).fence scope := by
  cases change with
  | bumpGen other =>
      simp only [Database.fence, genOf_bump, docsOf_bump]
      omega
  | insertDoc row =>
      simp only [Database.fence, genOf_insert, docsOf_insert]
      split
      · rw [maxSeq_append]
        omega
      · exact Nat.le_of_eq (by rw [List.append_nil])

theorem fence_view_le (database : Database) (changes : List Change) (scope : String)
    : database.fence scope ≤ (store.view database changes).fence scope := by
  induction changes generalizing database with
  | nil => exact Nat.le_refl _
  | cons change changes ih => exact Nat.le_trans (fence_apply_le database change scope) (ih _)

theorem fence_bump (scope : String)
    : (store.apply (.bumpGen scope) database).fence scope = database.fence scope + 1 := by
  simp only [Database.fence, genOf_bump, docsOf_bump, if_true]
  omega

end Apply

end Knowledge

import Myndaix.Knowledge.Index

/-! The verbs of the knowledge index: reading the fence, and the two commits of a walked corpus,
which run under the scope's advisory lock and are rejected when the fence has moved.
-/

namespace Knowledge

open Interaction Transactions

/-- What the verbs take from outside: PostgreSQL's hash of a scope, whether a document's
`tsvector` is too large to store, and the order in which an unordered query meets documents.
-/
structure Config where
  hashtext : String → Int
  oversize : DocRecord → Bool
  order : List String → List String
  order_perm : ∀ paths, (order paths).Perm paths

abbrev Txn (Answer : Type) : Type :=
  Transaction Database Int Change Empty Answer

/-- What a commit answers. -/
structure SyncResult where
  conflict : Bool
  inserted : Nat
  tombstoned : Nat
  unchanged : Nat
  skippedOversize : List String
deriving DecidableEq, Repr

def SyncResult.conflicted : SyncResult :=
  ⟨true, 0, 0, 0, []⟩

def SyncResult.start : SyncResult :=
  ⟨false, 0, 0, 0, []⟩

def look : Txn Database :=
  .call .look .done

def lock (key : Int) : Txn Unit :=
  .call (.lock key) .done

def write (change : Change) : Txn Unit :=
  .call (.write change) .done

/-- The tombstone of a document. -/
def archived (scope path : String) : KnowledgeDoc :=
  ⟨0, scope, path, "", "", "", "absent", .archived, false⟩

/-- The active row of a document that a walk found. -/
def DocRecord.row (doc : DocRecord) (scope : String) : KnowledgeDoc :=
  ⟨0, scope, doc.path, doc.title, doc.tags, doc.body, doc.contentSha, .active, doc.lossy⟩

/-- Insert an active row within a savepoint; a row that is too large is rolled back and the
transaction goes on.
-/
def insertActive (config : Config) (scope : String) (doc : DocRecord) : Txn Bool :=
  if config.oversize doc then pure false
  else do
    write (.insertDoc (doc.row scope))
    pure true

/-- Insert the tombstones of these documents. -/
def tombstone (scope : String) (result : SyncResult) (paths : List String) : Txn SyncResult :=
  Program.fold
    (fun result path => do
      write (.insertDoc (archived scope path))
      pure { result with tombstoned := result.tombstoned + 1 })
    result paths

/-- One document of a sync: skipped if it is unchanged, and archived if it was active and is
too large by now.
-/
def syncDoc (config : Config) (scope : String) (cur : Database) (result : SyncResult)
    (doc : DocRecord)
    : Txn SyncResult := do
  let prev := cur.current? scope doc.path
  if prev.any (fun row => row.contentSha = doc.contentSha && row.status = .active) then
    pure { result with unchanged := result.unchanged + 1 }
  else if ← insertActive config scope doc then
    pure { result with inserted := result.inserted + 1 }
  else
    let result := { result with skippedOversize := result.skippedOversize ++ [doc.path] }
    if prev.any (fun row => row.status = .active) then tombstone scope result [doc.path]
    else pure result

/-- The conflict gate: an expected fence that is not the current one. -/
def stale (rows : Database) (scope : String) (expectFence : Option Nat) : Bool :=
  expectFence.any (fun expected => rows.fence scope ≠ expected)

/-- Bring the index in step with a walked corpus. -/
def knowledgeSync (config : Config) (scope : String) (docs : List DocRecord)
    (tombstoneMissing : Bool) (expectFence : Option Nat)
    : Txn SyncResult := do
  lock (config.hashtext scope)
  let rows ← look
  if stale rows scope expectFence then pure .conflicted
  else
    write (.bumpGen scope)
    let cur ← look
    let result ← Program.fold (syncDoc config scope cur) .start docs
    if tombstoneMissing then
      tombstone scope result
        ((config.order (cur.paths scope)).filter
          (fun path => cur.active scope path && path ∉ docs.map DocRecord.path))
    else pure result

/-- One document of a rebuild. -/
def reingestDoc (config : Config) (scope : String) (result : SyncResult) (doc : DocRecord)
    : Txn SyncResult := do
  if ← insertActive config scope doc then
    pure { result with inserted := result.inserted + 1 }
  else pure { result with skippedOversize := result.skippedOversize ++ [doc.path] }

/-- Tombstone everything and ingest the walked corpus again. -/
def knowledgeRebuild (config : Config) (scope : String) (docs : List DocRecord)
    (expectFence : Option Nat)
    : Txn SyncResult := do
  lock (config.hashtext scope)
  let rows ← look
  if stale rows scope expectFence then pure .conflicted
  else
    write (.bumpGen scope)
    let cur ← look
    let result ←
      tombstone scope .start ((config.order (cur.paths scope)).filter (cur.active scope))
    Program.fold (reingestDoc config scope) result docs

/-- A verb with its arguments. -/
inductive Verb : Type where
  | knowledgeFence (scope : String)
  | knowledgeSync (scope : String) (docs : List DocRecord) (tombstoneMissing : Bool)
    (expectFence : Option Nat)
  | knowledgeRebuild (scope : String) (docs : List DocRecord) (expectFence : Option Nat)
deriving DecidableEq, Repr

/-- What a verb answers its caller. -/
inductive Reply : Type where
  | fence (value : Nat)
  | result (result : SyncResult)
deriving DecidableEq, Repr

def code (config : Config) : Verb → Txn Reply
  | .knowledgeFence scope => do
      let rows ← look
      return .fence (rows.fence scope)
  | .knowledgeSync scope docs tombstoneMissing expectFence =>
      return .result (← knowledgeSync config scope docs tombstoneMissing expectFence)
  | .knowledgeRebuild scope docs expectFence =>
      return .result (← knowledgeRebuild config scope docs expectFence)

namespace Verb

def scope : Verb → String
  | knowledgeFence scope | knowledgeSync scope .. | knowledgeRebuild scope .. => scope

/-- The documents that the verb's walk found. -/
def docs : Verb → List DocRecord
  | knowledgeFence _ => []
  | knowledgeSync _ docs .. | knowledgeRebuild _ docs .. => docs

def expectFence : Verb → Option Nat
  | knowledgeFence _ => none
  | knowledgeSync _ _ _ expectFence | knowledgeRebuild _ _ expectFence => expectFence

/-- The verb archives documents that its walk did not find. -/
def tombstones : Verb → Bool
  | knowledgeFence _ => false
  | knowledgeSync _ _ tombstoneMissing _ => tombstoneMissing
  | knowledgeRebuild .. => true

end Verb

/-- The answer of a commit that was not rejected. -/
def Reply.accepted : Reply → Bool
  | .fence _ => false
  | .result answer => !answer.conflict

variable {Client : Type}

/-- The index and its clients' open transactions. -/
abbrev IndexSystem (Client : Type) : Type :=
  System Database Int Change Empty Verb Reply Client

/-- The systems that walkers reach from an empty index, in any order of their calls and with
crashes anywhere.
-/
def IndexReachable [DecidableEq Client] (config : Config) : IndexSystem Client → Prop :=
  Reachable store (code config) unrestricted .empty

end Knowledge

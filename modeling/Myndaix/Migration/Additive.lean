import Mathlib.Data.Finset.Insert
import Myndaix.Corpus.Documents
import Myndaix.Migration.Reasons

/-! The gate for migrations: a statement passes only if it has an additive shape. What is done to a
relation that is born in the same deploy passes too.
-/

namespace Migration

open Corpus (fitting)
open Inbox (Str)
open Outcomes (strip)
open Patterns
open Regex (begins search)

-- Names

def resolvableTable (name : Str) : Bool :=
  name ≠ "qi".toList && !(name.splitOn '.').contains "qi".toList

/-- ASCII capitals to small letters. -/
def asciiLower (char : Char) : Char :=
  if char.isUpper then char.toLower else char

def pgFold (ident : Str) : Str :=
  fitting 63 (ident.map asciiLower)

/-- Whether a relation is born in this deploy; `prevObjects` are the relations before it, where they
are known.
-/
def newThisDeploy (name : Str) (created : Finset Str) (prevObjects : Option (Finset Str)) : Bool :=
  if !resolvableTable name then false
  else
    match prevObjects with
    | some prevObjects => pgFold ((name.splitOn '.').getLastD []) ∉ prevObjects
    | none => name ∈ created

section Gate

variable (isWord : Char → Bool)

def additiveAlterTableClause (clause : Str) : Bool :=
  let clause := strip clause
  if begins (leading isWord (phrase ["ADD", "COLUMN"])) clause then
    if search (inlineTightening isWord) clause then false
    else if search (NOT_NULL_RE isWord) clause && !search (GENERATED_RE isWord) clause
        && (!search (DEFAULT_RE isWord) clause || search (NULL_DEFAULT_RE isWord) clause) then
      false
    else true
  else if begins (leading isWord (word "INHERIT")) clause then true
  else if search (setDefault isWord) clause && !search (NULL_DEFAULT_RE isWord) clause then true
  else false

def isAdditive (stmt : Str) (allowRoutine : Bool) (created : Finset Str)
    (prevObjects : Option (Finset Str)) (linked : Bool) : Bool :=
  let s := strip stmt
  let isNew := fun name => newThisDeploy name created prevObjects
  if s = [] then true
  else if search (DBLINK_RE isWord) s then false
  else if allowRoutine
      && (search (CREATE_ROUTINE_RE isWord) s || search (CREATE_BEHAVIORAL_RE isWord) s
        || search (DROP_ROUTINE_RE isWord) s) then
    true
  else if begins (leading isWord (word "CREATE")) s then
    if begins (leading isWord (phrase ["CREATE", "OR", "REPLACE"])) s then
      match replacedView s with
      | some view => isNew view
      | none => false
    else if begins (uniqueIndex isWord) s then
      match targetAfterOn isWord s with
      | some target => !linked && isNew target
      | none => false
    else
      match partitionOf isWord s with
      | some parent => isNew parent && begins (ADDITIVE_CREATE_RE isWord) s
      | none => begins (ADDITIVE_CREATE_RE isWord) s
  else if begins (leading isWord (phrase ["ALTER", "TABLE"])) s then
    match alterTable s with
    | none => false
    | some table =>
        match attachPartition table.stop.after with
        | some child => isNew table.group && isNew child
        | none =>
            if !linked && isNew table.group then true
            else (topLevelClauses table.stop.after).all (additiveAlterTableClause isWord)
  else if begins (leading isWord (phrase ["ALTER", "TYPE"])) s then
    match (alterType.ends (Place.start s)).head? with
    | none => false
    | some place =>
        (topLevelClauses place.after).all fun clause => begins (addValue isWord) (strip clause)
  else if begins (leading isWord (phrase ["COMMENT", "ON"])) s then true
  else if begins (insertOrUpdate isWord) s then !search (whole isWord (word "RETURNING")) s
  else if begins (leading isWord (word "SELECT")) s then
    if !search (locking isWord) s then false else !(beforeFrom isWord s).contains '('
  else false

/-- The name of an unconditional `CREATE TABLE`, once it has been checked. -/
def register (created : Finset Str) (stmt : Str) : Finset Str :=
  match createTableName isWord stmt with
  | some name => if resolvableTable name then insert name created else created
  | none => created

/-- The loop of `lint_file` over the stripped statements, behind those that have created these
names.
-/
def lintFrom (fileName : Str) (allowRoutine : Bool) (prevObjects : Option (Finset Str))
    (linked : Bool)
    : Finset Str → List Str → List Str
  | _, [] => []
  | created, stmt :: rest =>
      if stmt = [] then lintFrom fileName allowRoutine prevObjects linked created rest
      else
        (if isAdditive isWord stmt allowRoutine created prevObjects linked then []
          else
            [fileName ++ ": NON-ADDITIVE — ".toList ++ rejectReason isWord stmt allowRoutine
              ++ "\n    ".toList ++ stmt.take 140])
          ++ lintFrom fileName allowRoutine prevObjects linked (register isWord created stmt) rest

def lintStatements (fileName : Str) (allowRoutine : Bool) (prevObjects : Option (Finset Str))
    (linked : Bool) (stmts : List Str) : List Str :=
  lintFrom isWord fileName allowRoutine prevObjects linked ∅ stmts

end Gate

end Migration

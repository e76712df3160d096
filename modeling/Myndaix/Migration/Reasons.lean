import Myndaix.Migration.Expressions

/-! What a rejected statement is told: the first rule for contractions that it falls under. -/

namespace Migration

open Capture (notAhead someSpaces wordEdge)
open Inbox (Str)
open Patterns
open Regex (choice literal optional repeated search sequence)

-- Clauses

/-- The loop of `_top_level_clauses`, inside this many parentheses and behind the begin of a clause.
-/
def clausesFrom (depth : Nat) (clause : Str) : Str → List Str
  | [] => [clause]
  | char :: rest =>
      let depth := if char = '(' then depth + 1 else if char = ')' then depth - 1 else depth
      if char = ',' && depth = 0 then clause :: clausesFrom depth [] rest
      else clausesFrom depth (clause ++ [char]) rest

def topLevelClauses (stmt : Str) : List Str :=
  clausesFrom 0 [] stmt

-- Rules

section Rules

variable (isWord : Char → Bool)

def addColumnNotNullNoDefault (stmt : Str) : Bool :=
  search (ADD_COL_RE isWord) stmt
    && (topLevelClauses stmt).any fun clause =>
        search (ADD_COL_RE isWord) clause && search (NOT_NULL_RE isWord) clause
          && !search (DEFAULT_RE isWord) clause && !search (GENERATED_RE isWord) clause

/-- `\bDROP\s+(?:IF\s+EXISTS\s+)?(?!NOT\s+NULL\b)\S`. -/
def dropName : Regex Char :=
  sequence
    [wordEdge isWord, spaced (word "DROP"), optional (spaced (phrase ["IF", "EXISTS"])),
      notAhead (.seq (phrase ["NOT", "NULL"]) (wordEdge isWord)), solid]

def dropColumn (stmt : Str) : Bool :=
  search (ALTER_TABLE_RE isWord) stmt
    && (search (whole isWord (phrase ["DROP", "COLUMN"])) stmt || search (dropName isWord) stmt)

def dropDefault (stmt : Str) : Bool :=
  search (ALTER_TABLE_RE isWord) stmt && search (whole isWord (phrase ["DROP", "DEFAULT"])) stmt

def addConstraintTightening (stmt : Str) : Bool :=
  search (ALTER_TABLE_RE isWord) stmt
    && (topLevelClauses stmt).any (search (ADD_TIGHTENING_RE isWord))

/-- `\bALTER\s+SEQUENCE\b.*\bRESTART\b`. -/
def sequenceRestart : Regex Char :=
  sequence
    [whole isWord (phrase ["ALTER", "SEQUENCE"]), .many (.one (· ≠ '\n')),
      whole isWord (word "RESTART")]

/-- `\bSET\s+DEFAULT\s+\(?\s*NULL\b`. -/
def setDefaultNull : Regex Char :=
  whole isWord
    (sequence [spaced (phrase ["SET", "DEFAULT"]), optional (literal ['(']), blanks, word "NULL"])

/-- `\bRENAME\s+(?:COLUMN\s+|CONSTRAINT\s+|ATTRIBUTE\s+)?\S+\s+TO\b`. -/
def renamePart : Regex Char :=
  whole isWord
    (sequence
      [spaced (word "RENAME"),
        optional
          (choice [spaced (word "COLUMN"), spaced (word "CONSTRAINT"), spaced (word "ATTRIBUTE")]),
        spaced (repeated solid), word "TO"])

/-- `\bALTER\s+(?:COLUMN\s+|ATTRIBUTE\s+)?\S+\s+(SET\s+DATA\s+)?TYPE\b`. -/
def typeChange : Regex Char :=
  whole isWord
    (sequence
      [spaced (word "ALTER"), optional (.alt (spaced (word "COLUMN")) (spaced (word "ATTRIBUTE"))),
        spaced (repeated solid), optional (spaced (phrase ["SET", "DATA"])), word "TYPE"])

/-- A rule: whether it is one of `_ROUTINE_CHECKERS`, its check, and what it says. -/
structure Rule where
  routine : Bool
  checks : Str → Bool
  why : String

/-- A rule that searches for words in a row. -/
def phraseRule (letters : List String) (why : String) : Rule :=
  { routine := false, checks := search (whole isWord (phrase letters)), why := why }

def RULES : List Rule :=
  [ { routine := false, checks := search (DYNAMIC_DDL_RE isWord),
      why := "DO/EXECUTE/CALL — dynamic DDL the linter can't inspect (a contraction can hide in the body); fail-closed" },
    { routine := true, checks := search (CREATE_ROUTINE_RE isWord),
      why := "CREATE FUNCTION/PROCEDURE — opaque body can run DDL when invoked (a stripped body defeats inspection); fail-closed" },
    { routine := true, checks := search (CREATE_BEHAVIORAL_RE isWord),
      why := "CREATE RULE/TRIGGER — rewrites/changes DML behavior opaquely and survives a code-revert; fail-closed" },
    { routine := true, checks := search (DROP_ROUTINE_RE isWord),
      why := "DROP FUNCTION/PROCEDURE/ROUTINE/RULE/TRIGGER — old code may depend on it" },
    phraseRule isWord ["TRUNCATE"]
      "TRUNCATE — destroys rows a code-revert cannot restore (old code is stranded with an empty table)",
    phraseRule isWord ["DROP", "TABLE"] "DROP TABLE — old code reads a table that's gone",
    { routine := false,
      checks := search (whole isWord
        (.seq (spaced (word "DROP")) (.alt (phrase ["MATERIALIZED", "VIEW"]) (word "VIEW")))),
      why := "DROP VIEW — old code reads a relation that's gone" },
    { routine := false,
      checks := search (whole isWord
        (.seq (spaced (word "DROP")) (choice [word "SEQUENCE", word "SCHEMA", word "TYPE"]))),
      why := "DROP SEQUENCE/SCHEMA/TYPE — old code depends on it" },
    phraseRule isWord ["DROP", "CONSTRAINT"]
      "DROP CONSTRAINT — relaxes/changes a guarantee old code assumes",
    phraseRule isWord ["DROP", "ATTRIBUTE"]
      "ALTER TYPE DROP ATTRIBUTE — old code reads a composite-type field that's gone (r8, live-PG confirmed)",
    { routine := false, checks := dropColumn isWord,
      why := "DROP COLUMN (optional COLUMN kw) — old code reads a column that's gone" },
    { routine := false, checks := dropDefault isWord,
      why := "DROP DEFAULT — a NOT NULL column with no default breaks old INSERTs that omit it after a revert" },
    phraseRule isWord ["DETACH", "PARTITION"]
      "DETACH PARTITION — removes rows from the parent table old code queries",
    phraseRule isWord ["NO", "INHERIT"]
      "NO INHERIT — removes a child's rows from the parent old code queries",
    { routine := false, checks := search (sequenceRestart isWord),
      why := "ALTER SEQUENCE RESTART — reissued IDs can collide (PK violation) with rows old code inserted (kilabz HIGH; oracle deems acceptable — kept per gate)" },
    phraseRule isWord ["CREATE", "UNIQUE", "INDEX"]
      "CREATE UNIQUE INDEX — tightens uniqueness; reverted old code can insert a duplicate and violate it",
    { routine := false, checks := search (setDefaultNull isWord),
      why := "SET DEFAULT NULL — removes a column's effective default (like DROP DEFAULT); breaks old INSERTs on a NOT NULL column after a revert" },
    phraseRule isWord ["SET", "GENERATED", "ALWAYS"]
      "SET GENERATED ALWAYS — rejects the explicit-value INSERTs old code issues for the column",
    phraseRule isWord ["RENAME", "VALUE"]
      "ALTER TYPE RENAME VALUE — an enum label old code still writes/compares is gone (r8/fleet, live-PG confirmed)",
    { routine := false, checks := search (renamePart isWord),
      why := "RENAME COLUMN/CONSTRAINT/ATTRIBUTE — old code reads the old name" },
    phraseRule isWord ["RENAME", "TO"] "RENAME TABLE — old code reads the old name",
    { routine := false, checks := search (typeChange isWord),
      why := "column/attribute TYPE change — old code mis-reads the type" },
    phraseRule isWord ["SET", "NOT", "NULL"]
    "SET NOT NULL — breaks old writes that omit the column",
    { routine := false, checks := addConstraintTightening isWord,
      why := "ADD CONSTRAINT (not NOT VALID) — tightens a guarantee old code doesn't honor" },
    { routine := false, checks := addColumnNotNullNoDefault isWord,
      why :=
        "ADD COLUMN NOT NULL without DEFAULT — breaks old INSERTs / fails on a populated table" } ]

/-- What is said where no rule applies. -/
def GENERIC_REASON : String :=
  "not a provably-additive statement (allowlist gate, fail-closed): only CREATE-of-a-new-object, "
    ++ "CREATE OR REPLACE VIEW, ALTER TABLE ADD COLUMN / INHERIT (ATTACH PARTITION only when both "
    ++ "parent and child are new this deploy), ALTER TYPE ADD VALUE|ATTRIBUTE, COMMENT, and "
    ++ "INSERT/UPDATE/SELECT data-DML auto-pass; else needs "
    ++ "RECONCILE_ALLOW_CONTRACTION (or --allow-routine for a blessed function/trigger)"

def rejectReason (stmt : Str) (allowRoutine : Bool) : Str :=
  match (RULES isWord).find? fun rule => !(allowRoutine && rule.routine) && rule.checks stmt with
  | some rule => rule.why.toList
  | none => GENERIC_REASON.toList

end Rules

end Migration

import Myndaix.Capture.Injection
import Myndaix.Patterns.Captures

/-! The expressions by which the lint of migrations tells its statements apart. -/

namespace Migration

open Capture (notAhead someSpaces wordEdge)
open Inbox (Str)
open Outcomes (isSpace)
open Patterns
open Regex (choice literal optional repeated sequence)

-- Words

/-- A capital letter under `re.IGNORECASE`. -/
def ignoresCase (letter other : Char) : Bool :=
  Inbox.ignoresCase letter other || (letter = 'K' && other = '\u212a')

def word (letters : String) : Regex Char :=
  sequence (letters.toList.map fun letter => .one (ignoresCase letter))

/-- Words with `\s+` between them. -/
def phrase : List String → Regex Char
  | [] => Regex.skip
  | [letters] => word letters
  | letters :: rest => .seq (word letters) (.seq someSpaces (phrase rest))

/-- `\s*`. -/
def blanks : Regex Char :=
  .many (.one isSpace)

/-- `\S`. -/
def solid : Regex Char :=
  .one fun char => !isSpace char

def isNameChar (char : Char) : Bool :=
  !isSpace char && char ≠ '(' && char ≠ '*'

/-- `[^\s(*]+`. -/
def nameRun : Regex Char :=
  repeated (.one isNameChar)

/-- `(?:regex\s+)`. -/
def spaced (regex : Regex Char) : Regex Char :=
  .seq regex someSpaces

section Expressions

-- The characters of words: letters and digits of any script, and the underscore.
variable (isWord : Char → Bool)

/-- `\bregex\b`. -/
def whole (regex : Regex Char) : Regex Char :=
  sequence [wordEdge isWord, regex, wordEdge isWord]

/-- `^regex\b`. -/
def leading (regex : Regex Char) : Regex Char :=
  sequence [Regex.start, regex, wordEdge isWord]

-- The clauses of tables

def ADD_COL_RE : Regex Char :=
  whole isWord (phrase ["ADD", "COLUMN"])

def NOT_NULL_RE : Regex Char :=
  whole isWord (phrase ["NOT", "NULL"])

def DEFAULT_RE : Regex Char :=
  whole isWord (word "DEFAULT")

def GENERATED_RE : Regex Char :=
  whole isWord (.seq (spaced (word "GENERATED")) (.alt (word "ALWAYS") (phrase ["BY", "DEFAULT"])))

def ALTER_TABLE_RE : Regex Char :=
  whole isWord (phrase ["ALTER", "TABLE"])

def ADD_TIGHTENING_RE : Regex Char :=
  whole isWord
    (sequence
      [spaced (word "ADD"),
        optional (sequence [spaced (word "CONSTRAINT"), spaced (repeated solid)]),
        choice
          [word "CHECK", word "UNIQUE", phrase ["PRIMARY", "KEY"], phrase ["FOREIGN", "KEY"],
            word "EXCLUDE"]])

/-- `\bDEFAULT\s*(?:\(\s*|CAST\s*\(\s*)*NULL\b`. -/
def NULL_DEFAULT_RE : Regex Char :=
  whole isWord
    (sequence
      [word "DEFAULT", blanks,
        .many
          (.alt (.seq (literal ['(']) blanks)
            (sequence [word "CAST", blanks, literal ['('], blanks])),
        word "NULL"])

/-- `\b(PRIMARY\s+KEY|UNIQUE|CHECK|REFERENCES)\b`. -/
def inlineTightening : Regex Char :=
  whole isWord
    (choice [phrase ["PRIMARY", "KEY"], word "UNIQUE", word "CHECK", word "REFERENCES"])

def setDefault : Regex Char :=
  whole isWord (phrase ["SET", "DEFAULT"])

-- Routines

/-- `(?:OR\s+REPLACE\s+)?`. -/
def orReplace : Regex Char :=
  optional (spaced (phrase ["OR", "REPLACE"]))

def DYNAMIC_DDL_RE : Regex Char :=
  leading isWord (choice [word "DO", word "EXECUTE", word "CALL"])

def CREATE_ROUTINE_RE : Regex Char :=
  whole isWord
    (sequence [spaced (word "CREATE"), orReplace, .alt (word "FUNCTION") (word "PROCEDURE")])

def CREATE_BEHAVIORAL_RE : Regex Char :=
  whole isWord
    (sequence
      [spaced (word "CREATE"), orReplace, optional (spaced (word "CONSTRAINT")),
        .alt (word "RULE") (word "TRIGGER")])

def DROP_ROUTINE_RE : Regex Char :=
  whole isWord
    (.seq (spaced (word "DROP"))
      (choice [word "FUNCTION", word "PROCEDURE", word "ROUTINE", word "RULE", word "TRIGGER"]))

-- What the gate accepts

/-- `(?:GLOBAL\s+|LOCAL\s+|TEMP(?:ORARY)?\s+|UNLOGGED\s+)*`. -/
def persistence : Regex Char :=
  .many
    (choice
      [spaced (word "GLOBAL"), spaced (word "LOCAL"),
        spaced (.seq (word "TEMP") (optional (word "ORARY"))), spaced (word "UNLOGGED")])

def ADDITIVE_CREATE_RE : Regex Char :=
  leading isWord
    (sequence
      [spaced (word "CREATE"), persistence,
        choice
          [word "TABLE", word "SEQUENCE", word "SCHEMA", word "VIEW",
          phrase ["MATERIALIZED", "VIEW"],
            word "EXTENSION", word "DOMAIN", word "TYPE", word "COLLATION", word "STATISTICS",
            word "INDEX"]])

def DBLINK_RE : Regex Char :=
  .seq (wordEdge isWord) (word "DBLINK")

/-- What stands before the group of `_CREATE_TABLE_NAME_RE`, but for its look ahead. -/
def createTable : Regex Char :=
  sequence [spaced (word "CREATE"), persistence, spaced (word "TABLE")]

/-- `IF\s+NOT\s+EXISTS\b`. -/
def ifNotExists : Regex Char :=
  .seq (phrase ["IF", "NOT", "EXISTS"]) (wordEdge isWord)

/-- The group of `_CREATE_TABLE_NAME_RE.match(text)`. -/
def createTableName (text : Str) : Option Str :=
  (Regex.matchGroup (.seq createTable (notAhead (ifNotExists isWord))) nameRun Regex.skip text).map
    Capture.group

/-- The group of `\bON\s+(?:ONLY\s+)?([^\s(*]+)`. -/
def targetAfterOn (text : Str) : Option Str :=
  (Regex.searchGroup
    (sequence [wordEdge isWord, spaced (word "ON"), optional (spaced (word "ONLY"))])
    nameRun Regex.skip text).map Capture.group

/-- The name in `^CREATE\s+OR\s+REPLACE\s+(?:MATERIALIZED\s+)?VIEW\s+…([^\s(*]+)`. -/
def replacedView (text : Str) : Option Str :=
  (Regex.matchGroup
    (sequence
      [spaced (phrase ["CREATE", "OR", "REPLACE"]), optional (spaced (word "MATERIALIZED")),
        spaced (word "VIEW"), optional (spaced (phrase ["IF", "NOT", "EXISTS"]))])
    nameRun Regex.skip text).map Capture.group

/-- `^CREATE\s+(?:\w+\s+)*?UNIQUE\s+INDEX\b`. -/
def uniqueIndex : Regex Char :=
  leading isWord
    (sequence
      [spaced (word "CREATE"), .many (spaced (repeated (.one isWord))),
        phrase ["UNIQUE", "INDEX"]])

/-- The group of `\bPARTITION\s+OF\s+([^\s(*]+)`. -/
def partitionOf (text : Str) : Option Str :=
  (Regex.searchGroup (.seq (wordEdge isWord) (spaced (phrase ["PARTITION", "OF"]))) nameRun
    Regex.skip text).map Capture.group

/-- `^ALTER\s+TABLE\s+(?:IF\s+EXISTS\s+)?(?:ONLY\s+)?([^\s(*]+)\s*\*?\s+`. -/
def alterTable (text : Str) : Option (Patterns.Capture Char) :=
  Regex.matchGroup
    (sequence
      [spaced (phrase ["ALTER", "TABLE"]), optional (spaced (phrase ["IF", "EXISTS"])),
        optional (spaced (word "ONLY"))])
    nameRun (sequence [blanks, optional (literal ['*']), someSpaces]) text

/-- The group of `^ATTACH\s+PARTITION\s+([^\s(*]+)`. -/
def attachPartition (text : Str) : Option Str :=
  (Regex.matchGroup (spaced (phrase ["ATTACH", "PARTITION"])) nameRun Regex.skip text).map
    Capture.group

/-- `^ALTER\s+TYPE\s+(?:IF\s+EXISTS\s+)?\S+\s+`. -/
def alterType : Regex Char :=
  sequence
    [spaced (phrase ["ALTER", "TYPE"]), optional (spaced (phrase ["IF", "EXISTS"])),
      spaced (repeated solid)]

/-- `^ADD\s+(?:VALUE|ATTRIBUTE)\b`. -/
def addValue : Regex Char :=
  leading isWord (.seq (spaced (word "ADD")) (.alt (word "VALUE") (word "ATTRIBUTE")))

/-- `^(?:INSERT\s+INTO|UPDATE)\b`. -/
def insertOrUpdate : Regex Char :=
  leading isWord (.alt (phrase ["INSERT", "INTO"]) (word "UPDATE"))

/-- `\bFOR\s+(?:UPDATE|SHARE|NO\s+KEY\s+UPDATE|KEY\s+SHARE)\b`. -/
def locking : Regex Char :=
  whole isWord
    (.seq (spaced (word "FOR"))
      (choice
        [word "UPDATE", word "SHARE", phrase ["NO", "KEY", "UPDATE"], phrase ["KEY", "SHARE"]]))

/-- `re.split(r"\bFROM\b", text, maxsplit=1)[0]`. -/
def beforeFrom (text : Str) : Str :=
  match (Place.all text).find? fun place => !((whole isWord (word "FROM")).ends place).isEmpty with
  | some place => place.before.reverse
  | none => text

end Expressions

end Migration

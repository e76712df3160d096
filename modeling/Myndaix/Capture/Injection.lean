import Myndaix.Capture.Classes
import Myndaix.Inbox.Fence

/-! The tripwire for texts that try to re-frame a reviewer: four patterns, searched in the body of a
skill before it is promoted and before it is shown.
-/

namespace Capture

open Inbox (spaces word)
open Outcomes (isSpace)
open Patterns
open Regex (choice optional repeated sequence)

-- Parts of the patterns

/-- A word of the patterns, given in capitals, under `re.I`. -/
def caseless (letters : String) : Regex Char :=
  word id letters.toList

/-- `\s+`. -/
def someSpaces : Regex Char :=
  repeated (.one isSpace)

/-- `r{0,n}`. -/
def upTo : Nat → Regex Char → Regex Char
  | 0, _ => Regex.skip
  | n + 1, regex => optional (.seq regex (upTo n regex))

/-- `[^.\n]{0,20}`. -/
def inSentence : Regex Char :=
  upTo 20 (.one (fun char => char ≠ '.' && char ≠ '\n'))

/-- `^` under `re.M`. -/
def lineStart : Regex Char :=
  .here (fun place => place.before.head?.all (· = '\n'))

/-- `(?!regex)`. -/
def notAhead (regex : Regex Char) : Regex Char :=
  .here (fun place => (regex.ends place).isEmpty)

-- The patterns

/-- The ASCII characters of words. -/
def isAsciiWord (char : Char) : Bool :=
  char.isAlphanum || char = '_'

section Scan

-- The characters of words: letters and digits of any script, and the underscore.
variable (isWord : Char → Bool)

/-- `\b`. -/
def wordEdge : Regex Char :=
  .here (fun place => place.before.head?.any isWord != place.after.head?.any isWord)

def ignoreInstructions : Regex Char :=
  sequence
    [wordEdge isWord,
      choice [caseless "IGNORE", caseless "DISREGARD", caseless "FORGET", caseless "OVERRIDE"],
      wordEdge isWord, inSentence, wordEdge isWord,
      choice
        [caseless "INSTRUCTION", caseless "PROMPT",
          sequence [caseless "SYSTEM", someSpaces, caseless "MESSAGE"]],
      optional (caseless "S"), wordEdge isWord]

def roleOverride : Regex Char :=
  choice
    [sequence
      [wordEdge isWord, caseless "YOU", someSpaces, caseless "ARE", someSpaces,
        choice [caseless "NOW", caseless "ACTUALLY", caseless "REALLY"], wordEdge isWord],
      sequence
        [wordEdge isWord, caseless "ACT", someSpaces, caseless "AS", wordEdge isWord,
          notAhead (sequence [inSentence, wordEdge isWord, caseless "NORMAL"])],
      sequence
        [wordEdge isWord, caseless "NEW", someSpaces, caseless "INSTRUCTION",
          optional (caseless "S"), spaces id, caseless ":"],
      sequence
        [wordEdge isWord, caseless "FROM", someSpaces, caseless "NOW", someSpaces, caseless "ON",
          wordEdge isWord]]

def systemPromptSpoof : Regex Char :=
  choice
    [sequence [wordEdge isWord, caseless "SYSTEM", someSpaces, caseless "PROMPT", wordEdge isWord],
      sequence
        [caseless "<", optional (caseless "/"),
          choice [caseless "SYSTEM", .seq (caseless "INSTRUCTION") (optional (caseless "S"))],
          caseless ">"],
      sequence
        [lineStart, spaces id, choice [caseless "SYSTEM", caseless "ASSISTANT"], spaces id,
          caseless ":"]]

/-- `===\s*(BEGIN|END)\s+UNTRUSTED`. -/
def fenceBreak : Regex Char :=
  sequence
    [caseless "===", spaces id, choice [caseless "BEGIN", caseless "END"], someSpaces,
      caseless "UNTRUSTED"]

def INJECTION_PATTERNS : List (Str × Regex Char) :=
  [("ignore-instructions".toList, ignoreInstructions isWord),
    ("role-override".toList, roleOverride isWord),
    ("system-prompt-spoof".toList, systemPromptSpoof isWord),
    ("fence-break".toList, fenceBreak)]

/-- The name of the first pattern that the body holds. -/
def scanInjection (body : Str) : Option Str :=
  ((INJECTION_PATTERNS isWord).find? (fun (_, pattern) => pattern.search body)).map Prod.fst

-- The patterns look back one character only

end Scan

end Capture

import Mathlib.Algebra.Group.Nat.Defs
import Myndaix.Knowledge.Newlines
import Myndaix.Outcomes.Findings

/-! The hunks that git prints for a path, the ranges that the recorder reads of them, and the lines
that it hashes.
-/

namespace Outcomes

open Curate (Str universalNewlines)
open Interaction
open Knowledge (readLines)
open Text

-- What git prints

/-- The first byte of a line that git prints, if it is none of a hunk's header. -/
def Opens (byte : UInt8) : Prop :=
  byte.toNat ≤ 0x7F ∧ byte ≠ 0x40 ∧ byte ≠ 0x0A ∧ byte ≠ 0x0D

/-- A hunk: where it is on both sides, what stands in its header behind the ranges, and its lines.
-/
structure Hunk where
  oldStart : Nat
  oldCount : Nat
  newStart : Nat
  newCount : Nat
  heading : Bytes
  body : List Bytes
  whole : ∀ line ∈ heading :: body, LF ∉ line
  signed : ∀ line ∈ body, ∃ sign rest, line = sign :: rest ∧ sign ∈ utf8 " +-\\".toList
  fits : newStart < 2 ^ 64 ∧ newCount < 2 ^ 64

/-- A range as git prints it, with no count where that is one. -/
def rangeText (start count : Nat) : Str :=
  Nat.toDigits 10 start ++ if count = 1 then [] else ',' :: Nat.toDigits 10 count

def Hunk.ranges (hunk : Hunk) : Str :=
  "@@ -".toList ++ (rangeText hunk.oldStart hunk.oldCount
    ++ (" +".toList ++ (rangeText hunk.newStart hunk.newCount ++ " @@".toList)))

def Hunk.lines (hunk : Hunk) : List Bytes :=
  (utf8 hunk.ranges ++ hunk.heading) :: hunk.body

/-- The new side of a hunk. -/
def Hunk.range (hunk : Hunk) : Nat × Nat :=
  (hunk.newStart, hunk.newCount)

def Hunk.Covers (hunk : Hunk) (line : Nat) : Prop :=
  hunk.newStart ≤ line ∧ line < hunk.newStart + hunk.newCount

/-- What `git diff` prints of one file. -/
structure FileDiff where
  path : String
  header : List Bytes
  hunks : List Hunk
  whole : ∀ line ∈ header, LF ∉ line
  opened : ∀ line ∈ header, ∃ first rest, line = first :: rest ∧ Opens first

def FileDiff.lines (file : FileDiff) : List Bytes :=
  file.header ++ file.hunks.flatMap Hunk.lines

/-- What git prints, or none if it fails. -/
structure Git where
  /-- `git diff <base> <tip> -- <pathspec>`: the files that the pathspec matches. -/
  diff : (base tip pathspec : String) → Option (List FileDiff)
  /-- `git cat-file blob <tip>:<path>`. -/
  blob : (tip path : String) → Option Bytes
  /-- `git ls-tree <tip> -- :(literal)<path>`. -/
  listed : (tip path : String) → Option Bytes

def printed (files : List FileDiff) : Bytes :=
  terminated LF (files.flatMap FileDiff.lines)

-- What is read of it

def decoded (bytes : Bytes) : Str :=
  characters (decodeReplacing bytes)

/-- `_run_git`: the output as a text. -/
def runGit (output : Option Bytes) : Option Str :=
  output.map fun bytes => universalNewlines (decoded bytes)

/-- The decimal digits of Unicode, which `\d` matches and `int` converts. -/
structure Numerals where
  decimal : Char → Option Nat
  ascii
    : ∀ char, char.toNat ≤ 0x7F
        → decimal char = if char.isDigit then some (char.toNat - 0x30) else none

section Reading

variable (numerals : Numerals)

/-- `\d+`, and what is behind it. -/
def digitsOf (text : Str) : Option (Str × Str) :=
  let isDecimal := fun char => (numerals.decimal char).isSome
  if text.takeWhile isDecimal = [] then none
  else some (text.takeWhile isDecimal, text.dropWhile isDecimal)

/-- `(?:,(\d+))?`, and what is behind it. -/
def countOf : Str → Option Str × Str
  | ',' :: rest =>
      match digitsOf numerals rest with
      | some (count, rest) => (some count, rest)
      | none => (none, ',' :: rest)
  | text => (none, text)

/-- The groups of `_HUNK_RE`, if it matches the line. -/
def hunkMatch (line : Str) : Option (Str × Option Str) := do
  let rest ← line.dropPrefix? "@@ -".toList
  let (_, rest) ← digitsOf numerals rest
  let rest ← (countOf numerals rest).2.dropPrefix? " +".toList
  let (start, rest) ← digitsOf numerals rest
  let (count, rest) := countOf numerals rest
  let _ ← rest.dropPrefix? " @@".toList
  return (start, count)

/-- `int`. -/
def int (digits : Str) : Except ValueError Nat :=
  if maxStrDigits < digits.length then .error .tooManyDigits
  else .ok (digits.foldl (fun value char => value * 10 + (numerals.decimal char).getD 0) 0)

/-- The range that a line is read as, if it is read as a header. -/
def hunkOf (line : Str) : Option (Except ValueError (Nat × Nat)) :=
  (hunkMatch numerals line).map fun (start, count) => do
    let start ← int numerals start
    let count ← match count with
      | some count => int numerals count
      | none => .ok 1
    return (start, count)

/-- `_changed_hunks`. -/
def changedHunks (out : Option Str) : Except ValueError (List (Nat × Nat)) :=
  match out with
  | none => .ok []
  | some text => ((splitLines text).filterMap (hunkOf numerals)).mapM id

end Reading

/-- What `_run_git` and `_changed_hunks` answer. -/
def Git.respond (git : Git) (numerals : Numerals) : (query : GitRead) → query.Answer
  | .catFile tip path => runGit (git.blob tip path)
  | .lsTree tip path => runGit (git.listed tip path)
  | .changedHunks base tip path =>
      (changedHunks numerals (runGit ((git.diff base tip path).map printed))).toOption.getD []

/-- What `_resolve_family` keys a finding by, if it does. -/
def resolveFindingLine (host : Host) (numerals : Numerals) (git : Git) (base tip path : String)
    (line : Nat) : Except ValueError (Option String) := do
  let hunks ← changedHunks numerals (runGit ((git.diff base tip path).map printed))
  return (resolveAndHash host tip path line hunks).answered (git.respond numerals)

end Outcomes

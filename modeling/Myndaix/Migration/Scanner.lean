import Myndaix.Migration.Monotone
import Myndaix.Text.Occurrences
import Myndaix.Text.Trim

/-! The scanner of migrations: comments, literals and quoted names are taken out of the text before
its statements are split and linted.
-/

namespace Migration

open Inbox (Str)
open Outcomes (isSpace strip)
open Patterns
open Regex (search)

-- The ends of what is quoted

/-- Any character beyond ASCII may stand in an identifier. -/
def identChar (char : Char) : Bool :=
  128 ≤ char.toNat || char.isAlphanum || char = '_' || char = '$'

/-- What is read in front, and what is left behind. -/
def reading (read : Str) (behind : Str × Str) : Str × Str :=
  (read ++ behind.1, behind.2)

/-- Behind an opening quote, up to the closing one; without one, to the end. -/
def scanQuoted (quote : Char) (escape : Bool) : Str → Str × Str
  | [] => ([], [])
  | [char] => ([char], [])
  | char :: next :: rest =>
      if escape && char = '\\' then reading [char, next] (scanQuoted quote escape rest)
      else if char = quote then
        if next = quote then reading [char, next] (scanQuoted quote escape rest)
        else ([char], next :: rest)
      else reading [char] (scanQuoted quote escape (next :: rest))

/-- Inside this many block comments, up to the end of the outermost. -/
def scanBlock : Nat → Str → Str × Str
  | 0, text => ([], text)
  | _ + 1, [] => ([], [])
  | _ + 1, [char] => ([char], [])
  | depth + 1, char :: next :: rest =>
      if char = '/' && next = '*' then reading [char, next] (scanBlock (depth + 2) rest)
      else if char = '*' && next = '/' then reading [char, next] (scanBlock depth rest)
      else reading [char] (scanBlock (depth + 1) (next :: rest))

def isLineEnd (char : Char) : Bool :=
  char = '\r' || char = '\n'

def scanLine (text : Str) : Str × Str :=
  (text.takeWhile (!isLineEnd ·), text.dropWhile (!isLineEnd ·))

def tagStart (char : Char) : Bool :=
  128 ≤ char.toNat || char.isAlpha || char = '_'

def tagChar (char : Char) : Bool :=
  tagStart char || char.isDigit

/-- `_DOLLAR_OPEN`, behind its first `$`: the tag, and what is left. -/
def dollarOpen (text : Str) : Option (Str × Str) :=
  let tag := text.takeWhile tagChar
  match text.dropWhile tagChar with
  | '$' :: body => if tag.head?.all tagStart then some (tag, body) else none
  | _ => none

def dollarClose (tag : Str) : Str :=
  '$' :: tag ++ ['$']

/-- Behind a `$`, up to the end of the body that it opens. -/
def scanDollar (text : Str) : Option (Str × Str) :=
  match dollarOpen text with
  | none => none
  | some (tag, body) =>
      (Text.lsplit (dollarClose tag) body).map fun parts =>
        (tag ++ '$' :: parts.1 ++ dollarClose tag, parts.2)

-- Quoted names

def hexValue (char : Char) : Option Nat :=
  if char.isDigit then some (char.toNat - 48)
  else if 'a' ≤ char && char ≤ 'f' then some (char.toNat - 87)
  else if 'A' ≤ char && char ≤ 'F' then some (char.toNat - 55)
  else none

/-- So many hexadecimal digits at the begin of a text. -/
def hexNumber (digits : Nat) (text : Str) : Option Nat :=
  if text.length < digits then none
  else
    (text.take digits).foldl
      (fun number char => number.bind fun number => (hexValue char).map (16 * number + ·)) (some 0)

/-- `chr(number)`, and nothing where there is no such code point. -/
def decoded (number : Nat) : Str :=
  if number < 0x110000 then [if number.isValidChar then Char.ofNat number else '\ufffd'] else []

/-- The escape behind a backslash: its length, and what it stands for. -/
def escapeAt (text : Str) : Option (Nat × Str) :=
  match text with
  | '\\' :: _ => some (1, ['\\'])
  | '+' :: rest => (hexNumber 6 rest).map fun number => (7, decoded number)
  | _ => (hexNumber 4 text).map fun number => (4, decoded number)

/-- `_decode_uescape`, behind the characters of an escape that are still to be skipped. -/
def decodeUescape : Nat → Str → Str
  | _, [] => []
  | skip + 1, _ :: rest => decodeUescape skip rest
  | 0, char :: rest =>
      match if char = '\\' then escapeAt rest else none with
      | some (length, shown) => shown ++ decodeUescape length rest
      | none => char :: decodeUescape 0 rest

/-- `body.replace('""', '"')`. -/
def undouble : Str → Str
  | '"' :: '"' :: rest => '"' :: undouble rest
  | char :: rest => char :: undouble rest
  | [] => []

/-- What is shown of a name whose quote was read up to here. -/
def showName (keepQuoted unicode : Bool) (read : Str) : Str :=
  if keepQuoted then
    let body := undouble read.dropLast
    " ".toList ++ (if unicode then decodeUescape 0 body else body) ++ " ".toList
  else " qi ".toList

-- The loop

/-- What a round of the loop puts out, what it reads and what it leaves. -/
structure Round where
  out : Str
  read : Str
  left : Str
deriving DecidableEq, Repr

def Round.of (out opening : Str) (span : Str × Str) : Round :=
  { out := out, read := opening ++ span.1, left := span.2 }

/-- A round at a character, behind the previous one of the text. -/
def round (keepQuoted : Bool) (prev : Option Char) (char : Char) (rest : Str) : Round :=
  let code : Round := { out := [char], read := [char], left := rest }
  if char = '-' && rest.head? = some '-' then .of " ".toList "--".toList (scanLine rest.tail)
  else if char = '/' && rest.head? = some '*' then
    .of " ".toList "/*".toList (scanBlock 1 rest.tail)
  else if char = '$' && !prev.any identChar then
    match scanDollar rest with
    | some span => .of " '' ".toList ['$'] span
    | none => code
  else if (char = 'E' || char = 'e') && rest.head? = some '\'' && !prev.any identChar then
    .of " '' ".toList [char, '\''] (scanQuoted '\'' true rest.tail)
  else if char = '\'' then .of " '' ".toList ['\''] (scanQuoted '\'' false rest)
  else if (char = 'U' || char = 'u') && rest.take 2 = "&\"".toList && !prev.any identChar then
    let span := scanQuoted '"' false (rest.drop 2)
    .of (showName keepQuoted true span.1) (char :: "&\"".toList) span
  else if char = '"' then
    let span := scanQuoted '"' false rest
    .of (showName keepQuoted false span.1) ['"'] span
  else code

/-- The loop, with no more than this many rounds. -/
def scanFrom (keepQuoted : Bool) : Nat → Option Char → Str → Str
  | 0, _, _ => []
  | _ + 1, _, [] => []
  | fuel + 1, prev, char :: rest =>
      let round := round keepQuoted prev char rest
      round.out ++ scanFrom keepQuoted fuel round.read.getLast? round.left

/-- The blanks are collapsed, and dropped around dots. -/
def collapse (text : Str) : Str :=
  Text.tighten isSpace '.' false (Text.squeeze isSpace ' ' text)

def normalize (keepQuoted : Bool) (sql : Str) : Str :=
  collapse (scanFrom keepQuoted sql.length none sql)

-- The lint of a file and of a deploy

section Lint

variable (isWord : Char → Bool)

def LINK_RE : Regex Char :=
  Regex.choice
    [whole isWord (phrase ["ATTACH", "PARTITION"]), whole isWord (word "INHERIT"),
      whole isWord (phrase ["PARTITION", "OF"])]

def dblinkViolation (fileName : Str) : Str :=
  fileName
    ++ (": NON-ADDITIVE — references dblink (runs DDL from a DML/SELECT expression); "
      ++ "not additive — set RECONCILE_ALLOW_CONTRACTION=1 for a blessed one").toList

def statements (sql : Str) : List Str :=
  ((normalize false sql).splitOn ';').map strip

def links (sql : Str) : Bool :=
  search (LINK_RE isWord) (normalize false sql)

/-- The violations of a file with this text. -/
def lintFile (fileName raw : Str) (allowRoutine : Bool) (prevObjects : Option (Finset Str))
    (deployLinked : Bool)
    : List Str :=
  if search (DBLINK_RE isWord) (normalize true raw) then [dblinkViolation fileName]
  else
    lintStatements isWord fileName allowRoutine prevObjects (deployLinked || links isWord raw)
      (statements raw)

/-- A file of the deploy, with its text where it can be read. -/
structure SqlFile where
  name : Str
  raw : Option Str
deriving DecidableEq, Repr

/-- The exit of the lint over the files of a deploy. -/
inductive Verdict
  | additive
  | violations (found : List Str)
  | unreadable (name : Str)
deriving DecidableEq, Repr

/-- The pre-pass stops at the first link, and passes over what cannot be read. -/
def deployLinked (files : List SqlFile) : Bool :=
  files.any fun file => file.raw.any (links isWord)

/-- The loop of `main` over the files, behind these violations. -/
def lintFiles (allowRoutine : Bool) (prevObjects : Option (Finset Str)) (linked : Bool)
    : List Str → List SqlFile → Verdict
  | [], [] => .additive
  | found, [] => .violations found
  | found, file :: rest =>
      match file.raw with
      | none => .unreadable file.name
      | some raw =>
          lintFiles allowRoutine prevObjects linked
            (found ++ lintFile isWord file.name raw allowRoutine prevObjects linked) rest

/-- `main`, once its arguments are read. -/
def lintDeploy (allowRoutine : Bool) (prevObjects : Option (Finset Str)) (files : List SqlFile)
    : Verdict :=
  lintFiles isWord allowRoutine prevObjects (deployLinked isWord files) [] files

end Lint

end Migration

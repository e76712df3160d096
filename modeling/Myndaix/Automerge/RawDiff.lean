import Myndaix.Patterns.Regex
import Myndaix.Text.Bytes

/-! The mechanical gate of the automerger: the parser of `git diff --raw -z`, and the classifier
that lets only inert documents through.
-/

namespace Automerge

open Patterns Text

/-- A decoded text. -/
abbrev Str :=
  List Char

-- Paths

/-- `str.lower()`, as far as the compared ASCII texts can tell: besides the letters A to Z only the
Kelvin sign and the dotted capital I have an ASCII letter in their lower case.
-/
def lower (text : Str) : Str :=
  text.flatMap (fun char =>
    if char = '\u212a' then ['k']
    else if char = '\u0130' then ['i', '\u0307']
    else [char.toLower])

def DENY_DIRS : List Str :=
  [".github".toList, ".claude".toList, ".codex".toList, ".cursor".toList, ".agents".toList,
    "rules".toList, "skills".toList, "prompts".toList, "substrate".toList]

def DENY_BASENAMES : List Str :=
  ["CLAUDE.md".toList, "AGENTS.md".toList, "GEMINI.md".toList, "CODEOWNERS".toList,
    "DESIGN.md".toList, ".cursorrules".toList]

/-- A file that is read as instructions, configuration or ground truth. -/
def isDenylisted (path : Str) : Bool :=
  let parts := path.splitOn '/'
  let base := parts.getLastD []
  let dirs := parts.dropLast
  let low := lower base
  dirs.any (fun dir => DENY_DIRS.contains dir)
    || DENY_BASENAMES.contains base
    || (("copilot".toList.isPrefixOf low || "security".toList.isPrefixOf low)
        && ".md".toList.isSuffixOf low)
    || ("-design.md".toList.isSuffixOf low || "-spec.md".toList.isSuffixOf low)
    || path == "docs/OPERATING.md".toList

/-- Strictly an inert markdown file. -/
def docPath (path : Str) : Bool :=
  ".md".toList.isSuffixOf path && !isDenylisted path

-- The parser

structure Entry where
  omode : Str
  nmode : Str
  status : Str
  paths : List Str
deriving Repr, DecidableEq

/-- Why a diff does not parse. -/
inductive ValueError where
  | noInfoLine (token : Bytes)
  | fieldCount (fields : Nat) (token : Bytes)
  | nonAsciiField
  | truncatedPaths (status : Str)
  | nonUtf8Path
deriving Repr, DecidableEq

def space : UInt8 :=
  0x20

def colon : UInt8 :=
  0x3a

/-- `decode("ascii")`. -/
def decodeAscii (field : Bytes) : Option Str :=
  if field.all (fun byte => decide (byte < 0x80)) then
    some (field.map (fun byte => Char.ofNat byte.toNat))
  else none

/-- A rename or a copy names two paths. -/
def isPaired (status : Str) : Bool :=
  match status with
  | 'R' :: _ => true
  | 'C' :: _ => true
  | _ => false

/-- The modes and the status of an info line. -/
def infoLine (token : Bytes) : Except ValueError (Str × Str × Str) :=
  match token with
  | [] => .error (.noInfoLine token)
  | byte :: line =>
      if byte ≠ colon then .error (.noInfoLine token)
      else
        match line.splitOn space with
        | [omode, nmode, _, _, status] =>
            match decodeAscii status, decodeAscii omode, decodeAscii nmode with
            | some status, some omode, some nmode => .ok (omode, nmode, status)
            | _, _, _ => .error .nonAsciiField
        | fields => .error (.fieldCount fields.length token)

/-- The entries of the tokens between the NULs. -/
def parseTokens : List Bytes → Except ValueError (List Entry)
  | [] => .ok []
  | token :: rest =>
      match infoLine token with
      | .error error => .error error
      | .ok (omode, nmode, status) =>
          if isPaired status then
            match rest with
            | old :: new :: rest =>
                match decodeUtf8 old, decodeUtf8 new with
                | some old, some new => do
                    let entries ← parseTokens rest
                    pure ({ omode, nmode, status, paths := [old, new] } :: entries)
                | _, _ => .error .nonUtf8Path
            | _ => .error (.truncatedPaths status)
          else
            match rest with
            | path :: rest =>
                match decodeUtf8 path with
                | some path => do
                    let entries ← parseTokens rest
                    pure ({ omode, nmode, status, paths := [path] } :: entries)
                | none => .error .nonUtf8Path
            | [] => .error (.truncatedPaths status)

/-- What stands between the NULs; the empty rest after the last one is no token. -/
def tokens (out : Bytes) : List Bytes :=
  let toks := out.splitOn 0
  if toks.getLast? = some [] then toks.dropLast else toks

def parseRawZ (out : Bytes) : Except ValueError (List Entry) :=
  if out = [] then .ok [] else parseTokens (tokens out)

-- The classifier

def letter (char : Char) : Regex Char :=
  .one (fun other => decide (other = char))

def digit : Regex Char :=
  .one Char.isDigit

/-- `^(A|D|M|R\d{1,3}|C\d{1,3})$`; the dollar sign also stands before a newline at the end. -/
def STATUS_RE : Regex Char :=
  let digits := Regex.seq digit (.optional (.seq digit (.optional digit)))
  .sequence [
    .start,
    .choice [letter 'A', letter 'D', letter 'M', .seq (letter 'R') digits,
      .seq (letter 'C') digits],
    .here (fun place => decide (place.after = [] ∨ place.after = ['\n']))
  ]

/-- `re.match`: read from the begin. -/
def statusAllowed (status : Str) : Bool :=
  !(STATUS_RE.ends (Place.start status)).isEmpty

/-- Why a diff is not a diff of documents. -/
inductive Rejection where
  | emptyChangeset
  | unsupportedStatus (status : Str)
  | nonDocPath (path : Str)
  | unsafeModes (code : Option Char) (omode nmode : Str) (paths : List Str)
deriving Repr, DecidableEq

/-- What the interpreter writes for a string, and for an exception of the parser. -/
structure Texts where
  repr : Str → Str
  valueError : ValueError → Str

def Rejection.text (texts : Texts) : Rejection → Str
  | .emptyChangeset => "empty changeset".toList
  | .unsupportedStatus status => "unsupported status ".toList ++ texts.repr status
  | .nonDocPath path => "non-doc or denylisted path: ".toList ++ texts.repr path
  | .unsafeModes code omode nmode paths =>
      let modes (kind more : Str) : Str :=
        "unsafe ".toList ++ kind ++ " modes ".toList ++ omode ++ "->".toList ++ nmode
          ++ " for [".toList ++ ", ".toList.intercalate (paths.map texts.repr) ++ [']'] ++ more
      if code = some 'A' then modes "add".toList []
      else if code = some 'D' then modes "delete".toList []
      else modes code.toList " (reject symlink/gitlink/exec/typechange)".toList

def absent : Str :=
  "000000".toList

def regular : Str :=
  "100644".toList

/-- Why an entry is rejected, if it is. -/
def classifyEntry (entry : Entry) : Option Rejection :=
  if !statusAllowed entry.status then some (.unsupportedStatus entry.status)
  else
    match entry.paths.find? (fun path => !docPath path) with
    | some path => some (.nonDocPath path)
    | none =>
        let code := entry.status.head?
        let modes :=
          if code = some 'A' then (absent, regular)
          else if code = some 'D' then (regular, absent)
          else (regular, regular)
        if (entry.omode, entry.nmode) ≠ modes then
          some (.unsafeModes code entry.omode entry.nmode entry.paths)
        else none

/-- `none` stands for `docs-only`. -/
def classifyDiff (entries : List Entry) : Option Rejection :=
  if entries = [] then some .emptyChangeset else entries.findSome? classifyEntry

/-- The two steps of the gate let the diff through. -/
def acceptsDiff (out : Bytes) : Bool :=
  match parseRawZ out with
  | .error _ => false
  | .ok entries => decide (classifyDiff entries = none)

end Automerge

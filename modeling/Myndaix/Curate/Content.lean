import Myndaix.Outcomes.Verbs
import Myndaix.Patterns.Regex
import Myndaix.Text.Bytes

/-! What the curator may add to a corpus: the rule for the names of new files and the checks of
their content.
-/

namespace Curate

open Outcomes (isSpace strip)
open Patterns Text

abbrev Str :=
  List Char

/-- What Python's strings do by the tables of Unicode, by `repr`, and where bytes are no UTF-8. -/
structure Strings where
  nfc : Str → Str
  lower : Str → Str
  isWord : Char → Bool
  repr : Str → Str
  decodeReplace : Bytes → Str

/-- `Path(rel).name`. -/
def baseName (rel : Str) : Str :=
  (rel.splitOn '/').getLastD []

def endsMd (name : Str) : Bool :=
  ".md".toList.isSuffixOf name

/-- `name[:-3]`. -/
def stem (name : Str) : Str :=
  name.take (name.length - 3)

/-- `[a-z0-9]`. -/
def isNameStart (char : Char) : Bool :=
  char.isLower || char.isDigit

/-- `[a-z0-9._-]`. -/
def isNameChar (char : Char) : Bool :=
  isNameStart char || char = '.' || char = '_' || char = '-'

def NEW_FILE_RE_PATTERN : Str :=
  "^[a-z0-9][a-z0-9._-]*\\.md$".toList

/-- `NEW_FILE_RE.fullmatch(name)`. -/
def matchesNewFile (name : Str) : Bool :=
  let body := stem name
  endsMd name && (body.head?.any isNameStart) && body.all isNameChar

def hasDotDot : Str → Bool
  | '.' :: '.' :: _ => true
  | _ :: rest => hasDotDot rest
  | [] => false

def validNewFilename (strings : Strings) (name : Str) : Bool :=
  matchesNewFile (strings.nfc name) && !hasDotDot name

-- Links

/-- The rest behind a `[[target#section|label]]` whose two brackets have been read, with its target.
-/
def wikilink (rest : Str) : Option (Str × Str) :=
  let inTarget := fun char => ¬['[', ']', '\n', '|', '#'].contains char
  let target := rest.takeWhile inTarget
  let rest := rest.dropWhile inTarget
  let rest :=
    if rest.head? = some '#' then
      rest.tail.dropWhile (fun char => ¬['[', ']', '\n', '|'].contains char)
    else rest
  let rest :=
    if rest.head? = some '|' then
      rest.tail.dropWhile (fun char => ¬['[', ']', '\n'].contains char)
    else rest
  match target, rest with
  | _ :: _, ']' :: ']' :: rest => some (target, rest)
  | _, _ => none

/-- The targets of `_WIKILINK_RE.finditer(text)`, with no more matches than the text is long. -/
def linkTargets : Nat → Str → List Str
  | fuel + 1, '[' :: '[' :: rest =>
      match wikilink rest with
      | some (target, rest) => target :: linkTargets fuel rest
      | none => linkTargets fuel ('[' :: rest)
  | fuel + 1, _ :: rest => linkTargets fuel rest
  | _, _ => []

def wikilinks (text : Str) : List Str :=
  (linkTargets text.length text).map strip

def linkResolves (strings : Strings) (target : Str) (mdBasenames : List Str) : Bool :=
  let name := strings.lower (strip (strings.nfc target))
  mdBasenames.contains (if endsMd name then stem name else name)

-- Patterns that no promoted file may have

section Secrets

variable (strings : Strings)

/-- `\b`. -/
def wordBoundary : Regex Char :=
  .here (fun place =>
    xor (place.before.head?.any strings.isWord) (place.after.head?.any strings.isWord))

def spelled (letters : String) : Regex Char :=
  Regex.literal letters.toList

def anyOf (accepts : Char → Bool) : Regex Char :=
  .one accepts

/-- `…{count}`. -/
def times (count : Nat) (regex : Regex Char) : Regex Char :=
  Regex.sequence (List.replicate count regex)

/-- `…{count,}`. -/
def atLeast (count : Nat) (regex : Regex Char) : Regex Char :=
  .seq (times count regex) (.many regex)

def isUpperDigit (char : Char) : Bool :=
  char.isUpper || char.isDigit

def isAlphaDigit (char : Char) : Bool :=
  char.isAlpha || char.isDigit

def isDashed (char : Char) : Bool :=
  isAlphaDigit char || char = '-'

def isDashedWord (char : Char) : Bool :=
  isDashed char || char = '_'

def between (parts : List (Regex Char)) : Regex Char :=
  .seq (wordBoundary strings) (.seq (Regex.sequence parts) (wordBoundary strings))

/-- `_SECRET_RES`, each with the text of its pattern. -/
def SECRET_RES : List (Str × Regex Char) :=
  [ ("-----BEGIN (?:RSA |EC |OPENSSH )?PRIVATE KEY-----".toList,
      Regex.sequence
        [ spelled "-----BEGIN ",
          Regex.optional (Regex.choice [spelled "RSA ", spelled "EC ", spelled "OPENSSH "]),
          spelled "PRIVATE KEY-----" ]),
    ("\\bAKIA[0-9A-Z]\x7b16\x7d\\b".toList,
      between strings [spelled "AKIA", times 16 (anyOf isUpperDigit)]),
    ("\\bgh[pousr]_[A-Za-z0-9]\x7b30,\x7d\\b".toList,
      between strings
        [ spelled "gh", anyOf (fun char => "pousr".toList.contains char), spelled "_",
          atLeast 30 (anyOf isAlphaDigit) ]),
    ("\\bxox[baprs]-[A-Za-z0-9-]\x7b10,\x7d\\b".toList,
      between strings
        [ spelled "xox", anyOf (fun char => "baprs".toList.contains char), spelled "-",
          atLeast 10 (anyOf isDashed) ]),
    ("\\bsk-[A-Za-z0-9_-]\x7b20,\x7d\\b".toList,
      between strings [spelled "sk-", atLeast 20 (anyOf isDashedWord)]),
    ("\\beyJ[A-Za-z0-9_-]\x7b40,\x7d\\.[A-Za-z0-9_-]\x7b10,\x7d\\.[A-Za-z0-9_-]\x7b10,\x7d\\b".toList,
      between strings
        [ spelled "eyJ", atLeast 40 (anyOf isDashedWord), spelled ".",
          atLeast 10 (anyOf isDashedWord), spelled ".", atLeast 10 (anyOf isDashedWord) ]) ]

/-- `_FENCE_LOOKALIKE_RE`: `===(?:BEGIN|END)[^\n]*?===`. -/
def FENCE_LOOKALIKE_RE : Regex Char :=
  Regex.sequence
    [ spelled "===", Regex.choice [spelled "BEGIN", spelled "END"],
      .many (anyOf (fun char => char ≠ '\n')), spelled "===" ]

end Secrets

-- The checks

def PROMOTE_FILE_CAP_BYTES : Nat := 256000

def ghostLink (name target : Str) : Str :=
  name ++ ": ghost wikilink [[".toList ++ target ++ "]]".toList

/-- The checks of one promoted file. -/
def contentViolations (strings : Strings) (name : Str) (data : Bytes) (mdBasenames : List Str)
    : List Str :=
  if data.length > PROMOTE_FILE_CAP_BYTES then
    [name ++ ": exceeds ".toList ++ PROMOTE_FILE_CAP_BYTES.repr.toList ++ "B promote cap".toList]
  else
    match decodeUtf8 data with
    | none => [name ++ ": not valid UTF-8".toList]
    | some text =>
        if text.contains '\x00' then [name ++ ": contains NUL".toList]
        else
          ((SECRET_RES strings).filter (fun secret => secret.2.search text)).map (fun secret =>
            name ++ ": secret-pattern match (".toList ++ secret.1.take 30 ++ "…)".toList)
          ++ (if FENCE_LOOKALIKE_RE.search text then
              [name ++ ": nonce-fence-lookalike region".toList]
            else [])
          ++ ((wikilinks text).filter (fun target => !linkResolves strings target mdBasenames)).map
              (ghostLink name)

/-- The lowercase names of Markdown files without their extension. -/
def mdBases (strings : Strings) (mdFiles : List Str) : List Str :=
  mdFiles.map (fun file => strings.lower (stem (baseName file)))

def INDEX : Str :=
  "index.md".toList

/-- `needle in text`. -/
def occursIn (needle text : Str) : Bool :=
  text.tails.any needle.isPrefixOf

/-- The structure of `index.md`: every Markdown file is mentioned, every link resolves. -/
def indexViolations (strings : Strings) (indexText : Str) (mdFiles : List Str) : List Str :=
  if (strip indexText).length < 20 then ["index.md: empty/gutted (fails completeness)".toList]
  else
    let low := strings.lower (strings.nfc indexText)
    let bases := mdBases strings mdFiles
    (mdFiles.filter (fun file =>
        let base := strings.lower (baseName file)
        base ≠ INDEX && !occursIn base low)).map
      (fun file => "index.md: missing entry for ".toList ++ file)
    ++ ((wikilinks indexText).filter (fun target => !linkResolves strings target bases)).map
      (ghostLink INDEX)

end Curate

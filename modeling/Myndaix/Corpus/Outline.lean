import Mathlib.Data.List.DropRight
import Myndaix.Corpus.Walk
import Myndaix.Inbox.Fence
import Myndaix.Text.Trim

/-! The generated index of a corpus: its documents by month, those without a date, and its assets.
-/

namespace Corpus

open Curate (Str Strings endsMd)
open Inbox (ignoresCase)
open Outcomes (isSpace strip)
open Text

-- Single lines

/-- `[<>\[\]|]`. -/
def isUnsafe (char : Char) : Bool :=
  ['<', '>', '[', ']', '|'].contains char

/-- `_md_oneline(text, cap)`. -/
def mdOneline (text : Str) (cap : Nat) : Str :=
  let line := strip (squeeze isSpace ' ' (text.take (cap * 3)))
  strip ((line.map fun char => if isUnsafe char then ' ' else char).take cap)

/-- The cap of a hook. -/
def HOOK_CAP : Nat := 140

def LINE_SCAN_CAP : Nat := 2000

/-- The ends of lines that `str.splitlines` knows. -/
def isLineEnd (char : Char) : Bool :=
  [0x0A, 0x0B, 0x0C, 0x0D, 0x1C, 0x1D, 0x1E, 0x85, 0x2028, 0x2029].contains char.toNat

/-- `text.splitlines()`, behind the begin of a line. -/
def splitlinesFrom (line : Str) : Str → List Str
  | [] => if line = [] then [] else [line]
  | '\r' :: '\n' :: rest => line :: splitlinesFrom [] rest
  | char :: rest =>
      if isLineEnd char then line :: splitlinesFrom [] rest
      else splitlinesFrom (line ++ [char]) rest

def splitlines (text : Str) : List Str :=
  splitlinesFrom [] text

/-- The group of `_FENCE_OPEN_RE.match(line)`. -/
def fenceMarker (line : Str) : Option Str :=
  match line.head? with
  | none => none
  | some first =>
      let run := line.takeWhile (fun char => char = first)
      if (first = '`' || first = '~') && 3 ≤ run.length then some run else none

/-- `text` without two stars at most before it. -/
def dropStars (text : Str) : Str :=
  text.drop (min 2 (text.takeWhile (fun char => char = '*')).length)

/-- What is left behind a label in whatever case. -/
def behindLabel : Str → Str → Option Str
  | [], text => some text
  | letter :: label, char :: text =>
      if ignoresCase letter.toUpper char then behindLabel label text else none
  | _ :: _, [] => none

def META_LABELS : List Str :=
  [ "Date".toList, "Status".toList, "Author".toList, "Updated".toList, "Source".toList,
    "Sources".toList, "Trigger".toList, "Tags".toList, "Owner".toList, "Related".toList,
    "Created".toList, "Last updated".toList, "Repo".toList, "Branch".toList, "Run".toList,
    "Version".toList ]

/-- `_META_LABEL_RE.match(line)`. -/
def isMetaLabel (line : Str) : Bool :=
  META_LABELS.any (fun label =>
    match (behindLabel label (dropStars line)).bind (behind ":".toList) with
    | none => false
    | some rest => (dropStars rest).head?.all isSpace)

/-- `_LIST_MARKER_RE.match(line)`. -/
def isListMarker (tables : Tables) (line : Str) : Bool :=
  (line.head?.any ['-', '*', '+', '>'].contains && line.tail.head?.any isSpace)
    || (let rest := line.dropWhile tables.isDecimal
        line.head?.any tables.isDecimal && rest.head?.any ['.', ')'].contains
          && rest.tail.head?.any isSpace)

/-- A heading, a row of a table, a list, a rule or a label. -/
def isFurniture (tables : Tables) (line : Str) : Bool :=
  "#".toList.isPrefixOf line || "===".toList.isPrefixOf line || "|".toList.isPrefixOf line
    || isListMarker tables line || line.all ['-', '='].contains || isMetaLabel line

/-- Where the lines of a body have come to: inside its frontmatter, or a code fence. -/
structure Scanned where
  inFm : Bool
  fence : Option Str

/-- The fence behind a line with a marker. -/
def nextFence (fence : Option Str) (marker : Str) : Option Str :=
  match fence with
  | none => some marker
  | some opened =>
      if marker.head? = opened.head? ∧ opened.length ≤ marker.length then none else some opened

/-- The loop of `_first_prose_line`; `first` tells the first line of all. -/
def proseFrom (tables : Tables) (scanned : Scanned) (first : Bool) : List Str → Str
  | [] => []
  | raw :: lines =>
      let line := (strip raw).take LINE_SCAN_CAP
      if line = [] then proseFrom tables scanned false lines
      else if line = "---".toList then proseFrom tables { scanned with inFm := first } false lines
      else if scanned.inFm then proseFrom tables scanned false lines
      else
        match fenceMarker line with
        | some marker =>
            proseFrom tables { scanned with fence := nextFence scanned.fence marker } false lines
        | none =>
            if scanned.fence.isSome || isFurniture tables line then
              proseFrom tables scanned false lines
            else
              let hook := mdOneline line HOOK_CAP
              if hook = [] then proseFrom tables scanned false lines else hook

def firstProseLine (tables : Tables) (body : Str) : Str :=
  proseFrom tables ⟨false, none⟩ true (splitlines body)

-- The index

section Index

variable (strings : Strings) (tables : Tables)

/-- `_link(d)`. -/
def link (doc : DocRecord) : Str :=
  mdOneline (pathStem doc.path) 120

/-- `_hook(d)`. -/
def hook (doc : DocRecord) : Str :=
  let prose := firstProseLine tables doc.body
  if prose = [] then mdOneline doc.title HOOK_CAP else prose

/-- The date of a document that has one. -/
def dated (doc : DocRecord) : Option Str :=
  doc.docDate.filter (fun date => date ≠ [])

def docLine (doc : DocRecord) : Str :=
  "- [[".toList ++ link doc ++ "]]".toList
    ++ (match dated doc with
      | some date => " (".toList ++ date ++ ")".toList
      | none => [])
    ++ " — ".toList ++ hook tables doc

def assetLine (artifact : Str) : Str :=
  "- ".toList ++ mdOneline artifact 200

def titleLine (title : Str) : Str :=
  "# ".toList ++ mdOneline title 120

def DEFAULT_TITLE : Str :=
  "Research Corpus Index".toList

def SKELETON : Str :=
  "_Auto-generated skeleton (`mxr knowledge-index`). One-line hooks are the first prose line of each brief — the curator replaces them with judged summaries and regroups by topic._".toList

def atMost (first second : Str) : Bool :=
  decide (String.ofList first ≤ String.ofList second)

def month (doc : DocRecord) : Option Str :=
  (dated doc).map (List.take 7)

/-- Newest first. -/
def byDate (docs : List DocRecord) : List DocRecord :=
  docs.mergeSort (fun first second =>
    let date := (dated first).getD []
    let date' := (dated second).getD []
    if date = date' then atMost second.path first.path else atMost date' date)

def months (docs : List DocRecord) : List Str :=
  (docs.filterMap month).dedup.mergeSort (fun first second => atMost second first)

/-- A heading, the lines under it, and an empty one. -/
def group (heading : Str) (lines : List Str) : List Str :=
  heading :: lines ++ [[]]

def assets (walk : WalkResult) : List Str :=
  walk.artifacts.filter (fun artifact => !endsMd (strings.lower artifact))

def monthLines (docs : List DocRecord) : List Str :=
  (months docs).flatMap (fun ym =>
    group ("## ".toList ++ ym)
      ((byDate (docs.filter (fun doc => month doc = some ym))).map (docLine tables)))

def undatedLines (docs : List DocRecord) : List Str :=
  let undated := docs.filter (fun doc => dated doc = none)
  if undated = [] then []
  else
    group "## Undated".toList
      ((undated.mergeSort (fun first second => atMost first.path second.path)).map (docLine tables))

def assetLines (assets : List Str) : List Str :=
  if assets = [] then []
  else group "## Assets (not full-text indexed)".toList ((assets.mergeSort atMost).map assetLine)

def emptyLines (docs : List DocRecord) (assets : List Str) : List Str :=
  if docs = [] ∧ assets = [] then group "_No markdown briefs found._".toList [] else []

def outline (walk : WalkResult) (title : Str) : List Str :=
  [titleLine title, [], SKELETON, []]
    ++ monthLines tables walk.docs ++ undatedLines tables walk.docs
    ++ assetLines (assets strings walk) ++ emptyLines walk.docs (assets strings walk)

/-- `build_index_md(walk, title=title)`. -/
def buildIndexMd (walk : WalkResult) (title : Str) : Str :=
  (['\n'].intercalate (outline strings tables walk title)).rdropWhile isSpace ++ ['\n']

/-- What `build_index_md` adds to the warnings of the walk: links that name several documents. -/
def stemWarnings : List (Str × Str) → List DocRecord → List Str
  | _, [] => []
  | stems, doc :: docs =>
      let stem := strings.lower (link doc)
      (match stems.lookup stem with
        | some path =>
            if path ≠ doc.path then
              [ "duplicate stem ".toList ++ strings.repr stem ++ ": ".toList ++ doc.path
                  ++ " vs ".toList ++ path ++ " — [[".toList ++ stem ++ "]] is ambiguous".toList ]
            else []
        | none => [])
        ++ stemWarnings ((stem, doc.path) :: stems) docs

end Index

end Corpus

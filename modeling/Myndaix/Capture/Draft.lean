import Myndaix.Capture.Verbs

/-! The deterministic draft of a class: its branch, the text of its skill, and the hash that is
pinned when the class is claimed.
-/

namespace Capture

open Outcomes (strip)

def skillBranch (slug : Str) : Str :=
  "skill/auto/".toList ++ slug

def isControl (char : Char) : Bool :=
  char.toNat ≤ 0x1F || char.toNat = 0x7F

-- Fields

/-- How many characters behind a `<` belong to a tag-like span `<[^>\n]{0,200}>`. -/
def tagSpan (rest : Str) : Option Nat :=
  let inner := rest.takeWhile (fun char => char ≠ '>' && char ≠ '\n')
  if inner.length ≤ 200 && (rest.drop inner.length).head? = some '>' then some (inner.length + 1)
  else none

/-- `_TAG_LIKE.sub(" ", text)`, while this many characters still belong to a span. -/
def dropTags : Nat → Str → Str
  | _, [] => []
  | skip + 1, _ :: rest => dropTags skip rest
  | 0, char :: rest =>
      match if char = '<' then tagSpan rest else none with
      | some span => ' ' :: dropTags span rest
      | none => char :: dropTags 0 rest

/-- `_WS.sub(" ", text)`. -/
def collapseBlanks : Bool → Str → Str
  | _, [] => []
  | inRun, char :: rest =>
      if [' ', '\t', '\r', '\x0c', '\x0b'].contains char then
        if inRun then collapseBlanks true rest else ' ' :: collapseBlanks true rest
      else char :: collapseBlanks false rest

def sanitizeField (text : Str) (maxlen : Nat) : Str :=
  let text := dropTags 0 text
  let text := text.map (fun char => if isControl char then ' ' else char)
  let text := strip (collapseBlanks false text)
  strip (text.take maxlen)

/-- `text or default`. -/
def orElse (text default_ : Str) : Str :=
  if text.isEmpty then default_ else text

-- The draft

def STUB_MARKER : Str :=
  "MDX-AUTOPROPOSED-STUB-UNAUTHORED".toList

/-- The description of a draft. -/
def skillDescription (ruleTag : Str) : Str :=
  sanitizeField ("Recurring review finding: ".toList ++ ruleTag) 60

/-- The last lines of a draft that no one has described. -/
def stubLine (wrong : Str) : Str :=
  if !wrong.isEmpty then []
  else
    "\n\n".toList ++ STUB_MARKER
      ++ (": replace the description + preferred-pattern with the real "
        ++ "lesson and delete this line before merging (an unedited stub is refused at index).").toList

def NO_DESCRIPTION : Str :=
  "(no description captured)".toList

def NO_PATTERN : Str :=
  "(no preferred pattern captured)".toList

def draftIds (findingIds : List Str) : Str :=
  orElse (", ".toList.intercalate ((findingIds.take 8).map (fun id => sanitizeField id 40)))
    "n/a".toList

def draftOrigin (originRepo : Str) : Str :=
  orElse (sanitizeField originRepo 80) "n/a".toList

/-- The paragraphs of a draft between its problem and its last sentence. -/
def draftMiddle (ruleTag pathTrigger preferredPattern : Str) (findingIds : List Str)
    (originRepo : Str)
    : Str :=
  "\n\nPreferred pattern: ".toList ++ orElse (sanitizeField preferredPattern 700) NO_PATTERN
    ++ "\n\nFlag any change matching `".toList ++ pathTrigger
    ++ "` that repeats this class of issue.\n\n(Auto-proposed from recurring reviewer findings [".toList
    ++ ruleTag ++ "]. Provenance: origin_repo=".toList ++ draftOrigin originRepo
    ++ "; finding_ids=".toList ++ draftIds findingIds

def draftEnd (wrong : Str) : Str :=
  ". Drafted deterministically — review before merge.)".toList ++ stubLine wrong

/-- The body of a draft. -/
def skillBody (ruleTag pathTrigger whatsWrong preferredPattern : Str) (findingIds : List Str)
    (originRepo : Str)
    : Str :=
  orElse (sanitizeField whatsWrong 700) NO_DESCRIPTION
    ++ draftMiddle ruleTag pathTrigger preferredPattern findingIds originRepo
    ++ draftEnd (sanitizeField whatsWrong 700)

/-- The text that `render_skill_md` returns of a draft that passes its checks. -/
def skillMd (slug ruleTag pathTrigger whatsWrong preferredPattern : Str) (findingIds : List Str)
    (originRepo : Str)
    : Str :=
  "---\nname: ".toList ++ slug ++ "\ndescription: ".toList ++ skillDescription ruleTag
    ++ "\npath_trigger: ".toList ++ pathTrigger ++ "\n---\n\n".toList
    ++ skillBody ruleTag pathTrigger whatsWrong preferredPattern findingIds originRepo
    ++ "\n".toList

def draftHash (config : Config) (rendered : Str) : Str :=
  config.sha256 rendered

/-- The branch and the draft that a proposer pins for a ready class with this provenance. -/
def proposal (config : Config) (row : Candidate) (provenance : List Str) : Option (Str × Str) := do
  let name ← slug row.ruleTag
  let pathTrigger := orElse (row.pathGlob.getD []) "src/**".toList
  let rendered := skillMd name row.ruleTag pathTrigger [] [] provenance row.repoScope
  return (skillBranch name, draftHash config rendered)

end Capture

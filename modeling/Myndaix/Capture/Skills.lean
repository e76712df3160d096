import Myndaix.Capture.Injection
import Myndaix.Capture.Triggers

/-! Skill files: how one is parsed, and the checks that it passes before it is promoted. -/

namespace Capture

open Automerge (lower)
open Outcomes (isSpace splitWords strip)
open Text (Trimmed)

-- Parsing

/-- What `parse_skill_md` returns: the keys of the frontmatter with their values, and the body. -/
structure SkillFile where
  frontmatter : List (Str × Str)
  body : Str
deriving DecidableEq, Repr

/-- `meta[key] = value`. -/
def setKey (key value : Str) : List (Str × Str) → List (Str × Str)
  | [] => [(key, value)]
  | (other, old) :: rest =>
      if other = key then (key, value) :: rest else (other, old) :: setKey key value rest

/-- The parts of a line around its first colon. -/
def partitionColon (line : Str) : Option (Str × Str) :=
  if ':' ∈ line then some (line.takeWhile (· ≠ ':'), (line.dropWhile (· ≠ ':')).tail) else none

def isQuote (char : Char) : Bool :=
  char = '"' || char = '\x27'

/-- A value without the quotes around it, if they match. -/
def unquote : Str → Str
  | [] => []
  | first :: rest =>
      if rest.getLast? = some first && isQuote first then rest.dropLast else first :: rest

/-- A line of the frontmatter that is passed over. -/
def isComment (line : Str) : Bool :=
  strip line = [] || (line.dropWhile isSpace).head? = some '#'

def parseMeta (entries : List (Str × Str)) : List Str → Option (List (Str × Str))
  | [] => some entries
  | line :: rest =>
      if isComment line then parseMeta entries rest
      else
        match partitionColon line with
        | none => none
        | some (key, value) =>
            parseMeta (setKey (lower (strip key)) (unquote (strip value)) entries) rest

def isFence (line : Str) : Bool :=
  strip line = "---".toList

def parseSkillMd (raw : Str) : Option SkillFile :=
  match raw.splitOn '\n' with
  | [] => none
  | first :: lines =>
      if !isFence first then none
      else
        match lines.dropWhile (fun line => !isFence line) with
        | [] => none
        | _ :: rest =>
            (parseMeta [] (lines.takeWhile (fun line => !isFence line))).map
              (fun entries => ⟨entries, strip (['\n'].intercalate rest)⟩)

-- Checks

/-- `^[a-z0-9][a-z0-9._-]*$`, whose end may also stand before a last line feed. -/
def skillNameForm (name : Str) : Bool :=
  match if name.getLast? = some '\n' then name.dropLast else name with
  | [] => false
  | first :: rest =>
      tagStart first
        && rest.all (fun char => tagStart char || char = '.' || char = '_' || char = '-')

def DESC_MAX : Nat := 60

def BODY_MAX : Nat := 2048

/-- `_AFFORDANCE_KEYS`, in order. -/
def AFFORDANCE_KEYS : List Str :=
  ["allowed-tools".toList, "allowed_tools".toList, "code".toList, "command".toList,
    "commands".toList, "exec".toList, "run".toList, "script".toList, "scripts".toList,
    "shell".toList, "support-files".toList, "support_files".toList, "tools".toList]

/-- Why a skill file is refused. -/
inductive LintReason : Type where
  | badName (name : Str)
  | malformed
  | affordances (keys : List Str)
  | otherName (found name : Str)
  | noDescription
  | longDescription (length : Nat)
  | bannedTrigger (trigger : Str)
  | emptyBody
  | longBody (length : Nat)
  | framing (pattern : Str)
deriving DecidableEq, Repr

/-- The text of a refusal; `repr` quotes a string. -/
def LintReason.text (repr : Str → Str) : LintReason → Str
  | .badName name =>
      "bad skill name ".toList ++ repr name ++ " (need ^[a-z0-9][a-z0-9._-]*$)".toList
  | .malformed => "missing or malformed --- frontmatter ---".toList
  | .affordances keys =>
      "executable-affordance keys not allowed (v1 is text-only): [".toList
        ++ ", ".toList.intercalate (keys.map repr) ++ "]".toList
  | .otherName found name =>
      "frontmatter name ".toList ++ repr found ++ " != directory name ".toList ++ repr name
  | .noDescription => "description is required".toList
  | .longDescription length =>
      "description over 60 chars (".toList ++ (toString length).toList ++ ")".toList
  | .bannedTrigger trigger =>
      "path_trigger ".toList ++ repr trigger ++ " is empty/too-broad (banned)".toList
  | .emptyBody => "empty body".toList
  | .longBody length => "body over 2048 chars (".toList ++ (toString length).toList ++ ")".toList
  | .framing pattern => "injection-framing in body (".toList ++ pattern ++ ")".toList

/-- A skill that passed, as the index takes it. -/
structure LintedSkill where
  name : Str
  description : Str
  body : Str
  pathTrigger : Str
deriving DecidableEq, Repr

def lintSkill (isWord : Char → Bool) (name raw : Str) : Except LintReason LintedSkill :=
  if !skillNameForm name then .error (.badName name)
  else
    match parseSkillMd raw with
    | none => .error .malformed
    | some file =>
        let get key := file.frontmatter.lookup key
        let bad := AFFORDANCE_KEYS.filter (fun key => (get key).isSome)
        let desc := (get "description".toList).getD []
        let trig := (get "path_trigger".toList).getD []
        if bad ≠ [] then .error (.affordances bad)
        else if (get "name".toList).any (· ≠ name) then
          .error (.otherName ((get "name".toList).getD []) name)
        else if desc = [] then .error .noDescription
        else if DESC_MAX < desc.length then .error (.longDescription desc.length)
        else if isBannedTrigger trig then .error (.bannedTrigger trig)
        else if file.body = [] then .error .emptyBody
        else if BODY_MAX < file.body.length then .error (.longBody file.body.length)
        else
          match scanInjection isWord file.body with
          | some pattern => .error (.framing pattern)
          | none =>
              .ok { name := name, description := desc, body := file.body, pathTrigger := trig }

-- Words

section Words

variable {front back text : Str}

theorem splitWords_append_blank {blank : Char} (isBlank : isSpace blank = true)
    : splitWords (front ++ blank :: back) = splitWords front ++ splitWords back := by
  unfold splitWords
  rw [List.splitOnP_append_cons _ _ isBlank, List.filter_append]

/-- Blanks before a text add no words; by induction on them. -/
theorem splitWords_blanks_append (blank : ∀ char ∈ front, isSpace char = true)
    : splitWords (front ++ text) = splitWords text := by
  induction front with
  | nil => rfl
  | cons first front ih =>
      have split :=
        @splitWords_append_blank [] (front ++ text) first (blank first List.mem_cons_self)
      rw [List.nil_append] at split
      rw [List.cons_append, split, ih fun char mem => blank char (.tail _ mem)]
      rfl

theorem splitWords_append_blanks (blank : ∀ char ∈ back, isSpace char = true)
    : splitWords (text ++ back) = splitWords text := by
  cases back with
  | nil => rw [List.append_nil]
  | cons first back =>
      have none := @splitWords_blanks_append back [] fun char mem => blank char (.tail _ mem)
      rw [List.append_nil] at none
      rw [splitWords_append_blank (blank first List.mem_cons_self), none]
      exact List.append_nil _

theorem splitWords_strip (text : Str) : splitWords (strip text) = splitWords text := by
  obtain ⟨front, back, whole, before, behind⟩ := Text.trim_split isSpace text
  have words := congrArg splitWords whole
  rw [splitWords_append_blanks behind, splitWords_blanks_append before] at words
  exact words.symm

/-- The words have all that is not blank, by induction on the text. -/
theorem flatten_splitWords (text : Str)
    : (splitWords text).flatten = text.filter (fun char => !isSpace char) := by
  unfold splitWords
  rw [List.flatten_filter_not_isEmpty]
  induction text with
  | nil => rfl
  | cons first text ih =>
      obtain ⟨word, words, split⟩ := List.exists_cons_of_ne_nil (List.splitOnP_ne_nil isSpace text)
      rw [List.splitOnP_cons_eq_if_modifyHead]
      by_cases blank : isSpace first = true
      · rw [if_pos blank, List.filter_cons_of_neg (by simp [blank]), ← ih]
        rfl
      · rw [if_neg blank, List.filter_cons_of_pos (by simp [blank]), ← ih, split]
        rfl

end Words

-- Quotes

/-- A text between quotes of one kind. -/
def Quoted (text : Str) : Prop :=
  ∃ quote inner, isQuote quote = true ∧ text = quote :: inner ++ [quote]

section Quotes

variable {text : Str}

theorem unquote_quoted {quote : Char} {inner : Str} (isQuote_ : isQuote quote = true)
    : unquote (quote :: inner ++ [quote]) = inner := by
  simp [unquote, isQuote_]

theorem unquote_unquoted (plain : ¬ Quoted text) : unquote text = text := by
  unfold unquote
  split
  · rfl
  · rename_i first rest
    refine if_neg fun closed => plain ?_
    rw [Bool.and_eq_true, decide_eq_true_iff] at closed
    obtain ⟨inner, same⟩ := List.getLast?_eq_some_iff.mp closed.1
    exact ⟨first, inner, closed.2, by rw [same]; rfl⟩

theorem not_isSpace_of_isQuote {quote : Char} (isQuote_ : isQuote quote = true)
    : isSpace quote = false := by
  unfold isQuote at isQuote_
  rw [Bool.or_eq_true, decide_eq_true_iff, decide_eq_true_iff] at isQuote_
  rcases isQuote_ with rfl | rfl
  · rfl
  · rfl

/-- Dropping quotes changes the alternatives: two characters of them are gone. -/
theorem triggerAlternatives_unquote
    : triggerAlternatives (unquote (strip text)) = triggerAlternatives text
      ↔ ¬ Quoted (strip text) := by
  constructor
  · intro same quoted
    obtain ⟨quote, inner, isQuote_, whole⟩ := quoted
    have kept := not_isSpace_of_isQuote isQuote_
    unfold triggerAlternatives at same
    rw [← splitWords_strip text, whole, unquote_quoted isQuote_] at same
    have lengths := congrArg (fun words => words.flatten.length) same
    simp only [flatten_splitWords, List.filter_append, List.filter_cons, kept, Bool.not_false,
      if_true, List.filter_nil, List.length_append, List.length_cons, List.length_nil] at lengths
    omega
  · intro plain
    rw [unquote_unquoted plain]
    exact splitWords_strip text

end Quotes

-- Frontmatter

/-- A key that is read as it is written. -/
structure IsKey (key : Str) : Prop where
  filled : key ≠ []
  noColon : ':' ∉ key
  trimmed : Trimmed isSpace key
  noHash : key.head? ≠ some '#'
  lowered : lower key = key

/-- `key: value`. -/
def entryLine (key value : Str) : Str :=
  key ++ ':' :: ' ' :: value

section Frontmatter

variable {key value rest name : Str} {entries : List (Str × Str)} {lines : List Str}

theorem strip_cons_blank {blank : Char} (isBlank : isSpace blank = true) (text : Str)
    : strip (blank :: text) = strip text := by
  unfold strip
  rw [List.dropWhile_cons_of_pos isBlank]

theorem not_isFence_entryLine : isFence (entryLine key value) = false := by
  rw [isFence, decide_eq_false_iff_not]
  intro same
  have colon : ':' ∈ strip (entryLine key value) :=
    (Text.mem_trim rfl).mpr (List.mem_append_right _ List.mem_cons_self)
  rw [same] at colon
  revert colon
  decide

theorem not_isComment_entryLine (isKey : IsKey key) : isComment (entryLine key value) = false := by
  obtain ⟨first, others, rfl⟩ := List.exists_cons_of_ne_nil isKey.filled
  have solid := isKey.trimmed.head first rfl
  rw [isComment, Bool.or_eq_false_iff, decide_eq_false_iff_not, decide_eq_false_iff_not]
  constructor
  · intro empty
    have mem : first ∈ strip (entryLine (first :: others) value) :=
      (Text.mem_trim solid).mpr List.mem_cons_self
    rw [empty] at mem
    cases mem
  · rw [entryLine, List.cons_append, List.dropWhile_cons_of_neg (by simp [solid])]
    exact isKey.noHash

theorem partitionColon_entryLine (isKey : IsKey key)
    : partitionColon (entryLine key value) = some (key, ' ' :: value) := by
  have before : ∀ char ∈ key, decide (char ≠ ':') = true := by
    intro char mem
    exact decide_eq_true fun same => isKey.noColon (same ▸ mem)
  have colon : ':' ∈ entryLine key value := List.mem_append_right _ List.mem_cons_self
  rw [partitionColon, if_pos colon, entryLine, List.takeWhile_append_of_pos before,
    List.dropWhile_append_of_pos before, List.takeWhile_cons_of_neg (by simp),
    List.dropWhile_cons_of_neg (by simp), List.append_nil]
  rfl

theorem parseMeta_entryLine (isKey : IsKey key)
    : parseMeta entries (entryLine key value :: lines)
      = parseMeta (setKey key (unquote (strip value)) entries) lines := by
  rw [parseMeta, not_isComment_entryLine isKey, partitionColon_entryLine isKey]
  simp only [Bool.false_eq_true, if_false]
  rw [strip_cons_blank rfl, show strip key = key from isKey.trimmed.trim, isKey.lowered]

/-- A frontmatter of single lines, none of which could close it, is read line by line. -/
theorem parseSkillMd_frontmatter
    (lines_ : ∀ line ∈ lines, '\n' ∉ line ∧ isFence line = false)
    : parseSkillMd
        (Text.terminated '\n' ("---".toList :: lines ++ ["---".toList]) ++ rest)
      = (parseMeta [] lines).map (fun entries => ⟨entries, strip rest⟩) := by
  have open_ : ∀ line ∈ lines, (!isFence line) = true := by
    intro line mem
    rw [(lines_ line mem).2]
    rfl
  have clean : ∀ line ∈ "---".toList :: lines ++ ["---".toList], '\n' ∉ line := by
    intro line mem
    rcases List.mem_append.mp mem with mem | mem
    · rcases List.mem_cons.mp mem with rfl | mem
      · decide
      · exact (lines_ line mem).1
    · obtain rfl := List.mem_singleton.mp mem
      decide
  have fence : isFence "---".toList = true := by decide
  have closes : ¬ (fun line => !isFence line) "---".toList = true := by decide
  rw [parseSkillMd, Text.splitOn_terminated_append clean, List.cons_append, List.cons_append,
    List.append_assoc]
  simp only [fence, Bool.not_true, Bool.false_eq_true, if_false]
  rw [List.dropWhile_append_of_pos open_, List.takeWhile_append_of_pos open_, List.singleton_append,
    @List.dropWhile_cons_of_neg _ (fun line => !isFence line) _ _ closes,
    @List.takeWhile_cons_of_neg _ (fun line => !isFence line) _ _ closes, List.append_nil]
  simp only [List.intercalate_splitOn]

/-- The keys of a drafted skill and their values. -/
def skillKeys (name desc trig : Str) : List (Str × Str) :=
  [("name".toList, name), ("description".toList, desc), ("path_trigger".toList, trig)]

theorem isKey_name : IsKey "name".toList where
  filled := by decide
  noColon := by decide
  trimmed := Text.trim_eq_self.mp (by decide)
  noHash := by decide
  lowered := by decide

theorem isKey_description : IsKey "description".toList where
  filled := by decide
  noColon := by decide
  trimmed := Text.trim_eq_self.mp (by decide)
  noHash := by decide
  lowered := by decide

theorem isKey_pathTrigger : IsKey "path_trigger".toList where
  filled := by decide
  noColon := by decide
  trimmed := Text.trim_eq_self.mp (by decide)
  noHash := by decide
  lowered := by decide

/-- The three lines of a drafted skill's frontmatter. -/
theorem parseMeta_skill {desc trig : Str}
    : parseMeta []
        [entryLine "name".toList name, entryLine "description".toList desc,
          entryLine "path_trigger".toList trig]
      = some
          (skillKeys (unquote (strip name)) (unquote (strip desc)) (unquote (strip trig))) := by
  rw [parseMeta_entryLine isKey_name, parseMeta_entryLine isKey_description,
    parseMeta_entryLine isKey_pathTrigger]
  rfl

/-- What is left to check of a file with these keys. -/
theorem lintSkill_ok {isWord : Char → Bool} {raw desc trig body : Str} {skill : LintedSkill}
    (named : skillNameForm name = true)
    (parsed : parseSkillMd raw = some ⟨skillKeys name desc trig, body⟩)
    (described : desc ≠ []) (short : desc.length ≤ DESC_MAX) (filled : body ≠ [])
    : lintSkill isWord name raw = .ok skill
      ↔ isBannedTrigger trig = false
        ∧ body.length ≤ BODY_MAX
        ∧ scanInjection isWord body = none
        ∧ skill = { name := name, description := desc, body := body, pathTrigger := trig } := by
  have lookups
      : (skillKeys name desc trig).lookup "name".toList = some name
        ∧ (skillKeys name desc trig).lookup "description".toList = some desc
        ∧ (skillKeys name desc trig).lookup "path_trigger".toList = some trig :=
    ⟨rfl, rfl, rfl⟩
  have harmless
      : AFFORDANCE_KEYS.filter
          (fun key => ((skillKeys name desc trig).lookup key).isSome)
        = [] :=
    rfl
  rw [lintSkill, if_neg (by simp [named]), parsed]
  simp only [lookups, harmless, Option.getD_some]
  rw [if_neg (by simp), if_neg (by simp), if_neg described, if_neg (by omega)]
  by_cases banned : isBannedTrigger trig = true
  · rw [if_pos banned]
    simp [banned]
  rw [if_neg banned, if_neg filled]
  by_cases long : BODY_MAX < body.length
  · rw [if_pos long]
    simp only [reduceCtorEq, false_iff, not_and]
    omega
  rw [if_neg long]
  cases scanned : scanInjection isWord body with
  | some pattern => simp
  | none => simp [banned, Nat.le_of_not_lt long, eq_comm]

end Frontmatter

end Capture

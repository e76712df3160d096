import Myndaix.Capture.Draft
import Myndaix.Text.Occurrences
import Myndaix.Text.Trim

/-! The lines in which a review names its findings, and what is parsed of them. -/

namespace Outcomes

open Automerge (lower)
open Capture (RULE_TAG_TAXONOMY isAllowedTag isControl)
open Text

-- The grammar

def OUTCOME_MAX_ROWS : Nat :=
  50

/-- The digits that `int` converts at most: the interpreter's default. -/
def maxStrDigits : Nat :=
  4300

/-- The exception of `int` on more digits. -/
inductive ValueError : Type where
  | tooManyDigits
deriving DecidableEq, Repr

/-- A lower-case letter or a colon, as `re.I` matches it. -/
def folds (letter char : Char) : Bool :=
  char = letter || char = letter.toUpper
    || (letter = 'i' && (char = '\u0130' || char = '\u0131'))

/-- What follows these letters at the start of the text, in any case. -/
def dropFolded : List Char → List Char → Option (List Char)
  | [], text => some text
  | _ :: _, [] => none
  | letter :: letters, char :: text =>
      if folds letter char then dropFolded letters text else none

def findingMark : List Char :=
  ['f', 'i', 'n', 'd', 'i', 'n', 'g', ':']

/-- The group of `_FINDING_LINE`, if it matches the line. -/
def findingGroup (line : List Char) : Option (List Char) :=
  (dropFolded findingMark (line.dropWhile (fun char => char = ' ' || char = '\t'))).filter
    (fun raw => !raw.isEmpty)

/-- `_SEP`. -/
def separator : List Char :=
  [' ', '@', ' ']

/-- `_excluded_path`. -/
def excludedPath (path : List Char) : Bool :=
  "skills/".toList.isPrefixOf path || "skill/auto/".toList.isPrefixOf path

-- The parser

section Parser

variable (allowedTags : List (List Char))

/-- The tag, the path and the digits of a finding that passes the checks before `int`. -/
def splitFields (raw : List Char) : Option (List Char × List Char × List Char) :=
  if raw.any isControl then none
  else
    match rsplit separator raw with
    | none => none
    | some (tagPart, chunk) =>
        let tag := lower (strip tagPart)
        if !isAllowedTag tag || !allowedTags.contains tag then none
        else
          match rsplit [':'] (strip chunk) with
          | none | some ([], _) => none
          | some (before, after) =>
              let path := strip before
              let lineS := strip after
              if path.isEmpty || lineS.isEmpty || !lineS.all Char.isDigit then none
              else some (tag, path, lineS)

/-- One finding, none if it is dropped. -/
def readFinding (raw : List Char) : Except ValueError (Option ParsedFinding) :=
  match splitFields allowedTags raw with
  | none => .ok none
  | some (tag, path, lineS) =>
      if maxStrDigits < lineS.length then .error .tooManyDigits
      else
        let line := Nat.ofDigitChars 10 lineS 0
        if line < 1 || excludedPath path then .ok none
        else .ok (some ⟨String.ofList tag, String.ofList path, line⟩)

/-- What has been parsed. -/
structure Parsed where
  findings : List ParsedFinding
  dropped : Nat

def parseGroup (parsed : Parsed) (raw : List Char) : Except ValueError Parsed :=
  match readFinding allowedTags raw with
  | .error raised => .error raised
  | .ok none => .ok { parsed with dropped := parsed.dropped + 1 }
  | .ok (some finding) =>
      if OUTCOME_MAX_ROWS ≤ parsed.findings.length then
        .ok { parsed with dropped := parsed.dropped + 1 }
      else .ok { parsed with findings := parsed.findings ++ [finding] }

/-- The loop over the matches: no match reaches over the end of a line. -/
def parseLines : Parsed → List (List Char) → Except ValueError Parsed
  | parsed, [] => .ok parsed
  | parsed, line :: lines =>
      match findingGroup line with
      | none => parseLines parsed lines
      | some raw =>
          match parseGroup allowedTags parsed raw with
          | .error raised => .error raised
          | .ok parsed => parseLines parsed lines

/-- `parse_finding_lines`. -/
def parseFindingLines (reviewText : List Char) : Except ValueError Parsed :=
  parseLines allowedTags ⟨[], 0⟩ (splitLines reviewText)

end Parser

-- What the lines name

/-- A finding line that is well formed but for a number of more digits than `int` converts. -/
def Overlong (allowedTags : List (List Char)) (line : List Char) : Prop :=
  ∃ raw tag path lineS,
    findingGroup line = some raw ∧ splitFields allowedTags raw = some (tag, path, lineS)
    ∧ maxStrDigits < lineS.length

/-- The finding that a well-formed line names. -/
def named (allowedTags : List (List Char)) (line : List Char) : Option ParsedFinding :=
  (findingGroup line).bind (fun raw => (readFinding allowedTags raw).toOption.join)

section Loop

variable {allowedTags : List (List Char)} {parsed : Parsed} {line : List Char}
  {lines : List (List Char)}

theorem readFinding_error {raw : List Char} {raised : ValueError}
    : readFinding allowedTags raw = .error raised
      ↔ ∃ tag path lineS,
          splitFields allowedTags raw = some (tag, path, lineS) ∧ maxStrDigits < lineS.length := by
  unfold readFinding
  cases fields : splitFields allowedTags raw with
  | none => simp
  | some found =>
      obtain ⟨tag, path, lineS⟩ := found
      dsimp only
      split
      · rename_i long
        exact ⟨fun _ => ⟨tag, path, lineS, rfl, long⟩, fun _ => by cases raised; rfl⟩
      · rename_i short
        constructor
        · intro raises
          split at raises <;> cases raises
        · intro raises
          obtain ⟨_, _, _, same, long⟩ := raises
          cases same
          exact absurd long short

/-- The loop takes the findings up that the lines name, until there are as many as the cap. -/
theorem parseLines_ok (short : ∀ line ∈ lines, ¬Overlong allowedTags line)
    (room : parsed.findings.length ≤ OUTCOME_MAX_ROWS)
    : ∃ last,
        parseLines allowedTags parsed lines = .ok last
        ∧ last.findings
          = (parsed.findings ++ lines.filterMap (named allowedTags)).take OUTCOME_MAX_ROWS := by
  induction lines generalizing parsed with
  | nil =>
      refine ⟨parsed, rfl, ?_⟩
      rw [List.filterMap_nil, List.append_nil, List.take_of_length_le room]
  | cons line lines ih =>
      have onward := fun other mem => short other (List.mem_cons_of_mem _ mem)
      rw [parseLines]
      cases group : findingGroup line with
      | none =>
          have silent : named allowedTags line = none := by
            rw [named, group]
            rfl
          rw [List.filterMap_cons_none silent]
          exact ih onward room
      | some raw =>
          dsimp only
          unfold parseGroup
          cases read : readFinding allowedTags raw with
          | error raised =>
              obtain ⟨tag, path, lineS, fields, long⟩ := readFinding_error.mp read
              exact absurd ⟨raw, tag, path, lineS, group, fields, long⟩
                (short line List.mem_cons_self)
          | ok found =>
              have names : named allowedTags line = found := by
                rw [named, group, Option.bind_some, read]
                cases found <;> rfl
              cases found with
              | none =>
                  rw [List.filterMap_cons_none names]
                  exact ih onward room
              | some finding =>
                  rw [List.filterMap_cons_some names]
                  dsimp only
                  by_cases full : OUTCOME_MAX_ROWS ≤ parsed.findings.length
                  · rw [if_pos full]
                    obtain ⟨last, runs, same⟩ :=
                      @ih { parsed with dropped := parsed.dropped + 1 } onward room
                    refine ⟨last, runs, ?_⟩
                    rw [same, List.take_append_of_le_length full,
                      List.take_append_of_le_length full]
                  · rw [if_neg full]
                    have room
                        : (parsed.findings ++ [finding]).length ≤ OUTCOME_MAX_ROWS := by
                      rw [List.length_append, List.length_singleton]
                      omega
                    obtain ⟨last, runs, same⟩ :=
                      @ih { parsed with findings := parsed.findings ++ [finding] } onward room
                    refine ⟨last, runs, ?_⟩
                    rw [same, List.append_assoc, List.singleton_append]

/-- It raises if a number is too long. -/
theorem parseLines_raises (long : ∃ line ∈ lines, Overlong allowedTags line)
    : ∃ raised, parseLines allowedTags parsed lines = .error raised := by
  induction lines generalizing parsed with
  | nil =>
      obtain ⟨line, mem, _⟩ := long
      cases mem
  | cons line lines ih =>
      rw [parseLines]
      cases group : findingGroup line with
      | none =>
          refine ih ?_
          obtain ⟨other, mem, overlong⟩ := long
          rcases List.mem_cons.mp mem with rfl | mem
          · obtain ⟨raw, _, _, _, group_, _⟩ := overlong
            rw [group] at group_
            cases group_
          · exact ⟨other, mem, overlong⟩
      | some raw =>
          dsimp only
          cases first : parseGroup allowedTags parsed raw with
          | error raised => exact ⟨raised, rfl⟩
          | ok next =>
              refine ih ?_
              obtain ⟨other, mem, overlong⟩ := long
              rcases List.mem_cons.mp mem with rfl | mem
              · obtain ⟨other, tag, path, lineS, group_, fields, overlong⟩ := overlong
                rw [group] at group_
                cases group_
                have raises : readFinding allowedTags raw = .error .tooManyDigits :=
                  readFinding_error.mpr ⟨tag, path, lineS, fields, overlong⟩
                rw [parseGroup, raises] at first
                cases first
              · exact ⟨other, mem, overlong⟩

/-- What is taken of the images of a list comes of an item with few images before it. -/
theorem mem_take_filterMap {Item Image : Type} (image : Item → Option Image) (items : List Item)
    (count : Nat) (found : Image)
    : found ∈ (items.filterMap image).take count
      ↔ ∃ above item below,
          items = above ++ item :: below ∧ image item = some found
          ∧ (above.filterMap image).length < count := by
  induction items generalizing count with
  | nil => simp
  | cons first rest ih =>
      constructor
      · intro mem
        cases isImage : image first with
        | none =>
            rw [List.filterMap_cons_none isImage] at mem
            obtain ⟨above, item, below, rfl, named, few⟩ := (ih count).mp mem
            exact ⟨first :: above, item, below, rfl, named, by
              rwa [List.filterMap_cons_none isImage]⟩
        | some own =>
            rw [List.filterMap_cons_some isImage] at mem
            cases count with
            | zero => cases mem
            | succ count =>
                rw [List.take_succ_cons] at mem
                rcases List.mem_cons.mp mem with rfl | mem
                · exact ⟨[], first, rest, rfl, isImage, Nat.succ_pos _⟩
                · obtain ⟨above, item, below, rfl, named, few⟩ := (ih count).mp mem
                  refine ⟨first :: above, item, below, rfl, named, ?_⟩
                  rw [List.filterMap_cons_some isImage, List.length_cons]
                  omega
      · intro stands
        obtain ⟨above, item, below, same, named, few⟩ := stands
        rw [same, List.filterMap_append, List.filterMap_cons_some named]
        refine List.mem_take_iff_getElem.mpr ⟨(above.filterMap image).length, ?_, ?_⟩
        · rw [List.length_append, List.length_cons]
          omega
        · simp

end Loop

-- A line as reviewers are told to write it

/-- `finding:<tag> @ <path>:<digits>`. -/
def findingLine (tag path digits : List Char) : List Char :=
  findingMark ++ (tag ++ separator ++ path ++ ':' :: digits)

/-- A path that a finding may have. -/
structure FindingPath (path : List Char) : Prop where
  filled : path ≠ []
  clean : path.any isControl = false
  trimmed : strip path = path
  included : excludedPath path = false

/-- The path has the separator in it, or with the space before the path makes one. -/
def Separates (path : List Char) : Prop :=
  separator <:+: ' ' :: path

section Line

variable {allowedTags : List (List Char)} {tag path digits : List Char}

theorem strip_eq_self {text : List Char} : strip text = text ↔ Trimmed isSpace text :=
  trim_eq_self

/-- What the tags of the taxonomy have in common. -/
theorem taxonomy_tag (listed : tag ∈ RULE_TAG_TAXONOMY)
    : lower (strip tag) = tag ∧ isAllowedTag tag = true ∧ tag.any isControl = false
      ∧ '@' ∉ tag := by
  revert tag
  decide

/-- A text with an at-sign is no tag. -/
theorem not_allowed_of_at {text : List Char} (mem : '@' ∈ text)
    : isAllowedTag (lower (strip text)) = false := by
  have lowered (text : List Char) (mem : '@' ∈ text) : '@' ∈ lower (strip text) :=
    List.mem_flatMap.mpr ⟨'@', (mem_trim rfl).mpr mem, List.mem_singleton.mpr rfl⟩
  cases allowed : isAllowedTag (lower (strip text)) with
  | false => rfl
  | true =>
      have listed := (Bool.and_eq_true_iff.mp allowed).2
      have atSign := lowered _ (lowered text mem)
      exact absurd atSign (taxonomy_tag (List.contains_iff_mem.mp listed)).2.2.2

/-- Letters fold to themselves. -/
theorem dropFolded_append (letters text : List Char)
    : dropFolded letters (letters ++ text) = some text := by
  induction letters with
  | nil => rfl
  | cons letter letters ih =>
      rw [List.cons_append, dropFolded, if_pos (by simp [folds])]
      exact ih

theorem findingGroup_line (tag path digits : List Char)
    : findingGroup (findingLine tag path digits)
      = some (tag ++ separator ++ path ++ ':' :: digits) := by
  have starts
      : (findingLine tag path digits).dropWhile (fun char => char = ' ' || char = '\t')
        = findingLine tag path digits :=
    List.dropWhile_cons_of_neg (by decide)
  rw [findingGroup, starts, findingLine, dropFolded_append, Option.filter_some, if_pos (by simp)]

/-- Behind the separator of the line there is another one only if the path makes it. -/
theorem later_separator (isNumber : ∀ char ∈ digits, char.isDigit = true)
    : separator <:+: ['@', ' '] ++ (path ++ ':' :: digits) ↔ Separates path := by
  have apart : ¬separator <:+: digits := fun occurs => by
    have space : ' ' ∈ digits := occurs.subset (by decide)
    cases isNumber ' ' space
  have front : separator <:+: '@' :: ' ' :: path ↔ separator <:+: ' ' :: path := by
    rw [List.infix_cons_iff, or_iff_right]
    intro begins
    cases (List.cons_prefix_cons.mp begins).1
  rw [← List.append_assoc, infix_across (by decide), or_iff_left apart]
  exact front

theorem digits_clean (isNumber : ∀ char ∈ digits, char.isDigit = true)
    : digits.any isControl = false ∧ Trimmed isSpace digits ∧ ':' ∉ digits := by
  have range (char : Char) (mem : char ∈ digits) : 0x30 ≤ char.toNat ∧ char.toNat ≤ 0x39 :=
    Char.isDigit_iff_toNat.mp (isNumber char mem)
  have filled (char : Char) (mem : char ∈ digits) : isSpace char = false := by
    have range := range char mem
    simp only [isSpace, Bool.or_eq_false_iff, Bool.and_eq_false_iff, decide_eq_false_iff_not]
    omega
  refine ⟨List.any_eq_false.mpr fun char mem => ?_, ⟨?_, ?_⟩, fun colon => ?_⟩
  · have range := range char mem
    simp only [isControl, Bool.or_eq_true, decide_eq_true_eq]
    omega
  · exact fun char isHead => filled char (List.mem_of_head? isHead)
  · exact fun char isLast => filled char (List.mem_of_getLast? isLast)
  · have high : (':' : Char).toNat ≤ 0x39 := (range ':' colon).2
    exact absurd high (by decide)

/-- If the path separates, what stands before the last separator is no tag. -/
theorem splitFields_separated (listed : tag ∈ RULE_TAG_TAXONOMY)
    (isNumber : ∀ char ∈ digits, char.isDigit = true) (separates : Separates path)
    : splitFields allowedTags (tag ++ separator ++ path ++ ':' :: digits) = none := by
  unfold splitFields
  split
  · rfl
  · rw [List.append_assoc _ path]
    obtain ⟨before, after, parts, same, last⟩ :=
      rsplit_occurs (⟨tag, path ++ ':' :: digits, rfl⟩
        : separator <:+: tag ++ separator ++ (path ++ ':' :: digits))
    have atSign : '@' ∈ before := by
      by_contra noAt
      have shifted
          : (tag ++ [' ']) ++ '@' :: ' ' :: (path ++ ':' :: digits)
            = (before ++ [' ']) ++ '@' :: ' ' :: after := by
        simpa [separator] using same
      have spaced (text : List Char) (absent : '@' ∉ text) : '@' ∉ text ++ [' '] := by
        simpa using absent
      obtain ⟨_, behind⟩ :=
        first_inj (spaced tag (taxonomy_tag listed).2.2.2) (spaced before noAt) shifted
      rw [← (List.cons.inj behind).2] at last
      exact last ((later_separator isNumber).mpr separates)
    have found
        : rsplit separator (tag ++ separator ++ (path ++ ':' :: digits)) = some (before, after) :=
      parts
    simp only [found, not_allowed_of_at atSign, Bool.not_false, Bool.true_or, if_true]

/-- Otherwise the fields are those of the line. -/
theorem splitFields_line (listed : tag ∈ RULE_TAG_TAXONOMY) (allowed : tag ∈ allowedTags)
    (isPath : FindingPath path) (some_ : digits ≠ [])
    (isNumber : ∀ char ∈ digits, char.isDigit = true) (whole : ¬Separates path)
    : splitFields allowedTags (tag ++ separator ++ path ++ ':' :: digits)
      = some (tag, path, digits) := by
  obtain ⟨lowered, isTag, tagClean, _⟩ := taxonomy_tag listed
  obtain ⟨digitsClean, digitsTrimmed, noColon⟩ := digits_clean isNumber
  have pathTrimmed := strip_eq_self.mp isPath.trimmed
  have clean : (tag ++ separator ++ path ++ ':' :: digits).any isControl = false := by
    simp only [List.any_append, List.any_cons, tagClean, isPath.clean, digitsClean]
    rfl
  have parts
      : rsplit separator (tag ++ separator ++ (path ++ ':' :: digits))
        = some (tag, path ++ ':' :: digits) :=
    rsplit_last tag fun occurs => whole ((later_separator isNumber).mp occurs)
  have chunk : strip (path ++ ':' :: digits) = path ++ [':'] ++ digits := by
    rw [List.append_assoc, List.singleton_append]
    refine strip_eq_self.mpr ⟨fun char isHead => ?_, fun char isLast => ?_⟩
    · obtain ⟨first, rest, rfl⟩ := List.exists_cons_of_ne_nil isPath.filled
      exact pathTrimmed.head char isHead
    · have isLast : digits.getLast? = some char := by
        rw [← isLast, List.getLast?_append_of_ne_nil _ (by simp)]
        exact (List.getLast?_cons_of_ne_nil some_).symm
      exact digitsTrimmed.last char isLast
  have colon : rsplit [':'] (path ++ [':'] ++ digits) = some (path, digits) :=
    rsplit_last path fun occurs => noColon (occurs.subset List.mem_cons_self)
  rw [splitFields, clean, if_neg Bool.false_ne_true, List.append_assoc _ path, parts]
  dsimp only
  rw [lowered, isTag, List.contains_iff_mem.mpr allowed, chunk, colon]
  obtain ⟨first, rest, rfl⟩ := List.exists_cons_of_ne_nil isPath.filled
  have empty : digits.isEmpty = false := by simpa using some_
  have number : digits.all Char.isDigit = true := List.all_eq_true.mpr isNumber
  simp only [isPath.trimmed, strip_eq_self.mpr digitsTrimmed, empty, number]
  rfl

theorem decimal_digits (line : Nat) (char : Char) (mem : char ∈ Nat.toDigits 10 line)
    : char.isDigit = true :=
  Nat.isDigit_of_mem_toDigits (by decide) (Nat.le_refl 10) mem

/-- What is read of the line, with a number that `int` converts or not. -/
theorem readFinding_line (listed : tag ∈ RULE_TAG_TAXONOMY) (allowed : tag ∈ allowedTags)
    (isPath : FindingPath path) {line : Nat} (positive : 1 ≤ line) (whole : ¬Separates path)
    : readFinding allowedTags (tag ++ separator ++ path ++ ':' :: Nat.toDigits 10 line)
      = if maxStrDigits < (Nat.toDigits 10 line).length then .error .tooManyDigits
        else .ok (some ⟨String.ofList tag, String.ofList path, line⟩) := by
  have fields :=
    splitFields_line listed allowed isPath Nat.toDigits_ne_nil (decimal_digits line) whole
  have kept : (decide (line < 1) || excludedPath path) = false := by
    rw [isPath.included, Bool.or_false, decide_eq_false_iff_not]
    omega
  simp only [readFinding, fields, Nat.ofDigitChars_ten_toDigits, kept]
  rfl

end Line

-- The findings of a text

/-- Fewer lines than the cap allows are well formed above this one, where it first stands so. -/
def RoomFor (allowedTags lines : List (List Char)) (line : List Char) : Prop :=
  ∃ above below,
    lines = above ++ line :: below
    ∧ (above.filterMap (named allowedTags)).length < OUTCOME_MAX_ROWS

/-- Parsing returns if and only if no line has a number that is too long. A line as reviewers are
told to write it yields its finding if and only if, besides, its path does not separate and there is
room for it, or a line that is spelled otherwise names the same finding.
-/
theorem finding_lines_parsed (allowedTags : List (List Char)) (text : List Char)
    : ((∃ parsed, parseFindingLines allowedTags text = .ok parsed)
        ↔ ∀ line ∈ splitLines text, ¬Overlong allowedTags line)
      ∧ ∀ tag ∈ RULE_TAG_TAXONOMY,
          tag ∈ allowedTags
          → ∀ path,
              FindingPath path
              → ∀ line,
                  1 ≤ line
                  → findingLine tag path (Nat.toDigits 10 line) ∈ splitLines text
                  → ((∃ parsed,
                        parseFindingLines allowedTags text = .ok parsed
                        ∧ ⟨String.ofList tag, String.ofList path, line⟩ ∈ parsed.findings)
                      ↔ (∀ line ∈ splitLines text, ¬Overlong allowedTags line)
                        ∧ (¬Separates path
                              ∧ RoomFor allowedTags (splitLines text)
                                (findingLine tag path (Nat.toDigits 10 line))
                            ∨ ∃ other,
                                other ≠ findingLine tag path (Nat.toDigits 10 line)
                                ∧ named allowedTags other
                                  = some ⟨String.ofList tag, String.ofList path, line⟩
                                ∧ RoomFor allowedTags (splitLines text) other)) := by
  have parses (short : ∀ line ∈ splitLines text, ¬Overlong allowedTags line)
      : ∃ parsed,
          parseFindingLines allowedTags text = .ok parsed
          ∧ parsed.findings
            = ((splitLines text).filterMap (named allowedTags)).take OUTCOME_MAX_ROWS := by
    obtain ⟨parsed, runs, same⟩ := @parseLines_ok _ ⟨[], 0⟩ _ short (Nat.zero_le _)
    exact ⟨parsed, runs, by rw [same, List.nil_append]⟩
  have raises (parsed : Parsed) (runs : parseFindingLines allowedTags text = .ok parsed)
      : ∀ line ∈ splitLines text, ¬Overlong allowedTags line := by
    intro line mem long
    obtain ⟨raised, fails⟩ := @parseLines_raises _ ⟨[], 0⟩ _ ⟨line, mem, long⟩
    rw [parseFindingLines, fails] at runs
    cases runs
  constructor
  · constructor
    · intro returns
      obtain ⟨parsed, runs⟩ := returns
      exact raises parsed runs
    · intro short
      obtain ⟨parsed, runs, _⟩ := parses short
      exact ⟨parsed, runs⟩
  · intro tag listed allowed path isPath line positive stands
    have own (found : ParsedFinding)
        (names
          : named allowedTags (findingLine tag path (Nat.toDigits 10 line)) = some found)
        : ¬Separates path := by
      intro separates
      have dropped :=
        @splitFields_separated allowedTags tag path (Nat.toDigits 10 line) listed
          (decimal_digits line) separates
      rw [named, findingGroup_line, Option.bind_some, readFinding, dropped] at names
      cases names
    constructor
    · intro yields
      obtain ⟨parsed, runs, mem⟩ := yields
      have short := raises parsed runs
      obtain ⟨_, runs_, same⟩ := parses short
      rw [runs] at runs_
      cases runs_
      rw [same] at mem
      obtain ⟨above, item, below, isText, names, few⟩ := (mem_take_filterMap ..).mp mem
      refine ⟨short, ?_⟩
      by_cases isLine : item = findingLine tag path (Nat.toDigits 10 line)
      · subst isLine
        exact Or.inl ⟨own _ names, above, below, isText, few⟩
      · exact Or.inr ⟨item, isLine, names, above, below, isText, few⟩
    · intro condition
      obtain ⟨short, room⟩ := condition
      obtain ⟨parsed, runs, same⟩ := parses short
      refine ⟨parsed, runs, ?_⟩
      rw [same]
      refine (mem_take_filterMap ..).mpr ?_
      rcases room with ⟨whole, above, below, isText, few⟩ | ⟨other, _, names, room⟩
      · refine ⟨above, _, below, isText, ?_, few⟩
        have read :=
          @readFinding_line allowedTags tag path listed allowed isPath line positive whole
        rw [named, findingGroup_line, Option.bind_some, read, if_neg]
        · rfl
        · intro long
          rw [if_pos long] at read
          obtain ⟨tag_, path_, lineS, fields, long⟩ := readFinding_error.mp read
          exact short _ stands ⟨_, tag_, path_, lineS, findingGroup_line .., fields, long⟩
      · obtain ⟨above, below, isText, few⟩ := room
        exact ⟨above, other, below, isText, names, few⟩

/-- A finding whose path has the separator in it is lost, and a number of more digits than `int`
converts makes the parser raise.
-/
theorem finding_lines_lost
    : (∃ tag ∈ RULE_TAG_TAXONOMY,
        ∃ path,
          FindingPath path
          ∧ ∃ parsed,
              parseFindingLines RULE_TAG_TAXONOMY (findingLine tag path (Nat.toDigits 10 1))
                = .ok parsed
              ∧ parsed.findings = [])
      ∧ ∃ text, parseFindingLines RULE_TAG_TAXONOMY text = .error .tooManyDigits := by
  constructor
  · have isPath : FindingPath "src/a @ b.py".toList :=
      ⟨by decide, by decide, by decide, by decide⟩
    refine ⟨"fail-open".toList, by decide, "src/a @ b.py".toList, isPath, ?_⟩
    have counted
        : (parseFindingLines RULE_TAG_TAXONOMY
              (findingLine "fail-open".toList "src/a @ b.py".toList
                (Nat.toDigits 10 1))).toOption.map
              (fun parsed => parsed.findings.length)
          = some 0 := by
      decide +kernel
    obtain ⟨parsed, runs, none_⟩ := Option.map_eq_some_iff.mp counted
    refine ⟨parsed, ?_, List.length_eq_zero_iff.mp none_⟩
    revert runs
    cases parseFindingLines RULE_TAG_TAXONOMY
      (findingLine "fail-open".toList "src/a @ b.py".toList (Nat.toDigits 10 1)) with
    | error raised => intro runs; cases runs
    | ok found => intro runs; cases runs; rfl
  · obtain ⟨digits, length, isNumber⟩
        : ∃ digits : List Char,
            digits.length = maxStrDigits + 1 ∧ ∀ char ∈ digits, char.isDigit = true := by
      refine ⟨List.replicate (maxStrDigits + 1) '1', List.length_replicate, fun char mem => ?_⟩
      rw [List.eq_of_mem_replicate mem]
      rfl
    have some_ : digits ≠ [] := List.ne_nil_of_length_pos (by omega)
    have isPath : FindingPath ['a'] := ⟨by decide, by decide, by decide, by decide⟩
    have whole : ¬Separates ['a'] := fun occurs => by
      have atSign : '@' ∈ [' ', 'a'] := occurs.subset (by decide)
      revert atSign
      decide
    have fields :=
      @splitFields_line RULE_TAG_TAXONOMY "fail-open".toList ['a'] digits (by decide) (by decide)
        isPath some_ isNumber whole
    have oneLine
        : splitLines (findingLine "fail-open".toList ['a'] digits)
          = [findingLine "fail-open".toList ['a'] digits] := by
      refine List.splitOn_eq_singleton fun feed => ?_
      rcases List.mem_append.mp feed with feed | feed
      · revert feed
        decide
      · rcases List.mem_append.mp feed with feed | feed
        · revert feed
          decide
        · rcases List.mem_cons.mp feed with feed | feed
          · cases feed
          · cases isNumber _ feed
    obtain ⟨raised, fails⟩ :=
      @parseLines_raises RULE_TAG_TAXONOMY ⟨[], 0⟩
        (splitLines (findingLine "fail-open".toList ['a'] digits))
        ⟨_, by rw [oneLine]; exact List.mem_cons_self, _, _, _, _, findingGroup_line .., fields,
          by omega⟩
    cases raised
    exact ⟨_, fails⟩

end Outcomes

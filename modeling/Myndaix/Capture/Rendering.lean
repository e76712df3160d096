import Myndaix.Capture.Skills

/-! Drafts of skills: what is rendered, when it passes the checks of its own promotion, and what is
read back of it.
-/

namespace Capture

open Automerge (lower)
open Outcomes (isSpace strip)
open Text (Trimmed)

-- Rendering

def renderSkillMd (isWord : Char → Bool) (s ruleTag pathTrigger whatsWrong preferredPattern : Str)
    (findingIds : List Str) (originRepo : Str)
    : Option Str :=
  if slug s ≠ some s ∨ !isAllowedTag ruleTag then none
  else if isBannedTrigger pathTrigger || pathTrigger.any isControl then none
  else
    let raw := skillMd s ruleTag pathTrigger whatsWrong preferredPattern findingIds originRepo
    match lintSkill isWord s raw with
    | .error _ => none
    | .ok _ => some raw

-- Fields

section Fields

variable {text : Str} {char : Char} {maxlen : Nat}

/-- By the recursion over the spans. -/
theorem mem_dropTags {skip : Nat} (mem : char ∈ dropTags skip text) : char = ' ' ∨ char ∈ text := by
  fun_induction dropTags skip text with
  | case1 => cases mem
  | case2 skip first rest ih => exact (ih mem).imp_right (.tail _)
  | case3 first rest span found ih =>
      rcases List.mem_cons.mp mem with rfl | mem
      · exact .inl rfl
      · exact (ih mem).imp_right (.tail _)
  | case4 first rest found ih =>
      rcases List.mem_cons.mp mem with rfl | mem
      · exact .inr List.mem_cons_self
      · exact (ih mem).imp_right (.tail _)

theorem mem_collapseBlanks {inRun : Bool} (mem : char ∈ collapseBlanks inRun text)
    : char = ' ' ∨ char ∈ text := by
  induction text generalizing inRun with
  | nil => cases mem
  | cons first rest ih =>
      rw [collapseBlanks] at mem
      split at mem
      · split at mem
        · exact (ih mem).imp_right (.tail _)
        · rcases List.mem_cons.mp mem with rfl | mem
          · exact .inl rfl
          · exact (ih mem).imp_right (.tail _)
      · rcases List.mem_cons.mp mem with rfl | mem
        · exact .inr List.mem_cons_self
        · exact (ih mem).imp_right (.tail _)

/-- The text of a field before it is trimmed and cut. -/
def fieldText (text : Str) : Str :=
  collapseBlanks false ((dropTags 0 text).map (fun char => if isControl char then ' ' else char))

theorem mem_sanitizeField (mem : char ∈ sanitizeField text maxlen)
    : char = ' ' ∨ char ∈ text ∧ isControl char = false := by
  have cut : char ∈ (strip (fieldText text)).take maxlen := (Text.trim_infix _ _).subset mem
  have whole : char ∈ fieldText text := (Text.trim_infix _ _).subset (List.mem_of_mem_take cut)
  rcases mem_collapseBlanks whole with space | mapped
  · exact .inl space
  · obtain ⟨other, inside, same⟩ := List.mem_map.mp mapped
    split at same
    · exact .inl same.symm
    · rename_i printed
      obtain rfl := same
      exact (mem_dropTags inside).imp_right fun original => ⟨original, by simpa using printed⟩

theorem not_isControl_sanitizeField (mem : char ∈ sanitizeField text maxlen)
    : isControl char = false := by
  rcases mem_sanitizeField mem with rfl | printed
  · rfl
  · exact printed.2

theorem trimmed_sanitizeField (text : Str) (maxlen : Nat)
    : Trimmed isSpace (sanitizeField text maxlen) :=
  Text.trimmed_trim _ _

theorem length_sanitizeField (text : Str) (maxlen : Nat)
    : (sanitizeField text maxlen).length ≤ maxlen :=
  ((Text.trim_infix _ _).length_le).trans (List.length_take_le _ _)

/-- A first character that is printed and begins no span stays the first. -/
theorem sanitizeField_cons {rest : Str} (solid : isSpace char = false)
    (printed : isControl char = false) (plain : char ≠ '<') (positive : 0 < maxlen)
    : ∃ kept, sanitizeField (char :: rest) maxlen = char :: kept := by
  have blanks : [' ', '\t', '\r', '\x0c', '\x0b'].contains char = false := by
    by_contra blank
    rw [Bool.not_eq_false, List.contains_iff_mem] at blank
    have spaces : [' ', '\t', '\r', '\x0c', '\x0b'].all isSpace = true := by decide
    rw [List.all_eq_true.mp spaces char blank] at solid
    cases solid
  have begun : fieldText (char :: rest) = char :: fieldText rest := by
    rw [fieldText, dropTags, if_neg plain]
    simp only
    rw [List.map_cons, if_neg (by simp [printed]), collapseBlanks,
      if_neg (Bool.eq_false_iff.mp blanks)]
    rfl
  obtain ⟨trimmed, kept⟩ := @Text.trim_cons _ isSpace char (fieldText rest) solid
  obtain ⟨limit, rfl⟩ := Nat.exists_eq_add_of_lt positive
  obtain ⟨last, whole⟩ := @Text.trim_cons _ isSpace char (trimmed.take limit) solid
  refine ⟨last, ?_⟩
  have unfolded
      : sanitizeField (char :: rest) (0 + limit + 1)
        = Text.trim isSpace ((Text.trim isSpace (fieldText (char :: rest))).take (0 + limit + 1)) :=
    rfl
  rw [unfolded, begun, kept, List.take_succ_cons, Nat.zero_add, whole]

end Fields

-- Tags and slugs

/-- A character of tags. -/
def isTagChar (char : Char) : Bool :=
  tagStart char || char = '-'

section Tags

variable {char : Char} {s ruleTag : Str}

/-- The codes of the characters of tags. -/
theorem isTagChar_code (isTag : isTagChar char = true)
    : char.toNat = 45 ∨ (48 ≤ char.toNat ∧ char.toNat ≤ 57)
      ∨ (97 ≤ char.toNat ∧ char.toNat ≤ 122) := by
  unfold isTagChar tagStart at isTag
  simp only [Bool.or_eq_true, Bool.and_eq_true, decide_eq_true_iff, Char.le_def,
    UInt32.le_iff_toNat_le] at isTag
  rcases isTag with (letter | digit) | rfl
  · exact .inr (.inr letter)
  · exact .inr (.inl digit)
  · exact .inl rfl

theorem not_isSpace_tagChar (isTag : isTagChar char = true) : isSpace char = false := by
  have code := isTagChar_code isTag
  unfold isSpace
  simp only [Bool.or_eq_false_iff, Bool.and_eq_false_iff, decide_eq_false_iff_not]
  omega

theorem lower_tagChar (isTag : isTagChar char = true) : lower [char] = [char] := by
  have code := isTagChar_code isTag
  have notKelvin : char ≠ '\u212a' := by
    rintro rfl
    revert code
    decide
  have notDotted : char ≠ '\u0130' := by
    rintro rfl
    revert code
    decide
  have small : ¬ (char.val ≥ 'A'.val ∧ char.val ≤ 'Z'.val) := by
    intro capital
    have low : 65 ≤ char.toNat := UInt32.le_iff_toNat_le.mp capital.1
    have high : char.toNat ≤ 90 := UInt32.le_iff_toNat_le.mp capital.2
    omega
  have same : char.toLower = char := dif_neg small
  rw [lower, List.flatMap_cons, List.flatMap_nil, List.append_nil, if_neg notKelvin,
    if_neg notDotted, same]

theorem lower_tagChars {text : Str} (tags : ∀ char ∈ text, isTagChar char = true)
    : lower text = text := by
  induction text with
  | nil => rfl
  | cons first rest ih =>
      have cut : lower (first :: rest) = lower [first] ++ lower rest := by
        simp [lower]
      rw [cut, lower_tagChar (tags first List.mem_cons_self),
        ih fun char mem => tags char (.tail _ mem)]
      rfl

theorem isSpace_lineFeed : ∀ char ∈ ['\n'], isSpace char = true :=
  List.all_eq_true.mp rfl

/-- A text of the characters of tags, the first of them a letter or a digit. -/
structure IsSlug (s : Str) : Prop where
  filled : s ≠ []
  tags : ∀ char ∈ s, isTagChar char = true
  starts : ∀ char, s.head? = some char → tagStart char = true

theorem isSlug_of_tagForm (form : tagForm s = true)
    : IsSlug (if s.getLast? = some '\n' then s.dropLast else s) := by
  unfold tagForm at form
  split at form
  · cases form
  · rename_i first rest cut
    rw [cut]
    simp only [Bool.and_eq_true, List.all_eq_true] at form
    obtain ⟨⟨⟨starts, -⟩, -⟩, others⟩ := form
    refine ⟨List.cons_ne_nil _ _, ?_, ?_⟩
    · intro char mem
      rcases List.mem_cons.mp mem with rfl | mem
      · rw [isTagChar, starts]
        rfl
      · exact others char mem
    · intro char head
      cases head
      exact starts

theorem IsSlug.trimmed (isSlug : IsSlug s) : Trimmed isSpace s where
  head char head := not_isSpace_tagChar (isSlug.tags char (List.mem_of_head? head))
  last char last := not_isSpace_tagChar (isSlug.tags char (List.mem_of_getLast? last))

/-- What is its own slug has no line feed at its end, which stripping would have dropped. -/
theorem isSlug_of_slug (slugged : slug s = some s) : IsSlug s := by
  unfold slug at slugged
  simp only at slugged
  split at slugged
  · cases slugged
  rename_i form
  split at slugged
  · cases slugged
  split at slugged
  · cases slugged
  have same : lower (strip s) = s := Option.some.inj slugged
  rw [same, Bool.not_eq_true', Bool.not_eq_false] at form
  have isSlug := isSlug_of_tagForm form
  split at isSlug
  · rename_i fed
    obtain ⟨front, rfl⟩ := List.getLast?_eq_some_iff.mp fed
    rw [List.dropLast_concat] at isSlug
    have stripped : strip (front ++ ['\n']) = front :=
      @Text.trim_blanks _ _ _ [] ['\n'] isSlug.trimmed isSlug.filled nofun isSpace_lineFeed
    rw [stripped, lower_tagChars isSlug.tags] at same
    simp at same
  · exact isSlug

theorem IsSlug.skillNameForm (isSlug : IsSlug s) : skillNameForm s = true := by
  have unfed : s.getLast? ≠ some '\n' := by
    intro fed
    have blank := isSlug.trimmed.last _ fed
    cases blank
  unfold Capture.skillNameForm
  rw [if_neg unfed]
  split
  · exact absurd rfl isSlug.filled
  · rename_i first rest
    rw [isSlug.starts first rfl, Bool.true_and, List.all_eq_true]
    intro char mem
    have isTag := isSlug.tags char (.tail _ mem)
    unfold isTagChar at isTag
    rw [Bool.or_eq_true] at isTag
    rcases isTag with starts | hyphen
    · simp [starts]
    · simp [hyphen]

theorem IsSlug.unquoted (isSlug : IsSlug s) : unquote (strip s) = s := by
  rw [show strip s = s from isSlug.trimmed.trim]
  refine unquote_unquoted ?_
  intro quoted
  obtain ⟨quote, inner, isQuote_, rfl⟩ := quoted
  have code := isTagChar_code (isSlug.tags quote List.mem_cons_self)
  unfold isQuote at isQuote_
  rw [Bool.or_eq_true, decide_eq_true_iff, decide_eq_true_iff] at isQuote_
  rcases isQuote_ with rfl | rfl
  · revert code
    decide
  · revert code
    decide

/-- The tags of the taxonomy have no `x`, so that no spelling of them has a capital one. -/
theorem no_capitalX_of_allowed (allowed : isAllowedTag ruleTag = true) : 'X' ∉ ruleTag := by
  intro mem
  have listed := (Bool.and_eq_true_iff.mp allowed).2
  have small : 'x' ∈ lower (strip ruleTag) :=
    List.mem_flatMap.mpr ⟨'X', (Text.mem_trim rfl).mpr mem, by decide⟩
  have none : ∀ tag ∈ RULE_TAG_TAXONOMY, 'x' ∉ tag := by
    unfold RULE_TAG_TAXONOMY
    repeat rewrite [String.toList_ofList]
    decide +kernel
  exact none _ (List.contains_iff_mem.mp listed) small

end Tags

-- The parts of a draft

section Draft

variable {s ruleTag pathTrigger whatsWrong preferredPattern originRepo : Str}
variable {findingIds : List Str}

theorem skillMd_text
    : skillMd s ruleTag pathTrigger whatsWrong preferredPattern findingIds originRepo
      = "---\nname: ".toList ++ s ++ "\ndescription: ".toList ++ skillDescription ruleTag
        ++ "\npath_trigger: ".toList ++ pathTrigger ++ "\n---\n\n".toList
        ++ skillBody ruleTag pathTrigger whatsWrong preferredPattern findingIds originRepo
        ++ "\n".toList :=
  rfl

/-- The draft's text is its frontmatter, line by line, and its body. -/
theorem skillMd_eq
    : skillMd s ruleTag pathTrigger whatsWrong preferredPattern findingIds originRepo
      = Text.terminated '\n'
          ("---".toList
            :: [entryLine "name".toList s,
            entryLine "description".toList (skillDescription ruleTag),
              entryLine "path_trigger".toList pathTrigger]
            ++ ["---".toList])
        ++ (['\n']
          ++ skillBody ruleTag pathTrigger whatsWrong preferredPattern findingIds originRepo
          ++ ['\n']) := by
  have begun : "---\nname: ".toList = "---".toList ++ '\n' :: ("name".toList ++ [':', ' ']) := by
    decide
  have described
      : "\ndescription: ".toList = '\n' :: ("description".toList ++ [':', ' ']) := by
    decide
  have triggered
      : "\npath_trigger: ".toList = '\n' :: ("path_trigger".toList ++ [':', ' ']) := by
    decide
  have closed : "\n---\n\n".toList = '\n' :: ("---".toList ++ ['\n', '\n']) := by
    decide
  have ended : "\n".toList = ['\n'] := by decide
  rw [skillMd_text, begun, described, triggered, closed, ended]
  simp only [Text.terminated, entryLine, List.flatMap_cons, List.flatMap_nil, List.cons_append,
    List.append_assoc, List.nil_append, List.append_nil]

/-- What the description of a draft always is. -/
theorem skillDescription_facts (ruleTag : Str)
    : skillDescription ruleTag ≠ []
      ∧ (skillDescription ruleTag).length ≤ DESC_MAX
      ∧ '\n' ∉ skillDescription ruleTag
      ∧ unquote (strip (skillDescription ruleTag)) = skillDescription ruleTag := by
  have begins : ∃ kept, skillDescription ruleTag = 'R' :: kept :=
    @sanitizeField_cons 'R' 60 ("ecurring review finding: ".toList ++ ruleTag) rfl rfl (by decide)
      (by decide)
  obtain ⟨kept, begun⟩ := begins
  have stripped : strip (skillDescription ruleTag) = skillDescription ruleTag :=
    (trimmed_sanitizeField _ _).trim
  refine ⟨by rw [begun]; exact List.cons_ne_nil _ _, length_sanitizeField _ _, ?_, ?_⟩
  · intro mem
    have printed := not_isControl_sanitizeField mem
    cases printed
  · rw [stripped]
    refine unquote_unquoted ?_
    intro quoted
    obtain ⟨quote, inner, isQuote_, whole⟩ := quoted
    rw [begun] at whole
    obtain ⟨rfl, -⟩ := List.cons.inj whole
    cases isQuote_

theorem orElse_filled {text default_ : Str} (some_ : default_ ≠ [])
    (trimmed : Trimmed isSpace text) (trimmed' : Trimmed isSpace default_)
    : orElse text default_ ≠ [] ∧ Trimmed isSpace (orElse text default_) := by
  unfold orElse
  split
  · exact ⟨some_, trimmed'⟩
  · rename_i filled
    exact ⟨by simpa using filled, trimmed⟩

/-- The last line is the stub's or the one before it. -/
theorem draftEnd_trimmed (wrong : Str)
    : draftEnd wrong ≠ [] ∧ Trimmed isSpace (draftEnd wrong) := by
  unfold draftEnd stubLine STUB_MARKER
  rw [String.toList_append]
  repeat rw [String.toList_ofList]
  cases wrong.isEmpty with
  | true => exact ⟨List.cons_ne_nil _ _, Text.trim_eq_self.mp (by decide +kernel)⟩
  | false => exact ⟨List.cons_ne_nil _ _, Text.trim_eq_self.mp (by decide +kernel)⟩

/-- The body of a draft has text at both ends. -/
theorem skillBody_trimmed
    : skillBody ruleTag pathTrigger whatsWrong preferredPattern findingIds originRepo ≠ []
      ∧ Trimmed isSpace
          (skillBody ruleTag pathTrigger whatsWrong preferredPattern findingIds originRepo) := by
  obtain ⟨filled, trimmed⟩ :=
    @orElse_filled (sanitizeField whatsWrong 700) NO_DESCRIPTION (by decide)
      (trimmed_sanitizeField _ _) (Text.trim_eq_self.mp (by decide))
  obtain ⟨filled', trimmed'⟩ := draftEnd_trimmed (sanitizeField whatsWrong 700)
  exact ⟨by simp [skillBody, filled], trimmed.append filled trimmed' filled'⟩

/-- A draft is read back as it was written, but for the quotes around its trigger. -/
theorem parseSkillMd_skillMd (isSlug : IsSlug s) (printed : pathTrigger.any isControl = false)
    : parseSkillMd (skillMd s ruleTag pathTrigger whatsWrong preferredPattern findingIds originRepo)
      = some
          ⟨skillKeys s (skillDescription ruleTag) (unquote (strip pathTrigger)),
            skillBody ruleTag pathTrigger whatsWrong preferredPattern findingIds originRepo⟩ := by
  obtain ⟨-, -, descriptionLine, description⟩ := skillDescription_facts ruleTag
  obtain ⟨filled, trimmed⟩ :=
    @skillBody_trimmed ruleTag pathTrigger whatsWrong preferredPattern originRepo findingIds
  have nameLine : '\n' ∉ s := by
    intro mem
    have tag := isSlug.tags _ mem
    cases tag
  have triggerLine : '\n' ∉ pathTrigger := by
    intro mem
    rw [List.any_eq_false] at printed
    exact printed _ mem rfl
  have line {key value : Str} (ofKey : '\n' ∉ key) (ofValue : '\n' ∉ value)
      : '\n' ∉ entryLine key value := by
    simp [entryLine, ofKey, ofValue]
  have stripped
      : strip
          (['\n'] ++ skillBody ruleTag pathTrigger whatsWrong preferredPattern findingIds originRepo
            ++ ['\n'])
        = skillBody ruleTag pathTrigger whatsWrong preferredPattern findingIds originRepo :=
    Text.trim_blanks trimmed filled isSpace_lineFeed isSpace_lineFeed
  rw [skillMd_eq, parseSkillMd_frontmatter, parseMeta_skill, isSlug.unquoted, description, stripped]
  · rfl
  · intro entry mem
    refine ⟨?_, ?_⟩
    · rcases List.mem_cons.mp mem with rfl | mem
      · exact line (by decide) nameLine
      rcases List.mem_cons.mp mem with rfl | mem
      · exact line (by decide) descriptionLine
      · rw [List.mem_singleton.mp mem]
        exact line (by decide) triggerLine
    · rcases List.mem_cons.mp mem with rfl | mem
      · exact not_isFence_entryLine
      rcases List.mem_cons.mp mem with rfl | mem
      · exact not_isFence_entryLine
      · rw [List.mem_singleton.mp mem]
        exact not_isFence_entryLine

/-- What a draft's promotion still depends on: its trigger as it is read back, and its body. -/
structure Promotable (isWord : Char → Bool)
    (ruleTag pathTrigger whatsWrong preferredPattern : Str) (findingIds : List Str)
    (originRepo : Str)
    : Prop where
  narrow : isBannedTrigger (unquote (strip pathTrigger)) = false
  short
    : (skillBody ruleTag pathTrigger whatsWrong preferredPattern findingIds originRepo).length
      ≤ BODY_MAX
  unframed
    : scanInjection isWord
        (skillBody ruleTag pathTrigger whatsWrong preferredPattern findingIds originRepo)
      = none

/-- The skill that is promoted of a draft. -/
def draftedSkill (s ruleTag pathTrigger whatsWrong preferredPattern : Str) (findingIds : List Str)
    (originRepo : Str)
    : LintedSkill where
  name := s
  description := skillDescription ruleTag
  body := skillBody ruleTag pathTrigger whatsWrong preferredPattern findingIds originRepo
  pathTrigger := unquote (strip pathTrigger)

theorem lintSkill_skillMd {isWord : Char → Bool} {skill : LintedSkill} (isSlug : IsSlug s)
    (printed : pathTrigger.any isControl = false)
    : lintSkill isWord s
          (skillMd s ruleTag pathTrigger whatsWrong preferredPattern findingIds originRepo)
        = .ok skill
      ↔ Promotable isWord ruleTag pathTrigger whatsWrong preferredPattern findingIds originRepo
        ∧ skill
          = draftedSkill s ruleTag pathTrigger whatsWrong preferredPattern findingIds
              originRepo := by
  obtain ⟨described, short, -, -⟩ := skillDescription_facts ruleTag
  rw [lintSkill_ok isSlug.skillNameForm (parseSkillMd_skillMd isSlug printed) described short
    skillBody_trimmed.1]
  constructor
  · intro checks
    obtain ⟨narrow, body, unframed, same⟩ := checks
    exact ⟨⟨narrow, body, unframed⟩, same⟩
  · intro promoted
    obtain ⟨⟨narrow, body, unframed⟩, same⟩ := promoted
    exact ⟨narrow, body, unframed, same⟩

/-- What the checks before the lint ask for. -/
structure Draftable (s ruleTag pathTrigger : Str) : Prop where
  slugged : slug s = some s
  allowed : isAllowedTag ruleTag = true
  narrow : isBannedTrigger pathTrigger = false
  printed : pathTrigger.any isControl = false

/-- A draft is rendered exactly if it passes the checks of its promotion. -/
theorem renderSkillMd_eq_some {isWord : Char → Bool} {raw : Str}
    : renderSkillMd isWord s ruleTag pathTrigger whatsWrong preferredPattern findingIds originRepo
        = some raw
      ↔ Draftable s ruleTag pathTrigger
        ∧ Promotable isWord ruleTag pathTrigger whatsWrong preferredPattern findingIds originRepo
        ∧ raw = skillMd s ruleTag pathTrigger whatsWrong preferredPattern findingIds
          originRepo := by
  unfold renderSkillMd
  constructor
  · intro rendered
    split at rendered
    · cases rendered
    rename_i tagged
    split at rendered
    · cases rendered
    rename_i triggered
    rw [not_or, not_not, Bool.not_eq_true', Bool.not_eq_false] at tagged
    rw [Bool.not_eq_true, Bool.or_eq_false_iff] at triggered
    simp only at rendered
    split at rendered
    · cases rendered
    · rename_i skill linted
      have isSlug := isSlug_of_slug tagged.1
      refine ⟨⟨tagged.1, tagged.2, triggered.1, triggered.2⟩, ?_, (Option.some.inj rendered).symm⟩
      exact ((lintSkill_skillMd isSlug triggered.2).mp linted).1
  · intro drafted
    obtain ⟨draftable, promotable, rfl⟩ := drafted
    have linted :=
      (lintSkill_skillMd (isSlug_of_slug draftable.slugged) draftable.printed).mpr
        ⟨promotable, rfl⟩
    rw [if_neg (by simp [draftable.slugged, draftable.allowed]),
      if_neg (by simp [draftable.narrow, draftable.printed])]
    simp only [linted]

end Draft

end Capture

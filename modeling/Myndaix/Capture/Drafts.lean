import Myndaix.Capture.Rendering

/-! Drafts read back: the name, the keys and the trigger of a rendered skill, and the marker of a
draft that no one has described.
-/

namespace Capture

open Outcomes (strip)
open Text (Separates infix_closed infix_opened infix_separated)

-- The marker

/-- What a draft takes from outside, as it stands in the text. -/
def draftFields (pathTrigger whatsWrong preferredPattern : Str) (findingIds : List Str)
    (originRepo : Str)
    : List Str :=
  sanitizeField whatsWrong 700 :: sanitizeField preferredPattern 700 :: pathTrigger
    :: sanitizeField originRepo 80 :: (findingIds.take 8).map (fun id => sanitizeField id 40)

section Marker

variable {s ruleTag pathTrigger whatsWrong preferredPattern originRepo text : Str}
variable {findingIds : List Str}

/-- A text without a capital `X` does not hold the marker. -/
theorem unmarked_of_no_capitalX (absent : 'X' ∉ text) : ¬ STUB_MARKER <:+: text :=
  fun inside => absent (inside.subset (by decide))

theorem separates_marker {literal : Str} {first last : Char} (absent : 'X' ∉ literal)
    (isFirst : literal.head? = some first) (isLast : literal.getLast? = some last)
    (notFirst : first ∉ STUB_MARKER) (notLast : last ∉ STUB_MARKER)
    : Separates STUB_MARKER literal :=
  ⟨⟨unmarked_of_no_capitalX absent, last, isLast, notLast⟩, first, isFirst, notFirst⟩

theorem marker_orElse {default_ : Str} (absent : 'X' ∉ default_)
    : STUB_MARKER <:+: orElse text default_ ↔ STUB_MARKER <:+: text := by
  unfold orElse
  split
  · rename_i empty
    rw [List.isEmpty_iff.mp empty]
    refine iff_of_false (unmarked_of_no_capitalX absent) (unmarked_of_no_capitalX nofun)
  · exact Iff.rfl

theorem marker_draftIds
    : STUB_MARKER <:+: draftIds findingIds
      ↔ ∃ id ∈ (findingIds.take 8).map (fun id => sanitizeField id 40), STUB_MARKER <:+: id := by
  rw [draftIds, marker_orElse (by decide), Text.infix_intercalate (by decide)]
  exact separates_marker (by decide) rfl rfl (by decide) (by decide)

/-- The paragraphs in the middle hold the marker where one of their fields does. -/
theorem marker_draftMiddle (allowed : isAllowedTag ruleTag = true)
    : STUB_MARKER <:+: draftMiddle ruleTag pathTrigger preferredPattern findingIds originRepo
      ↔ STUB_MARKER <:+: sanitizeField preferredPattern 700
        ∨ STUB_MARKER <:+: pathTrigger
        ∨ STUB_MARKER <:+: sanitizeField originRepo 80
        ∨ ∃ id ∈ (findingIds.take 8).map (fun id => sanitizeField id 40), STUB_MARKER <:+: id := by
  have tag := unmarked_of_no_capitalX (no_capitalX_of_allowed allowed)
  unfold draftMiddle
  rw [infix_separated (separates_marker (by decide) rfl rfl (by decide) (by decide)),
    infix_separated (separates_marker (by decide) rfl rfl (by decide) (by decide)),
    infix_separated (separates_marker (by decide) rfl rfl (by decide) (by decide)),
    infix_separated (separates_marker (by decide) rfl rfl (by decide) (by decide)),
    infix_closed (separates_marker (by decide) rfl rfl (by decide) (by decide)).1,
    marker_draftIds, draftOrigin, marker_orElse (by decide), marker_orElse (by decide)]
  simp only [tag, or_false, or_assoc]

/-- The body holds the marker if it is a stub's, or else where a field does. -/
theorem marker_skillBody (allowed : isAllowedTag ruleTag = true)
    : STUB_MARKER
          <:+: skillBody ruleTag pathTrigger whatsWrong preferredPattern findingIds originRepo
      ↔ sanitizeField whatsWrong 700 = []
        ∨ ∃ field ∈ draftFields pathTrigger whatsWrong preferredPattern findingIds originRepo,
            STUB_MARKER <:+: field := by
  obtain ⟨paragraphs, middle⟩
      : ∃ paragraphs,
          draftMiddle ruleTag pathTrigger preferredPattern findingIds originRepo
            = "\n\nPreferred pattern: ".toList ++ paragraphs := by
    unfold draftMiddle
    simp only [List.append_assoc]
    exact ⟨_, rfl⟩
  have fields
      : STUB_MARKER
            <:+: orElse (sanitizeField whatsWrong 700) NO_DESCRIPTION
              ++ draftMiddle ruleTag pathTrigger preferredPattern findingIds originRepo
        ↔ ∃ field ∈ draftFields pathTrigger whatsWrong preferredPattern findingIds originRepo,
            STUB_MARKER <:+: field := by
    rw [middle, infix_opened (separates_marker (by decide) rfl rfl (by decide) (by decide)),
      ← middle, marker_draftMiddle allowed, marker_orElse (by decide)]
    simp only [draftFields, List.mem_cons, exists_eq_or_imp]
  unfold skillBody draftEnd
  rw [← List.append_assoc,
    infix_separated (separates_marker (by decide) rfl rfl (by decide) (by decide)), fields, or_comm]
  refine or_congr ?_ Iff.rfl
  unfold stubLine
  cases shown : sanitizeField whatsWrong 700 with
  | nil =>
      refine iff_of_true ?_ rfl
      decide +kernel
  | cons first rest =>
      have described : (!(first :: rest).isEmpty) = true := rfl
      rw [if_pos described]
      exact iff_of_false (unmarked_of_no_capitalX nofun) (List.cons_ne_nil _ _)

theorem marker_skillMd (slugged : slug s = some s) (allowed : isAllowedTag ruleTag = true)
    : STUB_MARKER
          <:+: skillMd s ruleTag pathTrigger whatsWrong preferredPattern findingIds originRepo
      ↔ sanitizeField whatsWrong 700 = []
        ∨ ∃ field ∈ draftFields pathTrigger whatsWrong preferredPattern findingIds originRepo,
            STUB_MARKER <:+: field := by
  have name : ¬ STUB_MARKER <:+: s := by
    refine unmarked_of_no_capitalX fun mem => ?_
    have tag := (isSlug_of_slug slugged).tags _ mem
    cases tag
  have description : ¬ STUB_MARKER <:+: skillDescription ruleTag := by
    refine unmarked_of_no_capitalX fun mem => ?_
    rcases mem_sanitizeField mem with space | ⟨mem, -⟩
    · cases space
    · rcases List.mem_append.mp mem with mem | mem
      · revert mem
        decide
      · exact no_capitalX_of_allowed allowed mem
  have open_ : Text.ClosesOff STUB_MARKER "---\nname: ".toList :=
    ⟨by decide, ' ', rfl, by decide⟩
  have ended := @infix_separated _ STUB_MARKER
    ("---\nname: ".toList ++ s ++ "\ndescription: ".toList ++ skillDescription ruleTag
      ++ "\npath_trigger: ".toList ++ pathTrigger ++ "\n---\n\n".toList
      ++ skillBody ruleTag pathTrigger whatsWrong preferredPattern findingIds originRepo)
    "\n".toList [] (separates_marker (by decide) rfl rfl (by decide) (by decide))
  rw [List.append_nil] at ended
  have nothing : ¬ STUB_MARKER <:+: ([] : Str) := unmarked_of_no_capitalX nofun
  rw [skillMd_text, ended,
    infix_separated (separates_marker (by decide) rfl rfl (by decide) (by decide)),
    infix_separated (separates_marker (by decide) rfl rfl (by decide) (by decide)),
    infix_separated (separates_marker (by decide) rfl rfl (by decide) (by decide)),
    infix_closed open_, marker_skillBody allowed]
  simp only [name, description, nothing, false_or, or_false]
  exact or_iff_right_of_imp fun inside => .inr ⟨pathTrigger, by simp [draftFields], inside⟩

end Marker

-- What is read back

/-- A rendered skill passes the lint under its slug, with the name, the three keys and the trigger
that it was rendered of.
-/
structure ReadBack (isWord : Char → Bool) (s pathTrigger raw : Str) : Prop where
  accepted
    : ∃ skill,
        lintSkill isWord s raw = .ok skill
        ∧ skill.name = s
        ∧ triggerAlternatives skill.pathTrigger = triggerAlternatives pathTrigger
  keys
    : ∃ file,
        parseSkillMd raw = some file
        ∧ file.frontmatter.map Prod.fst
          = ["name".toList, "description".toList, "path_trigger".toList]

section ReadBack

variable {isWord : Char → Bool} {raw : Str}
variable {s ruleTag pathTrigger whatsWrong preferredPattern originRepo : Str}
variable {findingIds : List Str}

theorem readBack_iff
    (rendered
      : renderSkillMd isWord s ruleTag pathTrigger whatsWrong preferredPattern findingIds originRepo
        = some raw)
    : ReadBack isWord s pathTrigger raw ↔ ¬ Quoted (strip pathTrigger) := by
  obtain ⟨draftable, promotable, rfl⟩ := renderSkillMd_eq_some.mp rendered
  have isSlug := isSlug_of_slug draftable.slugged
  rw [← triggerAlternatives_unquote]
  constructor
  · intro readBack
    obtain ⟨skill, linted, -, trigger⟩ := readBack.accepted
    obtain ⟨-, rfl⟩ := (lintSkill_skillMd isSlug draftable.printed).mp linted
    exact trigger
  · intro trigger
    refine ⟨⟨_, (lintSkill_skillMd isSlug draftable.printed).mpr ⟨promotable, rfl⟩,
      rfl, trigger⟩, ?_⟩
    exact ⟨_, parseSkillMd_skillMd isSlug draftable.printed, rfl⟩

end ReadBack

/-- A rendered skill is read back as it was written, with the marker if it is a stub and only then,
exactly if its trigger stands in no quotes and no field of a described draft holds the marker.
-/
theorem rendered_readBack_iff (isWord : Char → Bool)
    (s ruleTag pathTrigger whatsWrong preferredPattern : Str) (findingIds : List Str)
    (originRepo raw : Str)
    (rendered
      : renderSkillMd isWord s ruleTag pathTrigger whatsWrong preferredPattern findingIds originRepo
        = some raw)
    : ReadBack isWord s pathTrigger raw
        ∧ (STUB_MARKER <:+: raw ↔ sanitizeField whatsWrong 700 = [])
      ↔ ¬ Quoted (strip pathTrigger)
        ∧ (sanitizeField whatsWrong 700 = []
          ∨ ∀ field ∈ draftFields pathTrigger whatsWrong preferredPattern findingIds originRepo,
              ¬ STUB_MARKER <:+: field) := by
  rw [readBack_iff rendered]
  obtain ⟨draftable, -, rfl⟩ := renderSkillMd_eq_some.mp rendered
  rw [marker_skillMd draftable.slugged draftable.allowed]
  refine and_congr_right fun _ => ?_
  by_cases stub : sanitizeField whatsWrong 700 = []
  · simp [stub]
  · simp [stub]

/-- A trigger in quotes. -/
def quotedTrigger : Str :=
  ['"', 's', 'r', 'c', '/', '*', '.', 'p', 'y', '"']

/-- A draft with a trigger in quotes. -/
def quotedDraft : Option Str :=
  renderSkillMd isAsciiWord "fail-open".toList "fail-open".toList quotedTrigger [] [] [] ['r']

-- The characters of a literal are read off it here, which spares the kernel their decoding.
theorem quotedDraft_promotable
    : Promotable isAsciiWord "fail-open".toList quotedTrigger [] [] [] ['r'] where
  narrow := by decide
  short := by
    unfold skillBody draftMiddle draftEnd stubLine STUB_MARKER NO_DESCRIPTION NO_PATTERN
    rw [String.toList_append]
    repeat rw [String.toList_ofList]
    decide +kernel
  unframed := by
    unfold skillBody draftMiddle draftEnd stubLine STUB_MARKER NO_DESCRIPTION NO_PATTERN
    unfold scanInjection INJECTION_PATTERNS ignoreInstructions roleOverride systemPromptSpoof
    unfold fenceBreak caseless
    rw [String.toList_append]
    repeat rw [String.toList_ofList]
    decide +kernel

theorem quotedDraft_rendered : ∃ raw, quotedDraft = some raw := by
  have draftable : Draftable "fail-open".toList "fail-open".toList quotedTrigger := by
    constructor <;> decide +kernel
  exact ⟨_, renderSkillMd_eq_some.mpr ⟨draftable, quotedDraft_promotable, rfl⟩⟩

theorem rendered_readBack_iff_sample
    : ∃ raw,
        quotedDraft = some raw
        ∧ (ReadBack isAsciiWord "fail-open".toList quotedTrigger raw
              ∧ (STUB_MARKER <:+: raw ↔ sanitizeField [] 700 = [])
            ↔ ¬ Quoted (strip quotedTrigger)
              ∧ (sanitizeField [] 700 = []
                ∨ ∀ field ∈ draftFields quotedTrigger [] [] [] ['r'],
                  ¬ STUB_MARKER <:+: field)) := by
  obtain ⟨raw, rendered⟩ := quotedDraft_rendered
  exact ⟨raw, rendered, rendered_readBack_iff isAsciiWord "fail-open".toList "fail-open".toList
    quotedTrigger [] [] [] ['r'] raw rendered⟩

/-- The quotes around a trigger are lost. -/
theorem quotedTrigger_changed
    : ∃ raw, quotedDraft = some raw
      ∧ ¬ ReadBack isAsciiWord "fail-open".toList quotedTrigger raw := by
  obtain ⟨raw, rendered⟩ := quotedDraft_rendered
  refine ⟨raw, rendered, fun readBack => ?_⟩
  have plain := (readBack_iff rendered).mp readBack
  exact plain ⟨'"', ['s', 'r', 'c', '/', '*', '.', 'p', 'y'], rfl, by decide⟩

end Capture

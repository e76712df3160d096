import Myndaix.Corpus.Lines
import Myndaix.Text.Occurrences

/-! What the validator of an index has to say about the generated one. It looks for the names of the
files, with their extension, and reads the links that the generator writes without.
-/

namespace Corpus

open Curate (Str Strings INDEX baseName endsMd indexViolations linkResolves mdBases occursIn
  wikilinks)
open Outcomes (isSpace strip)
open Text

variable {strings : Strings} {tables : Tables} {walk : WalkResult} {doc : DocRecord}
  {title line part name : Str}

-- The text of the lines

/-- A line as it stands in the text, where spaces at its end may be gone. -/
def Printed (part line : Str) : Prop :=
  ∃ spaces, line = part ++ spaces ∧ (∀ char ∈ spaces, char = ' ') ∧ Scans part (targets line)

/-- The text is the lines, but for the empty one at the end. -/
structure Prints (text : Str) (lines parts : List Str) : Prop where
  text : text = terminated '\n' parts
  printed : ∀ part ∈ parts, ∃ line ∈ lines, Printed part line
  complete : ∀ line ∈ lines, line = [] ∨ ∃ part ∈ parts, Printed part line

theorem Printed.whole (scans : Scans line (targets line)) : Printed line line :=
  ⟨[], (List.append_nil _).symm, List.forall_mem_nil _, scans⟩

/-- The index prints the outline. -/
theorem buildIndexMd_prints (canonical : Canonical strings tables)
    (texts : ∀ doc ∈ walk.docs, DateText tables doc) (title : Str)
    : ∃ parts,
        Prints (buildIndexMd strings tables walk title) (outline strings tables walk title)
          parts := by
  obtain ⟨init, line, isOutline, body, last, spaces, rfl, solid, blank, scans⟩ :=
    @outline_closed _ _ walk canonical texts title
  have closing : Printed (body ++ [last]) (body ++ last :: spaces) :=
    ⟨spaces, by simp, blank, scans⟩
  have whole : ∀ line ∈ init, Printed line line := fun line mem => by
    refine .whole ?_
    refine @outline_scans _ _ _ title _ canonical texts ?_
    rw [isOutline]
    exact List.mem_append_left _ mem
  refine ⟨init ++ [body ++ [last]], ?_, fun part mem => ?_, fun line mem => ?_⟩
  · have ended : ∀ char ∈ spaces ++ ['\n'], isSpace char = true := by
      intro char mem
      rcases List.mem_append.mp mem with inside | feed
      · rw [blank char inside]
        rfl
      · rw [List.mem_singleton.mp feed]
        rfl
    have joined
        : ['\n'].intercalate (init ++ [body ++ last :: spaces, []])
          = (terminated '\n' init ++ body) ++ last :: (spaces ++ ['\n']) := by
      have split
          : init ++ [body ++ last :: spaces, []]
            = (init ++ [body ++ last :: spaces]) ++ [[]] := by
        simp
      rw [split, intercalate_terminated]
      simp [terminated]
    rw [buildIndexMd, isOutline, joined, rdropWhile_behind solid ended]
    simp [terminated]
  · rw [isOutline]
    rcases List.mem_append.mp mem with inside | isLast
    · exact ⟨part, List.mem_append_left _ inside, whole part inside⟩
    · rw [List.mem_singleton.mp isLast]
      exact ⟨_, by simp, closing⟩
  · rw [isOutline] at mem
    rcases List.mem_append.mp mem with inside | behind
    · exact .inr ⟨line, List.mem_append_left _ inside, whole line inside⟩
    · rcases List.mem_cons.mp behind with rfl | empty
      · exact .inr ⟨_, by simp, closing⟩
      · exact .inl (List.mem_singleton.mp empty)

/-- Lines scan one by one. -/
theorem scans_terminated {parts : List Str} (scans : ∀ part ∈ parts, Scans part (targets part))
    : targets (terminated '\n' parts) = parts.flatMap targets := by
  have feed : Scans ['\n'] [] := Scans.plain (by decide)
  have whole : Scans (terminated '\n' parts) (parts.flatMap targets) := by
    induction parts with
    | nil => exact fun _ => rfl
    | cons part parts ih =>
        obtain ⟨first, others⟩ := List.forall_mem_cons.mp scans
        have joined := (first.append feed).append (ih others)
        rwa [List.append_nil] at joined
  exact whole.targets

/-- The links of the text are those of its lines. -/
theorem Prints.mem_targets {text target : Str} {lines parts : List Str}
    (prints : Prints text lines parts)
    : target ∈ targets text ↔ ∃ line ∈ lines, target ∈ targets line := by
  have scans : ∀ part ∈ parts, Scans part (targets part) := fun part mem => by
    obtain ⟨line, -, spaces, -, -, scans⟩ := prints.printed part mem
    rwa [scans.targets]
  rw [prints.text, scans_terminated scans, List.mem_flatMap]
  constructor
  · rintro ⟨part, mem, inside⟩
    obtain ⟨line, isLine, spaces, -, -, scans'⟩ := prints.printed part mem
    exact ⟨line, isLine, scans'.targets ▸ inside⟩
  · rintro ⟨line, mem, inside⟩
    rcases prints.complete line mem with rfl | ⟨part, isPart, spaces, -, -, scans'⟩
    · cases inside
    · exact ⟨part, isPart, scans'.targets ▸ inside⟩

-- Names in the text

theorem occursIn_iff {needle text : Str} : occursIn needle text = true ↔ needle <:+: text := by
  rw [occursIn, List.any_eq_true]
  constructor
  · rintro ⟨tail, isTail, begins⟩
    exact (List.isPrefixOf_iff_prefix.mp begins).isInfix.trans
      ((List.mem_tails ..).mp isTail).isInfix
  · intro occurs
    obtain ⟨tail, begins, isTail⟩ := List.infix_iff_prefix_suffix.mp occurs
    exact ⟨tail, (List.mem_tails ..).mpr isTail, List.isPrefixOf_iff_prefix.mpr begins⟩

variable {text : Str}

section Names

variable {front back : Str}

/-- A text as the validator searches it. -/
def folded (strings : Strings) (text : Str) : Str :=
  strings.lower (strings.nfc text)

theorem folded_break (canonical : Canonical strings tables) {char : Char}
    (breaks : char ∈ ['\n', ' '])
    : folded strings (front ++ char :: back)
      = folded strings front ++ char :: folded strings back := by
  have composed : char ∈ ['\n', '/', ' '] := by
    rcases List.mem_cons.mp breaks with rfl | space
    · decide
    · rw [List.mem_singleton.mp space]
      decide
  rw [folded, canonical.nfc_break front back char composed, canonical.lower_break _ _ char breaks]
  rfl

theorem folded_plain (canonical : Canonical strings tables)
    (plain : ∀ char ∈ text, IsPlain tables char)
    : folded strings text = text.map Char.toLower := by
  rw [folded, canonical.nfc_plain text plain, canonical.lower_plain text plain]

theorem folded_nil (canonical : Canonical strings tables) : folded strings [] = [] :=
  folded_plain canonical (List.forall_mem_nil _)

/-- Lines are folded one by one. -/
theorem folded_terminated (canonical : Canonical strings tables) (parts : List Str)
    : folded strings (terminated '\n' parts) = terminated '\n' (parts.map (folded strings)) := by
  induction parts with
  | nil => exact folded_nil canonical
  | cons part parts ih =>
      have first (text : Str) (texts : List Str)
          : terminated '\n' (text :: texts) = text ++ '\n' :: terminated '\n' texts := by
        simp [terminated]
      rw [first, folded_break canonical (by decide), ih, List.map_cons, first]

/-- Spaces at the end stay, by induction on them from the back. -/
theorem folded_spaces (canonical : Canonical strings tables) {spaces : Str}
    (blank : ∀ char ∈ spaces, char = ' ')
    : folded strings (front ++ spaces) = folded strings front ++ spaces := by
  induction spaces using List.reverseRecOn with
  | nil => rw [List.append_nil, List.append_nil]
  | append_singleton spaces last ih =>
      obtain rfl := blank last (by simp)
      have shorter := ih fun char mem => blank char (List.mem_append_left _ mem)
      rw [← List.append_assoc, folded_break canonical (by decide), shorter, folded_nil canonical,
        List.append_assoc]

/-- What the validator takes for the name of a Markdown file. -/
structure IsName (name : Str) : Prop where
  markdown : endsMd name = true
  clean : '\n' ∉ name

theorem IsName.ends (isName : IsName name) : ∃ front, name = front ++ ".md".toList := by
  obtain ⟨front, same⟩ := List.isSuffixOf_iff_suffix.mp isName.markdown
  exact ⟨front, same.symm⟩

/-- A name is found as it was printed. -/
theorem IsName.printed (isName : IsName name) (canonical : Canonical strings tables)
    (printed : Printed part line)
    : name <:+: folded strings part ↔ name <:+: folded strings line := by
  obtain ⟨spaces, rfl, blank, -⟩ := printed
  obtain ⟨front, rfl⟩ := isName.ends
  have absent : 'd' ∉ spaces := fun mem => absurd (blank 'd' mem) (by decide)
  have split : front ++ ".md".toList = (front ++ ".m".toList) ++ ['d'] := by
    rw [List.append_assoc]
    rfl
  rw [folded_spaces canonical blank, split, infix_behind absent]

/-- A name is in the text when it is in one of the lines. -/
theorem Prints.mentions {lines parts : List Str} (prints : Prints text lines parts)
    (canonical : Canonical strings tables) (isName : IsName name)
    : name <:+: folded strings text ↔ ∃ line ∈ lines, name <:+: folded strings line := by
  have filled : name ≠ [] := by
    obtain ⟨front, rfl⟩ := isName.ends
    exact List.append_ne_nil_of_right_ne_nil _ (by decide)
  rw [prints.text, folded_terminated canonical, infix_terminated filled isName.clean]
  constructor
  · rintro ⟨folded_, isPart, inside⟩
    obtain ⟨part, mem, rfl⟩ := List.mem_map.mp isPart
    obtain ⟨line, isLine, printed⟩ := prints.printed part mem
    exact ⟨line, isLine, (isName.printed canonical printed).mp inside⟩
  · rintro ⟨line, mem, inside⟩
    rcases prints.complete line mem with rfl | ⟨part, isPart, printed⟩
    · rw [folded_nil canonical] at inside
      exact absurd (List.infix_nil.mp inside) filled
    · exact ⟨_, List.mem_map_of_mem isPart, (isName.printed canonical printed).mpr inside⟩

/-- Only letters are what another character becomes. -/
theorem toLower_other {char other : Char} (same : char.toLower = other)
    (caseless : ¬(97 ≤ other.toNat ∧ other.toNat ≤ 122))
    : char = other := by
  by_cases upper : char.val ≥ 'A'.val ∧ char.val ≤ 'Z'.val
  · have low : 65 ≤ char.val.toNat := upper.1
    have high : char.val.toNat ≤ 90 := upper.2
    have value : (char.val.toNat + 32) % 2 ^ 32 = other.toNat :=
      congrArg Char.toNat ((dif_pos upper).symm.trans same)
    omega
  · exact (dif_neg upper).symm.trans same

/-- No fixed line has the extension, and no heading a dot. -/
theorem IsFixed.nameless (fixed : IsFixed tables line) (canonical : Canonical strings tables)
    (isName : IsName name)
    : ¬name <:+: folded strings line := by
  obtain ⟨front, rfl⟩ := isName.ends
  intro inside
  have extension : ".md".toList <:+: folded strings line :=
    (List.suffix_append _ _).isInfix.trans inside
  rcases fixed with fixed | ⟨ym, rfl, clean⟩
  · have plain
        : FIXED_LINES.all (fun line => line.all fun char => char.toNat < 0x80 || char = '—')
          = true := by
      unfold FIXED_LINES SKELETON
      repeat rw [String.toList_ofList]
      decide +kernel
    have none_
        : FIXED_LINES.all (fun line => !occursIn ".md".toList (line.map Char.toLower)) = true := by
      unfold FIXED_LINES SKELETON
      repeat rw [String.toList_ofList]
      decide +kernel
    have own := List.all_eq_true.mp (List.all_eq_true.mp plain line fixed)
    simp only [Bool.or_eq_true, decide_eq_true_eq] at own
    rw [folded_plain canonical fun char mem => (own char mem).imp_right Or.inl,
      ← occursIn_iff] at extension
    have absent := List.all_eq_true.mp none_ line fixed
    rw [extension] at absent
    cases absent
  · have plain : ∀ char ∈ "## ".toList ++ ym, IsPlain tables char := by
      intro char mem
      rcases List.mem_append.mp mem with heading | inside
      · have ascii : "## ".toList.all (fun char => char.toNat < 0x80) = true := by decide
        exact .inl (of_decide_eq_true (List.all_eq_true.mp ascii char heading))
      · rcases clean char inside with rfl | decimal
        · exact .inl (by decide)
        · exact .inr (.inr decimal)
    have dot : '.' ∈ folded strings ("## ".toList ++ ym) := extension.subset (by decide)
    rw [folded_plain canonical plain] at dot
    obtain ⟨char, mem, same⟩ := List.mem_map.mp dot
    obtain rfl := toLower_other same (by decide)
    rcases List.mem_append.mp mem with heading | inside
    · exact absurd heading (by decide)
    · rcases clean _ inside with dash | decimal
      · cases dash
      · exact absurd (canonical.decimal '.' decimal (by decide)) (by decide)

/-- The documents of a walk have names. -/
theorem Walked.isName {found : Found} {raw : Bytes} (walked : Walked strings tables found raw doc)
    (canonical : Canonical strings tables)
    : IsName (strings.lower (baseName doc.path)) := by
  rw [walked.path, baseName_nfc canonical.toComposed]
  refine ⟨canonical.nfc_markdown _ walked.markdown, fun feed => ?_⟩
  have inside := canonical.nfc_clean _ '\n' (by decide) (canonical.lower_clean _ feed)
  exact absurd (walked.printable '\n' inside) (by decide)

end Names

-- The validator

/-- The name of the document is that of the index, or stands in the title, in the line of a document
or in that of an asset.
-/
def Mentioned (strings : Strings) (tables : Tables) (walk : WalkResult) (title : Str)
    (doc : DocRecord)
    : Prop :=
  let name := strings.lower (baseName doc.path)
  name = INDEX ∨ name <:+: folded strings (titleLine title)
  ∨ (∃ other ∈ walk.docs, name <:+: folded strings (docLine tables other))
  ∨ ∃ artifact ∈ assets strings walk, name <:+: folded strings (assetLine artifact)

/-- What stands before a section in the link to the document is the name of a document. -/
def Resolved (strings : Strings) (walk : WalkResult) (doc : DocRecord) : Prop :=
  ∀ target ∈ linkTarget (link doc),
    linkResolves strings (strip target) (mdBases strings (walk.docs.map DocRecord.path)) = true

/-- The index passes all three checks. -/
theorem indexViolations_nil {files : List Str}
    : indexViolations strings text files = []
      ↔ 20 ≤ (strip text).length
        ∧ (∀ file ∈ files,
            strings.lower (baseName file) = INDEX
            ∨ strings.lower (baseName file) <:+: folded strings text)
        ∧ ∀ target ∈ targets text,
            linkResolves strings (strip target) (mdBases strings files) = true := by
  unfold indexViolations
  split
  · rename_i gutted
    constructor
    · intro none_
      cases none_
    · intro passes
      omega
  · rename_i filled
    rw [List.append_eq_nil_iff, List.map_eq_nil_iff, List.map_eq_nil_iff, List.filter_eq_nil_iff,
      List.filter_eq_nil_iff, wikilinks, List.forall_mem_map]
    refine ⟨fun passes => ⟨by omega, ?_, ?_⟩, fun passes => ⟨?_, ?_⟩⟩
    · intro file mem
      have named := passes.1 file mem
      simp only [Bool.and_eq_true, decide_eq_true_eq, Bool.not_eq_true', not_and,
        Bool.not_eq_false] at named
      by_cases index : strings.lower (baseName file) = INDEX
      · exact .inl index
      · exact .inr (occursIn_iff.mp (named index))
    · intro target mem
      simpa using passes.2 target mem
    · intro file mem
      simp only [Bool.and_eq_true, decide_eq_true_eq, Bool.not_eq_true', not_and, Bool.not_eq_false]
      intro other
      exact occursIn_iff.mpr ((passes.2.1 file mem).resolve_left other)
    · intro target mem
      simpa using passes.2.2 target mem

/-- Blanks at the ends do not count. -/
theorem filter_trim {Symbol : Type} {blank : Symbol → Bool} (text : List Symbol)
    : (trim blank text).filter (fun symbol => !blank symbol)
      = text.filter (fun symbol => !blank symbol) := by
  obtain ⟨front, back, whole, before, behind⟩ := trim_split blank text
  have none_ {blanks : List Symbol} (all : ∀ symbol ∈ blanks, blank symbol = true)
      : blanks.filter (fun symbol => !blank symbol) = [] :=
    List.filter_eq_nil_iff.mpr fun symbol mem => by simp [all symbol mem]
  conv => rhs; rw [whole]
  rw [List.filter_append, List.filter_append, none_ before, none_ behind, List.append_nil,
    List.nil_append]

/-- The line of the skeleton alone is long enough. -/
theorem Prints.filled {parts : List Str}
    (prints : Prints text (outline strings tables walk title) parts)
    : 20 ≤ (strip text).length := by
  have isLine : SKELETON ∈ outline strings tables walk title := by simp [outline]
  have long : 20 ≤ (SKELETON.filter (fun char => !isSpace char)).length := by
    unfold SKELETON
    rewrite [String.toList_ofList]
    decide +kernel
  rcases prints.complete _ isLine with empty | ⟨part, isPart, spaces, same, blank, -⟩
  · rw [empty] at long
    cases long
  · have none_ : spaces.filter (fun char => !isSpace char) = [] :=
      List.filter_eq_nil_iff.mpr fun char mem => by rw [blank char mem]; decide
    have inside : part.Sublist text := by
      rw [prints.text]
      exact (List.sublist_append_left _ _).trans
        (List.sublist_flatten_of_mem (List.mem_map.mpr ⟨part, isPart, rfl⟩))
    calc
      20 ≤ (SKELETON.filter (fun char => !isSpace char)).length := long
      _ = (part.filter (fun char => !isSpace char)).length := by
        rw [same, List.filter_append, none_, List.append_nil]
      _ ≤ (text.filter (fun char => !isSpace char)).length :=
        (inside.filter _).length_le
      _ = ((strip text).filter (fun char => !isSpace char)).length := by
        rw [← filter_trim text]
        rfl
      _ ≤ (strip text).length := List.length_filter_le _ _

/-- The generated index passes when each document's name, with its extension, stands somewhere in it
and each link leads to a document.
-/
theorem index_passes_iff (canonical : Canonical strings tables) (files : List Found) (title : Str)
    : let walk := walkCorpus strings tables files
      indexViolations strings (buildIndexMd strings tables walk title)
          (walk.docs.map DocRecord.path)
        = []
      ↔ ∀ doc ∈ walk.docs, Mentioned strings tables walk title doc ∧ Resolved strings walk doc := by
  intro walk
  have sound : Sound strings tables walk := walkCorpus_sound strings tables files
  have texts : ∀ doc ∈ walk.docs, DateText tables doc := fun doc mem => by
    obtain ⟨found, raw, walked⟩ := sound.walked doc mem
    rw [walked.parsed]
    exact parseDoc_dateText tables _ raw
  obtain ⟨parts, prints⟩ := buildIndexMd_prints canonical texts title
  rw [indexViolations_nil]
  have mentioned (doc : DocRecord) (mem : doc ∈ walk.docs)
      : strings.lower (baseName doc.path) = INDEX
          ∨ strings.lower (baseName doc.path)
            <:+: folded strings (buildIndexMd strings tables walk title)
        ↔ Mentioned strings tables walk title doc := by
    obtain ⟨found, raw, walked⟩ := sound.walked doc mem
    have isName := walked.isName canonical
    refine or_congr_right ?_
    rw [prints.mentions canonical isName]
    constructor
    · rintro ⟨line, isLine, inside⟩
      rcases mem_outline texts isLine with
        fixed | rfl | ⟨other, isDoc, rfl⟩ | ⟨artifact, isAsset, rfl⟩
      · exact absurd inside (fixed.nameless canonical isName)
      · exact .inl inside
      · exact .inr (.inl ⟨other, isDoc, inside⟩)
      · exact .inr (.inr ⟨artifact, isAsset, inside⟩)
    · rintro (inTitle | ⟨other, isDoc, inLine⟩ | ⟨artifact, isAsset, inLine⟩)
      · exact ⟨_, titleLine_mem, inTitle⟩
      · exact ⟨_, docLine_mem isDoc, inLine⟩
      · exact ⟨_, assetLine_mem isAsset, inLine⟩
  have resolved
      : (∀ target ∈ targets (buildIndexMd strings tables walk title),
            linkResolves strings (strip target) (mdBases strings (walk.docs.map DocRecord.path))
              = true)
        ↔ ∀ doc ∈ walk.docs, Resolved strings walk doc := by
    constructor
    · intro all doc mem target isTarget
      have scans := docLine_scans canonical (texts doc mem)
      refine all target (prints.mem_targets.mpr ⟨_, docLine_mem mem, ?_⟩)
      rwa [scans.targets]
    · intro all target isTarget
      obtain ⟨line, isLine, inside⟩ := prints.mem_targets.mp isTarget
      rcases docLine_of_target canonical texts isLine inside with ⟨doc, isDoc, rfl⟩
      rw [(docLine_scans canonical (texts doc isDoc)).targets] at inside
      exact all doc isDoc target inside
  rw [resolved, List.forall_mem_map]
  constructor
  · rintro ⟨-, named, linked⟩ doc mem
    exact ⟨(mentioned doc mem).mp (named doc mem), linked doc mem⟩
  · intro all
    exact ⟨prints.filled, fun doc mem => (mentioned doc mem).mpr (all doc mem).1,
      fun doc mem => (all doc mem).2⟩

-- Samples

/-- Python's strings as far as ASCII goes. -/
def asciiStrings : Strings where
  nfc := id
  lower := List.map Char.toLower
  isWord char := char.isAlphanum || char = '_'
  repr text := '\x27' :: text ++ ['\x27']
  decodeReplace := decoded

theorem asciiStrings_canonical : Canonical asciiStrings .sample where
  nfc_break _ _ _ _ := rfl
  lower_break front back char breaks := by
    have same : char.toLower = char := by
      rcases List.mem_cons.mp breaks with rfl | space
      · rfl
      · rw [List.mem_singleton.mp space]
        rfl
    simp only [asciiStrings, List.map_append, List.map_cons, same]
  nfc_plain _ _ := rfl
  lower_plain _ _ := rfl
  nfc_clean _ _ _ inside := inside
  lower_clean text inside := by
    obtain ⟨char, mem, same⟩ := List.mem_map.mp inside
    rwa [toLower_other same (by decide)] at mem
  nfc_markdown _ markdown := markdown
  decimal _ isDigit _ := isDigit

def sampleFile (content : String) : Found where
  dirs := []
  name := "a.md".toList
  entry := .file 1 true (.ok (utf8 content.toList))
  named := by decide

theorem index_passes_iff_sample
    : let walk := walkCorpus asciiStrings .sample [sampleFile "See a.md"]
      indexViolations asciiStrings (buildIndexMd asciiStrings .sample walk DEFAULT_TITLE)
          (walk.docs.map DocRecord.path)
        = [] := by
  refine (index_passes_iff asciiStrings_canonical _ _).mpr ?_
  have walk
      : walkCorpus asciiStrings .sample [sampleFile "See a.md"]
        = ⟨[parseDoc .sample "a.md".toList (utf8 "See a.md".toList)], [], ["a.md".toList]⟩ := by
    decide +kernel
  rw [walk]
  intro doc mem
  obtain rfl := List.mem_singleton.mp mem
  refine ⟨.inr (.inr (.inl ⟨_, mem, ?_⟩)), ?_⟩
  · decide +kernel
  · unfold Resolved
    decide +kernel

/-- The lines for one document without a date. -/
theorem outline_undated (single : walk.docs = [doc]) (undated : dated doc = none)
    (noAssets : assets strings walk = [])
    : outline strings tables walk title
      = [titleLine title, [], SKELETON, [], "## Undated".toList, docLine tables doc, []] := by
  have noMonths : months walk.docs = [] := by simp [months, month, single, undated]
  have own : walk.docs.filter (fun doc => dated doc = none) = [doc] := by simp [single, undated]
  have some : ¬(walk.docs = [] ∧ assets strings walk = []) := by simp [single]
  rw [outline, monthLines, noMonths, undatedLines, own, assetLines, if_pos noAssets, emptyLines,
    if_neg some, if_neg (List.cons_ne_nil _ _), List.mergeSort_singleton]
  rfl

/-- A link without the extension does not mention its document. -/
theorem buildIndexMd_unmentioned
    : let walk := walkCorpus asciiStrings .sample [sampleFile "Some notes"]
      indexViolations asciiStrings (buildIndexMd asciiStrings .sample walk DEFAULT_TITLE)
          (walk.docs.map DocRecord.path)
        = ["index.md: missing entry for a.md".toList] := by
  have walk
      : walkCorpus asciiStrings .sample [sampleFile "Some notes"]
        = ⟨[parseDoc .sample "a.md".toList (utf8 "Some notes".toList)], [], ["a.md".toList]⟩ := by
    decide +kernel
  have own
      : docLine .sample (parseDoc .sample "a.md".toList (utf8 "Some notes".toList))
        = "- [[a]] — Some notes".toList := by
    decide +kernel
  rw [walk]
  dsimp only
  rw [buildIndexMd, outline_undated rfl (by decide +kernel) (by decide +kernel), own]
  unfold titleLine DEFAULT_TITLE SKELETON
  repeat rw [String.toList_ofList]
  decide +kernel

end Corpus

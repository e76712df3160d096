import Myndaix.Corpus.Links
import Myndaix.Corpus.Outline

/-! The lines of a generated index: the links that they have, and how they end. -/

namespace Corpus

open Curate (Str Strings)
open Outcomes (isSpace strip)
open Text

variable {strings : Strings} {tables : Tables} {text line title : Str}
    {doc : DocRecord} {char : Char}
  {cap : Nat}

-- What stands in a line

/-- A character of a sanitised line: no bracket, and no blank but the space. -/
def IsInline (char : Char) : Prop :=
  isUnsafe char = false ∧ (isSpace char = true → char = ' ')

theorem mem_strip (mem : char ∈ strip text) : char ∈ text :=
  (Text.trim_infix isSpace text).subset mem

/-- One line is inline. -/
theorem mdOneline_inline (mem : char ∈ mdOneline text cap) : IsInline char := by
  have inside := List.take_subset _ _ (mem_strip mem)
  obtain ⟨before, isBefore, same⟩ := List.mem_map.mp inside
  split at same
  · subst same
    exact ⟨by decide, fun _ => rfl⟩
  · rename_i safe
    subst same
    refine ⟨Bool.eq_false_iff.mpr safe, fun blank => ?_⟩
    rcases mem_squeeze (mem_strip isBefore) with filler | solid
    · exact filler
    · rw [solid] at blank
      cases blank

theorem mdOneline_trimmed (text : Str) (cap : Nat) : Trimmed isSpace (mdOneline text cap) :=
  trimmed_trim isSpace _

/-- A link is the text of one. -/
theorem link_text (doc : DocRecord) : LinkText (link doc) := by
  intro char mem
  obtain ⟨safe, blank⟩ := mdOneline_inline mem
  rw [isUnsafe] at safe
  simp only [List.contains_cons, List.contains_nil, Bool.or_false, Bool.or_eq_false_iff,
    beq_eq_false_iff_ne] at safe ⊢
  refine ⟨safe.2.2.1, safe.2.2.2.1, fun feed => ?_, safe.2.2.2.2⟩
  have space := blank (feed ▸ rfl)
  rw [feed] at space
  cases space

/-- A hook is a sanitised line. -/
theorem hook_oneline (tables : Tables) (doc : DocRecord)
    : ∃ text cap, hook tables doc = mdOneline text cap := by
  have prose (scanned : Scanned) (first : Bool) (lines : List Str)
      : proseFrom tables scanned first lines = []
        ∨ ∃ text cap, proseFrom tables scanned first lines = mdOneline text cap := by
    induction lines generalizing scanned first with
    | nil => exact .inl rfl
    | cons raw lines ih =>
        unfold proseFrom
        dsimp only
        split
        · exact ih ..
        · split
          · exact ih ..
          · split
            · exact ih ..
            · split
              · exact ih ..
              · split
                · exact ih ..
                · split
                  · exact ih ..
                  · exact .inr ⟨_, _, rfl⟩
  unfold hook
  dsimp only
  split
  · exact ⟨_, _, rfl⟩
  · rename_i some
    exact (prose _ _ _).resolve_left some

-- What Python makes of characters

/-- ASCII, the dash of a line and the digits of a date. -/
def IsPlain (tables : Tables) (char : Char) : Prop :=
  char.toNat < 0x80 ∨ char = '—' ∨ tables.isDecimal char = true

/-- What holds of `str.lower` and of `\\d` as well. Nothing is read in context over the end of a
line or a space, and plain texts stay as they are but for their case.
-/
structure Canonical (strings : Strings) (tables : Tables) : Prop extends Composed strings where
  lower_break
    : ∀ front back,
        ∀ char ∈ ['\n', ' '],
          strings.lower (front ++ char :: back) = strings.lower front ++ char :: strings.lower back
  nfc_plain : ∀ text, (∀ char ∈ text, IsPlain tables char) → strings.nfc text = text
  lower_plain
    : ∀ text, (∀ char ∈ text, IsPlain tables char) → strings.lower text = text.map Char.toLower
  lower_clean : ∀ text, '\n' ∈ strings.lower text → '\n' ∈ text
  decimal : ∀ char, tables.isDecimal char = true → char.toNat < 0x80 → char.isDigit = true

/-- A date has digits and dashes alone. -/
def DateText (tables : Tables) (doc : DocRecord) : Prop :=
  ∀ date, doc.docDate = some date → ∀ char ∈ date, char = '-' ∨ tables.isDecimal char = true

theorem isoDate_text {date : Str} (found : isoDate tables text = some date)
    : ∀ char ∈ date, char = '-' ∨ tables.isDecimal char = true := by
  unfold isoDate at found
  dsimp only at found
  split at found
  · rename_i shaped
    cases found
    obtain ⟨length, shaped⟩ := shaped
    intro char mem
    obtain ⟨index, bound, rfl⟩ := List.mem_iff_getElem.mp mem
    have within : index < (text.take 10).length := bound
    have masked : index < "0000-00-00".toList.length := by
      rw [length] at within
      exact within
    have inside : ((text.take 10)[index], "0000-00-00".toList[index])
        ∈ (text.take 10).zip "0000-00-00".toList := by
      have short : index < ((text.take 10).zip "0000-00-00".toList).length := by
        rw [List.length_zip]
        omega
      rw [← @List.getElem_zip _ _ _ _ _ short]
      exact List.getElem_mem short
    have fits := List.all_eq_true.mp shaped _ inside
    dsimp only at fits
    split at fits
    · exact .inl (of_decide_eq_true fits)
    · exact .inr fits
  · cases found

/-- The date of a document is of digits and dashes. -/
theorem parseDoc_dateText (tables : Tables) (relPath : Str) (raw : Bytes)
    : DateText tables (parseDoc tables relPath raw) := by
  intro date found
  rw [parseDoc, Option.or_eq_some_iff] at found
  rcases found with named | ⟨-, inBody⟩
  · unfold nameDate at named
    split at named
    · exact isoDate_text named
    · cases named
  · obtain ⟨line, -, found⟩ := List.exists_of_findSome?_eq_some inBody
    obtain ⟨rest, -, found⟩ := Option.bind_eq_some_iff.mp found
    exact isoDate_text found

-- Lines and their links

/-- Behind something that is no blank, a sanitised text leaves spaces at most at the end. -/
theorem ends_oneline {lead : Str} {solid : Char} (filled : isSpace solid = false)
    (trimmed : Trimmed isSpace text)
    : ∃ body last spaces,
        lead ++ solid :: ' ' :: text = body ++ last :: spaces
        ∧ isSpace last = false ∧ ∀ char ∈ spaces, char = ' ' := by
  rcases List.eq_nil_or_concat' text with rfl | ⟨front, last, rfl⟩
  · exact ⟨lead, solid, [' '], rfl, filled, fun char mem => List.mem_singleton.mp mem⟩
  · refine ⟨lead ++ solid :: ' ' :: front, last, [], by simp, ?_, List.forall_mem_nil _⟩
    exact trimmed.last last (by simp)

def datePart (doc : DocRecord) : Str :=
  match dated doc with
  | some date => " (".toList ++ date ++ ")".toList
  | none => []

/-- What a document's line has behind its link. -/
def afterLink (tables : Tables) (doc : DocRecord) : Str :=
  datePart doc ++ " — ".toList ++ hook tables doc

/-- The line of a document begins with its link. -/
theorem docLine_eq (tables : Tables) (doc : DocRecord)
    : docLine tables doc
      = "- ".toList ++ ('[' :: '[' :: link doc ++ [']', ']']) ++ afterLink tables doc := by
  have opens : "- [[".toList = "- ".toList ++ ['[', '['] := rfl
  have closes : "]]".toList = [']', ']'] := rfl
  delta docLine
  rw [afterLink, datePart, opens, closes]
  cases dated doc with
  | none => simp only [List.append_assoc, List.cons_append, List.nil_append]
  | some date => simp only [List.append_assoc, List.cons_append, List.nil_append]

/-- No other link follows. -/
theorem afterLink_plain (canonical : Canonical strings tables) (text : DateText tables doc)
    : '[' ∉ afterLink tables doc := by
  have noHook : '[' ∉ hook tables doc := by
    obtain ⟨source, cap, same⟩ := hook_oneline tables doc
    rw [same]
    exact fun mem => absurd (mdOneline_inline mem).1 (by decide)
  have noDate (date : Str) (found : dated doc = some date) : '[' ∉ date := by
    intro mem
    rcases text date (Option.filter_eq_some_iff.mp found).1 '[' mem with dash | decimal
    · cases dash
    · exact absurd (canonical.decimal '[' decimal (by decide)) (by decide)
  have dash : '[' ∉ " — ".toList := by decide
  have round : '[' ∉ " (".toList ∧ '[' ∉ ")".toList := by decide
  rw [afterLink, datePart]
  cases found : dated doc with
  | none =>
      rw [List.nil_append, List.mem_append, not_or]
      exact ⟨dash, noHook⟩
  | some date =>
      simp only [List.mem_append, not_or]
      exact ⟨⟨⟨⟨round.1, noDate date found⟩, round.2⟩, dash⟩, noHook⟩

/-- The links of a document's line. -/
theorem docLine_scans (canonical : Canonical strings tables) (text : DateText tables doc)
    : Scans (docLine tables doc) (linkTarget (link doc)) := by
  have bullet : Scans "- ".toList [] := Scans.plain (by decide)
  have scans := (bullet.append (Scans.link (link_text doc))).append
    (Scans.plain (afterLink_plain canonical text))
  rwa [← docLine_eq, List.nil_append, List.append_nil] at scans

/-- A line that ends with spaces behind something else, where all its links stand before. -/
def EndsSolid (line : Str) : Prop :=
  ∃ body last spaces,
    line = body ++ last :: spaces ∧ isSpace last = false ∧ (∀ char ∈ spaces, char = ' ')
    ∧ Scans (body ++ [last]) (targets line)

/-- A text with such an end behind its links, and no link in there. -/
theorem EndsSolid.behind {front behind found : List _} (scans : Scans front found)
    (plain : '[' ∉ behind)
    (ends
      : ∃ body last spaces,
          behind = body ++ last :: spaces ∧ isSpace last = false ∧ ∀ char ∈ spaces, char = ' ')
    : EndsSolid (front ++ behind) := by
  obtain ⟨body, last, spaces, rfl, solid, blank⟩ := ends
  have whole := (scans.append (Scans.plain plain)).targets
  have shorter : '[' ∉ body ++ [last] := by
    intro mem
    refine plain ?_
    rcases List.mem_append.mp mem with inside | isLast
    · exact List.mem_append_left _ inside
    · rw [List.mem_singleton.mp isLast]
      simp
  refine ⟨front ++ body, last, spaces, (List.append_assoc ..).symm, solid, blank, ?_⟩
  rw [whole, List.append_assoc]
  exact scans.append (Scans.plain shorter)

theorem docLine_ends (canonical : Canonical strings tables) (text : DateText tables doc)
    : EndsSolid (docLine tables doc) := by
  have bullet : Scans "- ".toList [] := Scans.plain (by decide)
  rw [docLine_eq]
  refine .behind (bullet.append (Scans.link (link_text doc))) (afterLink_plain canonical text) ?_
  obtain ⟨source, cap, same⟩ := hook_oneline tables doc
  have dash : " — ".toList = [' '] ++ '—' :: [' '] := rfl
  have ends :=
    @ends_oneline _ (datePart doc ++ [' ']) '—' (by decide) (mdOneline_trimmed source cap)
  rw [afterLink, same, dash]
  simpa using ends

theorem assetLine_ends (artifact : Str) : EndsSolid (assetLine artifact) := by
  have plain : '[' ∉ assetLine artifact := by
    intro mem
    rcases List.mem_append.mp mem with bullet | inside
    · exact absurd bullet (by decide)
    · exact absurd (mdOneline_inline inside).1 (by decide)
  have none_ : Scans [] [] := Scans.plain List.not_mem_nil
  have ends := EndsSolid.behind none_ plain
    (@ends_oneline _ [] '-' (by decide) (mdOneline_trimmed artifact 200))
  rwa [List.nil_append] at ends

/-- Lines of which the last is empty and the one before ends as it should. -/
def Closed (lines : List Str) : Prop :=
  ∃ init last, lines = init ++ [last, []] ∧ EndsSolid last

theorem Closed.append {lines : List Str} (closed : Closed lines) (front : List Str)
    : Closed (front ++ lines) := by
  obtain ⟨init, last, rfl, ends⟩ := closed
  exact ⟨front ++ init, last, (List.append_assoc ..).symm, ends⟩

/-- A group of lines is closed. -/
theorem Closed.group {lines : List Str} (ends : ∀ line ∈ lines, EndsSolid line) (some : lines ≠ [])
    (heading : Str)
    : Closed (group heading lines) := by
  obtain ⟨init, last, rfl⟩ := (List.eq_nil_or_concat' lines).resolve_left some
  exact ⟨heading :: init, last, by simp [Corpus.group], ends last (by simp)⟩

/-- Sorting loses no document. -/
theorem mem_byDate {docs : List DocRecord} : doc ∈ byDate docs ↔ doc ∈ docs :=
  List.mem_mergeSort

theorem mem_months {docs : List DocRecord} {ym : Str}
    : ym ∈ months docs ↔ ∃ doc ∈ docs, month doc = some ym := by
  rw [months, List.mem_mergeSort, List.mem_dedup, List.mem_filterMap]

theorem month_none : month doc = none ↔ dated doc = none :=
  Option.map_eq_none_iff

theorem Closed.flatMap {Item : Type} {lines : Item → List Str} {items : List Item}
    (closed : ∀ item ∈ items, Closed (lines item)) (some : items ≠ [])
    : Closed (items.flatMap lines) := by
  obtain ⟨init, last, rfl⟩ := (List.eq_nil_or_concat' items).resolve_left some
  rw [List.flatMap_append, List.flatMap_singleton]
  exact (closed last (by simp)).append _

section Closed

variable {walk : WalkResult} {docs : List DocRecord}

theorem docLines_ends (canonical : Canonical strings tables)
    (texts : ∀ doc ∈ docs, DateText tables doc)
    : ∀ line ∈ docs.map (docLine tables), EndsSolid line := by
  intro line mem
  obtain ⟨doc, isDoc, rfl⟩ := List.mem_map.mp mem
  exact docLine_ends canonical (texts doc isDoc)

/-- The months are closed, if there are any. -/
theorem monthLines_closed (canonical : Canonical strings tables)
    (texts : ∀ doc ∈ docs, DateText tables doc)
    : months docs = [] ∨ Closed (monthLines tables docs) := by
  by_cases none_ : months docs = []
  · exact .inl none_
  · refine .inr (.flatMap (fun ym mem => .group ?_ ?_ _) none_)
    · refine docLines_ends canonical fun doc isDoc => texts doc ?_
      exact (List.mem_filter.mp (mem_byDate.mp isDoc)).1
    · obtain ⟨doc, isDoc, own⟩ := mem_months.mp mem
      have inside : doc ∈ docs.filter (fun doc => month doc = some ym) :=
        List.mem_filter.mpr ⟨isDoc, decide_eq_true own⟩
      exact List.ne_nil_of_mem (List.mem_map_of_mem (mem_byDate.mpr inside))

/-- So is what has no date. -/
theorem undatedLines_closed (canonical : Canonical strings tables)
    (texts : ∀ doc ∈ docs, DateText tables doc)
    : docs.filter (fun doc => dated doc = none) = [] ∨ Closed (undatedLines tables docs) := by
  unfold undatedLines
  dsimp only
  split
  · rename_i none_
    exact .inl none_
  · rename_i some
    refine .inr (.group ?_ ?_ _)
    · refine docLines_ends canonical fun doc isDoc => texts doc ?_
      exact (List.mem_filter.mp (List.mem_mergeSort.mp isDoc)).1
    · obtain ⟨doc, isDoc⟩ := List.exists_mem_of_ne_nil _ some
      exact List.ne_nil_of_mem (List.mem_map_of_mem (List.mem_mergeSort.mpr isDoc))

/-- So are the assets. -/
theorem assetLines_closed (assets : List Str) : assets = [] ∨ Closed (assetLines assets) := by
  unfold assetLines
  split
  · rename_i none_
    exact .inl none_
  · rename_i some
    refine .inr (.group (fun line mem => ?_) ?_ _)
    · obtain ⟨artifact, -, rfl⟩ := List.mem_map.mp mem
      exact assetLine_ends artifact
    · obtain ⟨artifact, isAsset⟩ := List.exists_mem_of_ne_nil _ some
      exact List.ne_nil_of_mem (List.mem_map_of_mem (List.mem_mergeSort.mpr isAsset))

/-- A document has a month or no date. -/
theorem nil_of_undated (noMonths : months docs = [])
    (allDated : docs.filter (fun doc => dated doc = none) = [])
    : docs = [] := by
  refine List.eq_nil_iff_forall_not_mem.mpr fun doc mem => ?_
  cases found : dated doc with
  | none =>
      have inside : doc ∈ docs.filter (fun doc => dated doc = none) :=
        List.mem_filter.mpr ⟨mem, decide_eq_true found⟩
      rw [allDated] at inside
      cases inside
  | some date =>
      have own : month doc = some (date.take 7) := by rw [month, found, Option.map_some]
      have inside := mem_months.mpr ⟨doc, mem, own⟩
      rw [noMonths] at inside
      cases inside

/-- The index ends with the line of a document or an asset, or says that there is none. -/
theorem outline_closed (canonical : Canonical strings tables)
    (texts : ∀ doc ∈ walk.docs, DateText tables doc) (title : Str)
    : Closed (outline strings tables walk title) := by
  unfold outline
  by_cases nothing : walk.docs = [] ∧ assets strings walk = []
  · have empty
        : emptyLines walk.docs (assets strings walk)
          = ["_No markdown briefs found._".toList, []] :=
      if_pos nothing
    have plain : '[' ∉ "_No markdown briefs found._".toList := by decide
    have none_ : Scans [] [] := Scans.plain List.not_mem_nil
    rw [empty]
    refine Closed.append ⟨[], _, rfl, ?_⟩ _
    exact .behind none_ plain
      ⟨"_No markdown briefs found.".toList, '_', [], rfl, by decide, List.forall_mem_nil _⟩
  · have filled : emptyLines walk.docs (assets strings walk) = [] := if_neg nothing
    rw [filled, List.append_nil]
    rcases assetLines_closed (assets strings walk) with noAssets | closed
    · have without : assetLines (assets strings walk) = [] := if_pos noAssets
      rw [without, List.append_nil]
      rcases undatedLines_closed canonical texts with allDated | closed
      · have none_ : undatedLines tables walk.docs = [] := if_pos allDated
        rw [none_, List.append_nil]
        rcases monthLines_closed canonical texts with noMonths | closed
        · exact absurd ⟨nil_of_undated noMonths allDated, noAssets⟩ nothing
        · exact closed.append _
      · exact closed.append _
    · exact closed.append _

end Closed

-- All lines

section Lines

variable {walk : WalkResult} {docs : List DocRecord}

/-- The lines that are the same for all corpora. -/
def FIXED_LINES : List Str :=
  [ [], SKELETON, "## Undated".toList, "## Assets (not full-text indexed)".toList,
    "_No markdown briefs found._".toList ]

/-- Such a line, or the heading of a month. -/
def IsFixed (tables : Tables) (line : Str) : Prop :=
  line ∈ FIXED_LINES
  ∨ ∃ ym, line = "## ".toList ++ ym ∧ ∀ char ∈ ym, char = '-' ∨ tables.isDecimal char = true

theorem mem_group {heading : Str} {lines : List Str}
    : line ∈ group heading lines ↔ line = heading ∨ line = [] ∨ line ∈ lines := by
  rw [group, List.mem_append, List.mem_cons, List.mem_singleton, or_assoc,
    @or_comm (line ∈ lines)]

/-- The lines of the index. -/
theorem mem_outline (texts : ∀ doc ∈ walk.docs, DateText tables doc)
    (mem : line ∈ outline strings tables walk title)
    : IsFixed tables line ∨ line = titleLine title
      ∨ (∃ doc ∈ walk.docs, line = docLine tables doc)
      ∨ ∃ artifact ∈ assets strings walk, line = assetLine artifact := by
  simp only [outline, List.mem_append] at mem
  rcases mem with (((lead | dates) | undated) | files) | empty
  · rcases List.mem_cons.mp lead with rfl | fixed
    · exact .inr (.inl rfl)
    · refine .inl (.inl ?_)
      simp only [FIXED_LINES, List.mem_cons, List.not_mem_nil, or_false] at fixed ⊢
      rcases fixed with empty | skeleton | empty
      · exact .inl empty
      · exact .inr (.inl skeleton)
      · exact .inl empty
  · obtain ⟨ym, isMonth, inside⟩ := List.mem_flatMap.mp dates
    rcases mem_group.mp inside with rfl | rfl | isLine
    · obtain ⟨doc, isDoc, own⟩ := mem_months.mp isMonth
      obtain ⟨date, found, rfl⟩ := Option.map_eq_some_iff.mp own
      refine .inl (.inr ⟨_, rfl, fun char isChar => ?_⟩)
      exact texts doc isDoc date (Option.filter_eq_some_iff.mp found).1 char
        (List.take_subset _ _ isChar)
    · exact .inl (.inl List.mem_cons_self)
    · obtain ⟨doc, isDoc, rfl⟩ := List.mem_map.mp isLine
      exact .inr (.inr (.inl ⟨doc, (List.mem_filter.mp (mem_byDate.mp isDoc)).1, rfl⟩))
  · unfold undatedLines at undated
    dsimp only at undated
    split at undated
    · cases undated
    · rcases mem_group.mp undated with rfl | rfl | isLine
      · exact .inl (.inl (by simp [FIXED_LINES]))
      · exact .inl (.inl List.mem_cons_self)
      · obtain ⟨doc, isDoc, rfl⟩ := List.mem_map.mp isLine
        exact .inr (.inr (.inl ⟨doc, (List.mem_filter.mp (List.mem_mergeSort.mp isDoc)).1, rfl⟩))
  · unfold assetLines at files
    split at files
    · cases files
    · rcases mem_group.mp files with rfl | rfl | isLine
      · exact .inl (.inl (by simp [FIXED_LINES]))
      · exact .inl (.inl List.mem_cons_self)
      · obtain ⟨artifact, isAsset, rfl⟩ := List.mem_map.mp isLine
        exact .inr (.inr (.inr ⟨artifact, List.mem_mergeSort.mp isAsset, rfl⟩))
  · unfold emptyLines at empty
    split at empty
    · rcases mem_group.mp empty with rfl | rfl | isLine
      · exact .inl (.inl (by simp [FIXED_LINES]))
      · exact .inl (.inl List.mem_cons_self)
      · cases isLine
    · cases empty

/-- Only the lines of documents have brackets. -/
theorem mem_outline_plain (canonical : Canonical strings tables)
    (texts : ∀ doc ∈ walk.docs, DateText tables doc)
    (mem : line ∈ outline strings tables walk title)
    : '[' ∉ line ∨ ∃ doc ∈ walk.docs, line = docLine tables doc := by
  have inline {text : Str} {cap : Nat} : '[' ∉ mdOneline text cap := fun mem =>
    absurd (mdOneline_inline mem).1 (by decide)
  rcases mem_outline texts mem with
    (fixed | ⟨ym, rfl, clean⟩) | rfl | isDoc | ⟨artifact, -, rfl⟩
  · have none_ : ∀ line ∈ FIXED_LINES, '[' ∉ line := by
      unfold FIXED_LINES SKELETON
      repeat rewrite [String.toList_ofList]
      decide +kernel
    exact .inl (none_ line fixed)
  · refine .inl fun bracket => ?_
    rcases List.mem_append.mp bracket with heading | inside
    · exact absurd heading (by decide)
    · rcases clean _ inside with dash | decimal
      · cases dash
      · exact absurd (canonical.decimal '[' decimal (by decide)) (by decide)
  · refine .inl fun bracket => ?_
    rcases List.mem_append.mp bracket with heading | inside
    · exact absurd heading (by decide)
    · exact inline inside
  · exact .inr isDoc
  · refine .inl fun bracket => ?_
    rcases List.mem_append.mp bracket with bullet | inside
    · exact absurd bullet (by decide)
    · exact inline inside

/-- Each line of the outline has its own links. -/
theorem outline_scans (canonical : Canonical strings tables)
    (texts : ∀ doc ∈ walk.docs, DateText tables doc)
    (mem : line ∈ outline strings tables walk title)
    : Scans line (targets line) := by
  rcases mem_outline_plain canonical texts mem with plain | ⟨doc, isDoc, rfl⟩
  · have scans := Scans.plain plain
    rwa [scans.targets]
  · have scans := docLine_scans canonical (texts doc isDoc)
    rwa [scans.targets]

/-- Every link is that of a document. -/
theorem docLine_of_target (canonical : Canonical strings tables)
    (texts : ∀ doc ∈ walk.docs, DateText tables doc)
    (mem : line ∈ outline strings tables walk title) {target : Str}
    (linked : target ∈ targets line)
    : ∃ doc ∈ walk.docs, line = docLine tables doc := by
  refine (mem_outline_plain canonical texts mem).resolve_left fun plain => ?_
  rw [(Scans.plain plain).targets] at linked
  cases linked

theorem titleLine_mem : titleLine title ∈ outline strings tables walk title := by
  simp [outline]

theorem docLine_mem (mem : doc ∈ walk.docs)
    : docLine tables doc ∈ outline strings tables walk title := by
  simp only [outline, List.mem_append]
  cases own : month doc with
  | some ym =>
      have isMonth : ym ∈ months walk.docs := mem_months.mpr ⟨doc, mem, own⟩
      refine .inl (.inl (.inl (.inr (List.mem_flatMap.mpr ⟨ym, isMonth, ?_⟩))))
      have inside : doc ∈ walk.docs.filter (fun doc => month doc = some ym) :=
        List.mem_filter.mpr ⟨mem, decide_eq_true own⟩
      exact mem_group.mpr (.inr (.inr (List.mem_map_of_mem (mem_byDate.mpr inside))))
  | none =>
      have inside : doc ∈ walk.docs.filter (fun doc => dated doc = none) :=
        List.mem_filter.mpr ⟨mem, decide_eq_true (month_none.mp own)⟩
      refine .inl (.inl (.inr ?_))
      rw [undatedLines, if_neg (List.ne_nil_of_mem inside)]
      exact mem_group.mpr (.inr (.inr (List.mem_map_of_mem (List.mem_mergeSort.mpr inside))))

theorem assetLine_mem {artifact : Str} (mem : artifact ∈ assets strings walk)
    : assetLine artifact ∈ outline strings tables walk title := by
  simp only [outline, List.mem_append]
  refine .inl (.inr ?_)
  rw [assetLines, if_neg (List.ne_nil_of_mem mem)]
  exact mem_group.mpr (.inr (.inr (List.mem_map_of_mem (List.mem_mergeSort.mpr mem))))

end Lines

end Corpus

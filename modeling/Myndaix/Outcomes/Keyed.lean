import Myndaix.Outcomes.HunkRanges
import Myndaix.Text.Records

/-! Findings are keyed inside changed hunks exactly if nothing behind a carriage return reads like
the header of a hunk, no hunk of another path covers a line that can be found, and that line is the
same whether or not carriage returns end lines.
-/

namespace Outcomes

open Curate (Str universalNewlines)
open Interaction
open Knowledge
open Text

-- The ranges

section Ranges

variable {numerals : Numerals} {files : List FileDiff}

/-- By induction on the list. -/
theorem mapM_id_ok {Error Value : Type} {list : List (Except Error Value)} {values : List Value}
    : list.mapM id = .ok values ↔ list = values.map .ok := by
  induction list generalizing values with
  | nil =>
      cases values with
      | nil => exact iff_of_true rfl rfl
      | cons value values => exact iff_of_false nofun nofun
  | cons first list ih =>
      rw [List.mapM_cons]
      cases first with
      | error raised =>
          refine iff_of_false nofun fun same => ?_
          cases values with
          | nil => cases same
          | cons value values => cases same
      | ok first =>
          cases rest : list.mapM id with
          | error raised =>
              refine iff_of_false nofun fun same => ?_
              cases values with
              | nil => cases same
              | cons value values =>
                  rw [List.map_cons, List.cons.injEq] at same
                  rw [ih.mpr same.2] at rest
                  cases rest
          | ok others =>
              have split := ih.mp rest
              constructor
              · rintro ⟨⟩
                rw [split]
                rfl
              · intro same
                cases values with
                | nil => cases same
                | cons value values =>
                    rw [List.map_cons, List.cons.injEq] at same
                    obtain ⟨⟨⟩, same⟩ := same
                    have equal : others = values := by
                      have mapped := split.symm.trans same
                      exact List.map_injective_iff.mpr (fun _ _ equal => by cases equal; rfl) mapped
                    rw [equal]
                    rfl

/-- Parts that are put in between are empty if nothing is added by them; by induction on the list.
-/
theorem flatMap_append_eq_iff {Item Value : Type} {items : List Item}
    (first second : Item → List Value)
    : items.flatMap (fun item => first item ++ second item) = items.flatMap first
      ↔ ∀ item ∈ items, second item = [] := by
  constructor
  · intro same
    have length := congrArg List.length same
    have sum : (items.flatMap fun item => first item ++ second item).length
        = (items.flatMap first).length + (items.flatMap second).length := by
      clear same length
      induction items with
      | nil => rfl
      | cons item items ih =>
          rw [List.flatMap_cons, List.flatMap_cons, List.flatMap_cons, List.length_append,
            List.length_append, List.length_append, List.length_append, ih]
          omega
    rw [sum] at length
    exact List.flatMap_eq_nil_iff.mp (List.length_eq_zero_iff.mp (by omega))
  · intro empty
    refine List.flatMap_congr fun item mem => ?_
    rw [empty item mem, List.append_nil]

/-- Nothing that git prints behind a carriage return reads like a header. -/
def Unforged (numerals : Numerals) (files : List FileDiff) : Prop :=
  ∀ line ∈ files.flatMap FileDiff.lines, ∀ text ∈ behind line, hunkMatch numerals text = none

theorem changedHunks_printed (files : List FileDiff)
    : changedHunks numerals (runGit (some (printed files)))
      = ((files.flatMap FileDiff.lines).flatMap fun line =>
          ownRange numerals line ++ (behind line).filterMap (hunkOf numerals)).mapM id := by
  have empty : hunkOf numerals [] = none := hunkOf_none (hunkMatch_other nofun)
  have decodes : universalNewlines (decoded (printed files))
      = universalNewlines (terminated '\n' ((files.flatMap FileDiff.lines).map decoded)) := by
    rw [decoded, printed, characters_decodeReplacing_terminated]
    rfl
  rw [runGit, Option.map_some, changedHunks, decodes, splitLines,
    splitOn_universalNewlines_terminated, List.filterMap_append, List.filterMap_cons_none empty,
    List.filterMap_nil, List.append_nil, List.filterMap_flatMap, List.flatMap_map]
  simp only [filterMap_readLines]

/-- The recorder reads the ranges that git has printed exactly if none is forged. -/
theorem changedHunks_iff
    : changedHunks numerals (runGit (some (printed files))) = .ok (printedRanges files)
      ↔ Unforged numerals files := by
  rw [changedHunks_printed, mapM_id_ok, ← ownRanges_eq, flatMap_append_eq_iff]
  refine forall₂_congr fun line _ => ?_
  rw [List.filterMap_eq_nil_iff]
  exact forall₂_congr fun text _ => hunkOf_eq_none

end Ranges

-- The lines

section Lines

variable {host : Host} {numerals : Numerals} {git : Git} {base tip path : String} {line : Nat}
  {hash : String} {hunks : List (Nat × Nat)}

theorem resolveAndHash_some {respond : (query : GitRead) → query.Answer}
    : (resolveAndHash host tip path line hunks).answered respond = some hash
      ↔ lineInHunks line hunks ∧ 1 ≤ line
        ∧ ∃ text content, respond (.catFile tip path) = some text
            ∧ (splitLines text)[line - 1]? = some content
            ∧ normalizeLine content ≠ [] ∧ lineHash host content = hash := by
  rw [resolveAndHash]
  by_cases inside : lineInHunks line hunks
  · rw [if_pos inside]
    simp only [inside, true_and, Program.answered]
    cases read : respond (.catFile tip path) with
    | none =>
        refine iff_of_false nofun ?_
        rintro ⟨_, text, content, found, _⟩
        cases found
    | some text =>
        dsimp only
        by_cases outside : line < 1 ∨ (splitLines text).length < line
        · rw [if_pos outside]
          refine iff_of_false nofun ?_
          rintro ⟨positive, _, content, ⟨⟩, found, _⟩
          have bound := (List.getElem?_eq_some_iff.mp found).1
          omega
        · rw [if_neg outside]
          have positive : 1 ≤ line := by omega
          cases found : (splitLines text)[line - 1]? with
          | none =>
              refine iff_of_false nofun ?_
              rintro ⟨_, _, content, ⟨⟩, other, _⟩
              rw [found] at other
              cases other
          | some content =>
              dsimp only
              by_cases blank : normalizeLine content = []
              · rw [blank, List.isEmpty_nil, if_pos rfl]
                refine iff_of_false nofun ?_
                rintro ⟨_, _, other, ⟨⟩, same, filled, _⟩
                rw [found] at same
                cases same
                exact filled blank
              · rw [if_neg (by simpa using blank)]
                constructor
                · intro same
                  exact ⟨positive, text, content, rfl, found, blank, Option.some.inj same⟩
                · rintro ⟨_, _, other, ⟨⟩, same, _, hashed⟩
                  rw [found] at same
                  cases same
                  exact congrArg some hashed
  · rw [if_neg inside]
    refine iff_of_false nofun ?_
    rintro ⟨covered, _⟩
    exact inside covered

theorem lineInHunks_printed {files : List FileDiff}
    : lineInHunks line (printedRanges files)
      ↔ ∃ file ∈ files, ∃ hunk ∈ file.hunks, hunk.Covers line := by
  rw [lineInHunks, List.any_eq_true, printedRanges]
  constructor
  · rintro ⟨range, mem, inside⟩
    obtain ⟨file, isFile, mem⟩ := List.mem_flatMap.mp mem
    obtain ⟨hunk, isHunk, rfl⟩ := List.mem_map.mp mem
    obtain ⟨inside, most⟩ := Bool.and_eq_true_iff.mp inside
    obtain ⟨some, least⟩ := Bool.and_eq_true_iff.mp inside
    have some := of_decide_eq_true some
    have most := of_decide_eq_true most
    refine ⟨file, isFile, hunk, isHunk, of_decide_eq_true least, ?_⟩
    simp only [Hunk.range] at some most
    omega
  · rintro ⟨file, isFile, hunk, isHunk, least, most⟩
    refine ⟨hunk.range, List.mem_flatMap.mpr ⟨file, isFile, List.mem_map_of_mem isHunk⟩, ?_⟩
    refine Bool.and_eq_true_iff.mpr ⟨Bool.and_eq_true_iff.mpr ⟨?_, decide_eq_true least⟩, ?_⟩
    · exact decide_eq_true (by simp only [Hunk.range]; omega)
    · exact decide_eq_true (by simp only [Hunk.range]; omega)

/-- The lines that line feeds end, and what is behind the last one. -/
def feedLines (blob : Bytes) : List Str :=
  (blob.splitOn LF).map decoded

/-- A hunk of exactly this path covers the line. -/
def Changed (files : List FileDiff) (path : String) (line : Nat) : Prop :=
  ∃ file ∈ files, file.path = path ∧ ∃ hunk ∈ file.hunks, hunk.Covers line

/-- The ranges are those that git has printed, and a finding that is keyed is keyed by the line of
its number, which line feeds count, in a hunk of its path.
-/
structure Keyed (host : Host) (numerals : Numerals) (git : Git)
    (base tip path : String) : Prop where
  ranges
    : changedHunks numerals (runGit ((git.diff base tip path).map printed))
      = .ok (printedRanges ((git.diff base tip path).getD []))
  lines
    : ∀ line hash,
        resolveFindingLine host numerals git base tip path line = .ok (some hash)
        → Changed ((git.diff base tip path).getD []) path line
          ∧ ∃ blob content, git.blob tip path = some blob
              ∧ (feedLines blob)[line - 1]? = some content ∧ lineHash host content = hash

/-- A line in some printed hunk that is not blank where carriage returns end lines too. -/
structure Findable (files : List FileDiff) (blob : Bytes) (line : Nat) (content : Str) : Prop where
  covered : ∃ file ∈ files, ∃ hunk ∈ file.hunks, hunk.Covers line
  positive : 1 ≤ line
  read : (splitLines (universalNewlines (decoded blob)))[line - 1]? = some content
  filled : normalizeLine content ≠ []

/-- Nothing behind a carriage return reads like a header; no hunk of another path covers a line that
can be found, and that line reads alike in the blob's two ways to count lines.
-/
structure LineAccurate (host : Host) (numerals : Numerals) (git : Git) (base tip path : String)
    : Prop where
  unforged : Unforged numerals ((git.diff base tip path).getD [])
  own
    : ∀ blob, git.blob tip path = some blob
        → ∀ line content, Findable ((git.diff base tip path).getD []) blob line content
          → Changed ((git.diff base tip path).getD []) path line
  counts
    : ∀ blob, git.blob tip path = some blob
        → ∀ line content, Findable ((git.diff base tip path).getD []) blob line content
          → ∃ whole, (feedLines blob)[line - 1]? = some whole
              ∧ lineHash host whole = lineHash host content

theorem changedHunks_git
    : changedHunks numerals (runGit ((git.diff base tip path).map printed))
        = .ok (printedRanges ((git.diff base tip path).getD []))
      ↔ Unforged numerals ((git.diff base tip path).getD []) := by
  cases git.diff base tip path with
  | none => exact iff_of_true rfl nofun
  | some files => exact changedHunks_iff

/-- What is keyed once the ranges are read as they are printed. -/
theorem resolveFindingLine_some
    (ranges
      : changedHunks numerals (runGit ((git.diff base tip path).map printed))
        = .ok (printedRanges ((git.diff base tip path).getD [])))
    : resolveFindingLine host numerals git base tip path line = .ok (some hash)
      ↔ ∃ blob content, git.blob tip path = some blob
          ∧ Findable ((git.diff base tip path).getD []) blob line content
          ∧ lineHash host content = hash := by
  have read : git.respond numerals (.catFile tip path) = runGit (git.blob tip path) := rfl
  rw [resolveFindingLine, ranges]
  have result {value : Option String}
      : (Except.ok value : Except ValueError (Option String)) = .ok (some hash)
        ↔ value = some hash :=
    ⟨Except.ok.inj, congrArg _⟩
  refine result.trans (resolveAndHash_some.trans ?_)
  rw [lineInHunks_printed, read]
  constructor
  · rintro ⟨covered, positive, text, content, output, read, filled, hashed⟩
    obtain ⟨blob, found, rfl⟩ := Option.map_eq_some_iff.mp output
    exact ⟨blob, content, found, ⟨covered, positive, read, filled⟩, hashed⟩
  · rintro ⟨blob, content, found, findable, hashed⟩
    exact ⟨findable.covered, findable.positive, _, content, by rw [found]; rfl, findable.read,
      findable.filled, hashed⟩

/-- Findings are keyed inside changed hunks exactly if the lines are read accurately. -/
theorem keyed_iff (host : Host) (numerals : Numerals) (git : Git) (base tip path : String)
    : Keyed host numerals git base tip path ↔ LineAccurate host numerals git base tip path := by
  constructor
  · intro keyed
    have resolves {blob : Bytes} (found : git.blob tip path = some blob) {line : Nat}
      {content : Str}
        (findable : Findable ((git.diff base tip path).getD []) blob line content)
        : resolveFindingLine host numerals git base tip path line
          = .ok (some (lineHash host content)) :=
      (resolveFindingLine_some keyed.ranges).mpr ⟨blob, content, found, findable, rfl⟩
    refine ⟨changedHunks_git.mp keyed.ranges, fun blob found line content findable => ?_,
      fun blob found line content findable => ?_⟩
    · exact (keyed.lines line _ (resolves found findable)).1
    · obtain ⟨_, other, whole, same, feeds, hashes⟩ := keyed.lines line _ (resolves found findable)
      rw [found] at same
      cases same
      exact ⟨whole, feeds, hashes⟩
  · intro accurate
    have ranges := changedHunks_git.mpr accurate.unforged
    refine ⟨ranges, fun line hash resolved => ?_⟩
    obtain ⟨blob, content, found, findable, rfl⟩ := (resolveFindingLine_some ranges).mp resolved
    obtain ⟨whole, feeds, hashes⟩ := accurate.counts blob found line content findable
    exact ⟨accurate.own blob found line content findable, blob, whole, found, feeds, hashes⟩

/-- The lines of a text's bytes are those of the text, by induction on it. -/
theorem splitOn_utf8 (text : Str) : (utf8 text).splitOn LF = (text.splitOn '\n').map utf8 := by
  induction text with
  | nil => rfl
  | cons char rest ih =>
      rw [utf8_cons, List.splitOn_cons_eq_if_modifyHead]
      by_cases feed : char = '\n'
      · rw [if_pos (by simpa using feed), feed, List.map_cons, ← ih]
        exact List.splitOn_append_cons_self_of_not_mem List.not_mem_nil (utf8 rest)
      · have clean : LF ∉ utf8 [char] := fun mem =>
          feed (List.mem_singleton.mp (lf_mem_utf8.mp mem)).symm
        rw [utf8_cons, show utf8 [] = [] from rfl, List.append_nil] at clean
        obtain ⟨line, lines, split⟩ := List.exists_cons_of_ne_nil (List.splitOn_ne_nil '\n' rest)
        rw [if_neg (by simpa using feed), splitOn_append_clean clean, ih, split]
        simp [utf8_cons]

/-- Findings are keyed inside changed hunks where neither the diff nor the file has a carriage
return and the path matches no other file.
-/
theorem keyed_of_plain {text : Str} (host : Host) (numerals : Numerals)
    (isText : git.blob tip path = some (utf8 text)) (noReturn : '\r' ∉ text)
    (plain : ∀ line ∈ ((git.diff base tip path).getD []).flatMap FileDiff.lines, behind line = [])
    (own : ∀ file ∈ (git.diff base tip path).getD [], file.path = path)
    : Keyed host numerals git base tip path := by
  refine (keyed_iff host numerals git base tip path).mpr ⟨?_, ?_, ?_⟩
  · intro line mem text behind_
    rw [plain line mem] at behind_
    cases behind_
  · intro blob _ line content findable
    obtain ⟨file, isFile, hunk, isHunk, covers⟩ := findable.covered
    exact ⟨file, isFile, own file isFile, hunk, isHunk, covers⟩
  · intro blob found line content findable
    cases isText.symm.trans found
    refine ⟨content, ?_, rfl⟩
    have whole : decoded (utf8 text) = text := characters_decodeReplacing text
    have read := findable.read
    rw [whole, universalNewlines_eq_self.mpr noReturn, splitLines] at read
    rw [feedLines, splitOn_utf8, List.map_map, List.getElem?_map, read]
    exact congrArg some (characters_decodeReplacing content)

end Lines

-- A forged header

/-- The digits of ASCII, and no others. -/
def asciiNumerals : Numerals where
  decimal := fun char => if char.isDigit then some (char.toNat - 0x30) else none
  ascii := fun _ _ => rfl

/-- A line with a carriage return and a header of a hunk behind it. -/
def forgedLine : Str :=
  "y\r@@ -1 +2 @@".toList

/-- The only line of a file becomes the forged one. -/
def forgedHunk : Hunk where
  oldStart := 1
  oldCount := 1
  newStart := 1
  newCount := 1
  heading := []
  body := [utf8 "-x".toList, utf8 ('+' :: forgedLine)]
  whole := by
    have old : '\n' ∉ "-x".toList := by decide
    have new : '\n' ∉ '+' :: forgedLine := by decide
    intro line mem feed
    simp only [List.mem_cons, List.not_mem_nil, or_false] at mem
    rcases mem with rfl | rfl | rfl
    · cases feed
    · exact old (lf_mem_utf8.mp feed)
    · exact new (lf_mem_utf8.mp feed)
  signed := by
    intro line mem
    simp only [List.mem_cons, List.not_mem_nil, or_false] at mem
    rcases mem with rfl | rfl
    · exact ⟨0x2D, [0x78], by decide, by decide⟩
    · exact ⟨0x2B, utf8 forgedLine, by rw [utf8_cons]; rfl, by decide⟩
  fits := by decide

def forgedFile : FileDiff where
  path := "a.txt"
  header := []
  hunks := [forgedHunk]
  whole := nofun
  opened := nofun

def forgedGit : Git where
  diff := fun _ _ _ => some [forgedFile]
  blob := fun _ _ => some (utf8 (forgedLine ++ ['\n']))
  listed := fun _ _ => none

/-- A file of one line: a range of its second line is read. -/
theorem keyed_fails_forged
    : ¬ ∀ (host : Host) (numerals : Numerals) (git : Git) (base tip path : String),
          Keyed host numerals git base tip path := by
  intro claim
  have reads : readLines ('+' :: forgedLine) = ["+y".toList, "@@ -1 +2 @@".toList] := by
    decide +kernel
  have matched : hunkMatch asciiNumerals "@@ -1 +2 @@".toList = some (['2'], none) := by
    decide +kernel
  have keyed := claim Host.sample asciiNumerals forgedGit "base" "tip" "a.txt"
  have unforged := changedHunks_git.mp keyed.ranges
  have unmatched := unforged (utf8 ('+' :: forgedLine)) (.tail _ (.tail _ (.head _)))
    "@@ -1 +2 @@".toList (by
      rw [behind, decoded, characters_decodeReplacing, reads]
      exact .head _)
  rw [matched] at unmatched
  cases unmatched

end Outcomes

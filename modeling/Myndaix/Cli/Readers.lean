import Myndaix.Cli.Markers

/-! What the readers see of the markers. Every line before the marker is free of them; the phone
sees the marker whatever comes before it, the fetch over SSH if it has read that far.
-/

namespace Cli

open Corpus (isLineEnd splitlines splitlinesFrom)
open Curate (Str)
open Outcomes (isSpace strip)
open Text

-- Lines

/-- A line that ends nowhere and is no marker, nor begins like one. -/
structure Plain (line : Str) : Prop where
  whole : ∀ char ∈ line, isLineEnd char = false
  unmarked : ¬MXR <+: line

section Lines

variable {text line : Str}

/-- A plain line is one line. -/
theorem Plain.noFeed (plain : Plain line) : '\n' ∉ line :=
  fun mem => absurd (plain.whole _ mem) (by decide)

/-- By induction on the text. -/
theorem splitlinesFrom_whole (clean : ∀ char ∈ line, isLineEnd char = false) {part : Str}
    (mem : part ∈ splitlinesFrom line text)
    : ∀ char ∈ part, isLineEnd char = false := by
  fun_induction splitlinesFrom line text with
  | case1 => cases mem
  | case2 line filled =>
      rw [List.mem_singleton] at mem
      exact mem ▸ clean
  | case3 line rest ih =>
      rcases List.mem_cons.mp mem with rfl | mem
      · exact clean
      · exact ih (fun _ inside => absurd inside List.not_mem_nil) mem
  | case4 line char rest other ends ih =>
      rcases List.mem_cons.mp mem with rfl | mem
      · exact clean
      · exact ih (fun _ inside => absurd inside List.not_mem_nil) mem
  | case5 line char rest other inside ih =>
      refine ih (fun other isPart => ?_) mem
      rcases List.mem_append.mp isPart with isPart | isPart
      · exact clean other isPart
      · rw [List.mem_singleton.mp isPart]
        exact Bool.eq_false_iff.mpr inside

/-- No line that is split off has a line end. -/
theorem splitlines_whole (mem : line ∈ splitlines text) : ∀ char ∈ line, isLineEnd char = false :=
  splitlinesFrom_whole (fun _ inside => absurd inside List.not_mem_nil) mem

/-- A line of the agent is plain once it is indented. -/
theorem plain_indented (mem : line ∈ splitlines text)
    : Plain (if MXR.isPrefixOf line then ' ' :: line else line) := by
  have whole := splitlines_whole mem
  split
  · refine ⟨fun char isPart => ?_, by simp [MXR]⟩
    rcases List.mem_cons.mp isPart with rfl | isPart
    · decide
    · exact whole char isPart
  · rename_i unmarked
    exact ⟨whole, fun begins => unmarked (List.isPrefixOf_iff_prefix.mpr begins)⟩

/-- The empty line is plain. -/
theorem plain_empty : Plain [] :=
  ⟨fun _ inside => absurd inside List.not_mem_nil, by decide⟩

/-- An agent's text is printed as plain lines. -/
theorem say_markerSafe (text : Str)
    : ∃ lines, say (markerSafe text) = terminated '\n' lines ∧ ∀ line ∈ lines, Plain line := by
  rw [say, markerSafe]
  by_cases filled : splitlines text = []
  · refine ⟨[[]], by rw [filled]; rfl, fun line mem => ?_⟩
    rw [List.mem_singleton.mp mem]
    exact plain_empty
  · refine ⟨_, intercalate_append (by simpa using filled), fun line mem => ?_⟩
    obtain ⟨original, isLine, rfl⟩ := List.mem_map.mp mem
    exact plain_indented isLine

/-- Of a text whose only line ends are line feeds, `splitlines` gives what is between them, but for
an empty last line; by induction on the text.
-/
theorem splitlinesFrom_eq (feeds : ∀ char ∈ text, isLineEnd char → char = '\n')
    {keep : Str → Bool} (filled : keep [] = false)
    : (splitlinesFrom line text).filter keep
      = ((text.splitOn '\n').modifyHead (line ++ ·)).filter keep := by
  fun_induction splitlinesFrom line text with
  | case1 => simp [filled]
  | case2 line nonempty => simp
  | case3 line rest ih => exact absurd (feeds '\r' List.mem_cons_self (by decide)) (by decide)
  | case4 line char rest other ends ih =>
      obtain rfl := feeds char List.mem_cons_self ends
      have behind := ih fun char mem => feeds char (List.mem_cons_of_mem _ mem)
      rw [List.splitOn_cons_eq_if_modifyHead, if_pos (by decide)]
      simp only [List.modifyHead_cons, List.append_nil, List.filter_cons, behind]
      cases splits : rest.splitOn '\n' <;> rfl
  | case5 line char rest other inside ih =>
      have differs : char ≠ '\n' := by
        rintro rfl
        exact inside (by decide)
      rw [ih fun char mem => feeds char (List.mem_cons_of_mem _ mem),
        List.splitOn_cons_eq_if_modifyHead, if_neg (by simpa using differs)]
      cases splits : rest.splitOn '\n' with
      | nil => exact absurd splits (List.splitOn_ne_nil _ _)
      | cons first others => simp

/-- Where line feeds are the only line ends, the lines are those between line feeds. -/
theorem splitlines_eq (feeds : ∀ char ∈ text, isLineEnd char → char = '\n') {keep : Str → Bool}
    (filled : keep [] = false)
    : (splitlines text).filter keep = (text.splitOn '\n').filter keep := by
  rw [splitlines, splitlinesFrom_eq feeds filled]
  cases splits : text.splitOn '\n' <;> rfl

end Lines

-- Markers

def isMarker (line : Str) : Bool :=
  (MARKERS.map Marker.line).contains line

section Markers

variable {front : List Str} {line kept broken : Str} {marker other : Marker}

/-- The lines that are markers. -/
theorem isMarker_iff : isMarker line ↔ ∃ marker : Marker, line = marker.line := by
  rw [isMarker, List.contains_iff_mem, List.mem_map]
  constructor
  · rintro ⟨marker, _, rfl⟩
    exact ⟨marker, rfl⟩
  · rintro ⟨marker, rfl⟩
    exact ⟨marker, by cases marker <;> decide, rfl⟩

/-- Markers begin alike. -/
theorem Marker.begins (marker : Marker) : MXR <+: marker.line := by
  cases marker <;> decide

/-- No marker has a replacement character. -/
theorem Marker.noReplacement (marker : Marker) : '\uFFFD' ∉ marker.line := by
  cases marker <;> decide

/-- A marker is one line. -/
theorem Marker.noFeed (marker : Marker) : '\n' ∉ marker.line := by
  cases marker <;> decide

/-- No marker is the begin of another. -/
theorem Marker.prefix_eq (begins : other.line <+: marker.line) : other.line = marker.line := by
  revert begins
  cases other <;> cases marker <;> decide

/-- A plain line is no marker. -/
theorem Plain.not_isMarker (plain : Plain line) : isMarker line = false := by
  rw [Bool.eq_false_iff, Ne, isMarker_iff]
  rintro ⟨marker, rfl⟩
  exact plain.unmarked marker.begins

/-- A cut line that reads like a marker has nothing replaced. -/
theorem cut_isMarker (replaced : ∀ char ∈ broken, char = '\uFFFD')
    (reads : isMarker (kept ++ broken))
    : ∃ marker : Marker, kept = marker.line := by
  obtain ⟨marker, whole⟩ := isMarker_iff.mp reads
  cases broken with
  | nil => exact ⟨marker, by rw [← whole, List.append_nil]⟩
  | cons char broken =>
      have mem : char ∈ marker.line :=
        whole ▸ List.mem_append_right _ List.mem_cons_self
      rw [replaced char List.mem_cons_self] at mem
      exact absurd mem marker.noReplacement

/-- Replacement characters end no line. -/
theorem noFeed_replaced (replaced : ∀ char ∈ broken, char = '\uFFFD') : '\n' ∉ broken :=
  fun mem => absurd (replaced _ mem) (by decide)

/-- One line that is no marker has no markers. -/
theorem filter_singleton (clean : '\n' ∉ line) (not : isMarker line = false)
    : (line.splitOn '\n').filter isMarker = [] := by
  rw [List.splitOn_eq_singleton clean, List.filter_cons_of_neg (by rw [not]; decide),
    List.filter_nil]

/-- Where the text is cut before the end of the marker, none is read; by induction on the lines. -/
theorem markers_before (plain : ∀ line ∈ front, Plain line)
    (replaced : ∀ char ∈ broken, char = '\uFFFD')
    (begins : kept <+: terminated '\n' front ++ marker.line)
    (short : kept ≠ terminated '\n' front ++ marker.line)
    : ((kept ++ broken).splitOn '\n').filter isMarker = [] := by
  induction front generalizing kept with
  | nil =>
      refine filter_singleton (fun mem => ?_) (Bool.eq_false_iff.mpr fun reads => ?_)
      · rcases List.mem_append.mp mem with mem | mem
        · exact marker.noFeed (begins.subset mem)
        · exact noFeed_replaced replaced mem
      · obtain ⟨other, rfl⟩ := cut_isMarker replaced reads
        exact short (Marker.prefix_eq begins)
  | cons line front ih =>
      have here := plain line List.mem_cons_self
      have split : terminated '\n' (line :: front) ++ marker.line
          = line ++ '\n' :: (terminated '\n' front ++ marker.line) := by
        simp [terminated]
      rw [split] at begins short
      rcases List.prefix_or_prefix_of_prefix begins (List.prefix_append line _) with inside | behind
      · refine filter_singleton (fun mem => ?_) (Bool.eq_false_iff.mpr fun reads => ?_)
        · rcases List.mem_append.mp mem with mem | mem
          · exact here.noFeed (inside.subset mem)
          · exact noFeed_replaced replaced mem
        · obtain ⟨other, rfl⟩ := cut_isMarker replaced reads
          exact here.unmarked (other.begins.trans inside)
      · obtain ⟨rest, rfl⟩ := behind
        have follows := (List.prefix_append_right_inj line).mp begins
        cases rest with
        | nil =>
            rw [List.append_nil]
            refine filter_singleton (fun mem => ?_) (Bool.eq_false_iff.mpr fun reads => ?_)
            · rcases List.mem_append.mp mem with mem | mem
              · exact here.noFeed mem
              · exact noFeed_replaced replaced mem
            · obtain ⟨other, rfl⟩ := cut_isMarker replaced reads
              exact here.unmarked other.begins
        | cons char rest =>
            obtain ⟨rfl, tail⟩ := List.cons_prefix_cons.mp follows
            rw [List.append_assoc, List.cons_append,
              List.splitOn_append_cons_self_of_not_mem here.noFeed,
              List.filter_cons_of_neg (by rw [here.not_isMarker]; decide)]
            refine ih (fun other mem => plain other (List.mem_cons_of_mem _ mem)) tail ?_
            rintro rfl
            exact short rfl

/-- What may stand behind the marker in a text that is cut there. -/
def Closes (behind : Str) : Prop :=
  behind = [] ∨ ∃ rest, behind = '\n' :: rest ∧ 'M' ∉ rest

/-- Where it is not cut before its end, the marker is all that is read. -/
theorem markers_behind (plain : ∀ line ∈ front, Plain line) {behind : Str} (closes : Closes behind)
    : ((terminated '\n' front ++ (marker.line ++ behind)).splitOn '\n').filter isMarker
      = [marker.line] := by
  have itself : isMarker marker.line := isMarker_iff.mpr ⟨marker, rfl⟩
  have none : front.filter isMarker = [] :=
    List.filter_eq_nil_iff.mpr fun line mem => by
      rw [(plain line mem).not_isMarker]
      decide
  rw [splitOn_terminated_append fun line mem => (plain line mem).noFeed, List.filter_append,
    none, List.nil_append]
  rcases closes with rfl | ⟨rest, rfl, other⟩
  · rw [List.append_nil, List.splitOn_eq_singleton marker.noFeed, List.filter_cons_of_pos itself,
      List.filter_nil]
  · rw [List.splitOn_append_cons_self_of_not_mem marker.noFeed, List.filter_cons_of_pos itself]
    refine congrArg (marker.line :: ·) (List.filter_eq_nil_iff.mpr fun part isPart reads => ?_)
    obtain ⟨seen, rfl⟩ := isMarker_iff.mp reads
    exact other (mem_of_part isPart (seen.begins.subset (List.mem_cons_self)))

end Markers

-- The lines of standard error

/-- What is checked of a text holds of its characters. -/
theorem whole_of_all {text : Str} (all : text.all fun char => !isLineEnd char) (char : Char)
    (mem : char ∈ text)
    : isLineEnd char = false := by
  have inside := List.all_eq_true.mp all char mem
  rwa [Bool.not_eq_true'] at inside

section Stderr

variable {job : EndedJob} {char : Char}

def headerLine (job : EndedJob) : Str :=
  "-> ".toList ++ job.agent ++ "  (job ".toList ++ job.id.take 8 ++ ")".toList

/-- The characters of names and ids. -/
def isWordChar (char : Char) : Bool :=
  isNameChar char || isIdChar char

/-- Small letters, digits and the dash. -/
theorem isWordChar_range (word : isWordChar char)
    : 0x61 ≤ char.toNat ∧ char.toNat ≤ 0x7A ∨ 0x30 ≤ char.toNat ∧ char.toNat ≤ 0x39
      ∨ char.toNat = 0x2D := by
  have small (lower : char.isLower = true) : 0x61 ≤ char.toNat ∧ char.toNat ≤ 0x7A :=
    (Bool.and_eq_true_iff.mp lower).imp of_decide_eq_true of_decide_eq_true
  simp only [isWordChar, isNameChar, isIdChar, Char.isDigit, Bool.or_eq_true,
    Bool.and_eq_true, decide_eq_true_eq] at word
  rcases word with (word | rfl) | (word | word) | rfl
  · exact .inl (small word)
  · exact .inr (.inr rfl)
  · exact .inr (.inl word)
  · exact .inl ⟨word.1, by omega⟩
  · exact .inr (.inr rfl)

/-- They are ASCII. -/
theorem isWordChar_low (word : isWordChar char) : char.toNat ≤ 0x7F := by
  have range := isWordChar_range word
  omega

/-- They end no line. -/
theorem isWordChar_whole (word : isWordChar char) : isLineEnd char = false := by
  have range := isWordChar_range word
  rw [isLineEnd, Bool.eq_false_iff, Ne, List.contains_iff_mem]
  intro mem
  simp only [List.mem_cons, List.not_mem_nil, or_false] at mem
  omega

/-- They are no spaces. -/
theorem isWordChar_filled (word : isWordChar char) : isSpace char = false := by
  have range := isWordChar_range word
  simp only [isSpace, Bool.or_eq_false_iff, Bool.and_eq_false_iff, decide_eq_false_iff_not]
  omega

/-- They are no capitals. -/
theorem isWordChar_lower (word : isWordChar char) : char ≠ 'J' := by
  rintro rfl
  exact absurd word (by decide)

/-- An agent's name is made of them. -/
theorem wordChar_agent (job : EndedJob) (mem : char ∈ job.agent) : isWordChar char := by
  rw [isWordChar, job.registered char mem, Bool.true_or]

/-- So is a job's id. -/
theorem wordChar_id (job : EndedJob) (mem : char ∈ job.id) : isWordChar char := by
  rw [isWordChar, job.uuid char mem, Bool.or_true]

/-- The signs around the names of the first line. -/
def headerSigns : Str :=
  ['-', '>', ' ', '(', 'j', 'o', 'b', ')']

/-- So is the header, besides its signs. -/
theorem mem_headerLine (mem : char ∈ headerLine job) : isWordChar char ∨ char ∈ headerSigns := by
  have signs {text : Str} (all : text.all headerSigns.contains) (char : Char) (inside : char ∈ text)
      : char ∈ headerSigns :=
    List.contains_iff_mem.mp (List.all_eq_true.mp all char inside)
  have arrow := @signs "-> ".toList rfl
  have opened := @signs "  (job ".toList rfl
  have closed := @signs ")".toList rfl
  rw [headerLine, List.mem_append, List.mem_append, List.mem_append, List.mem_append] at mem
  rcases mem with (((mem | mem) | mem) | mem) | mem
  · exact .inr (arrow char mem)
  · exact .inl (wordChar_agent job mem)
  · exact .inr (opened char mem)
  · exact .inl (wordChar_id job (List.mem_of_mem_take mem))
  · exact .inr (closed char mem)

/-- A line that begins with another letter does not begin as markers do. -/
theorem unmarked_of_head {line : Str} (first : line.head? ≠ some 'M') : ¬MXR <+: line := by
  rintro ⟨rest, rfl⟩
  exact first rfl

/-- The header is plain. -/
theorem plain_headerLine (job : EndedJob) : Plain (headerLine job) where
  whole := by
    have signs := @whole_of_all headerSigns rfl
    intro char mem
    rcases mem_headerLine mem with word | sign
    · exact isWordChar_whole word
    · exact signs char sign
  unmarked := unmarked_of_head nofun

/-- So is the line with the id. -/
theorem plain_jobIdLine (job : EndedJob) : Plain (jobIdLine job) where
  whole := by
    have key := @whole_of_all "JOB_ID=".toList rfl
    intro char mem
    rcases List.mem_append.mp mem with mem | mem
    · exact key char mem
    · exact isWordChar_whole (wordChar_id job mem)
  unmarked := unmarked_of_head nofun

/-- What is printed before the marker is a line with the names, the line of the id and plain lines.
-/
theorem beforeMarker_lines (job : EndedJob)
    : ∃ front, beforeMarker job = terminated '\n' (headerLine job :: jobIdLine job :: front)
        ∧ ∀ line ∈ headerLine job :: jobIdLine job :: front, Plain line := by
  have header : say (headerLine job) ++ say (jobIdLine job)
      = terminated '\n' [headerLine job, jobIdLine job] := by
    simp [say, terminated]
  have plain {front : List Str} (rest : ∀ line ∈ front, Plain line)
      : ∀ line ∈ headerLine job :: jobIdLine job :: front, Plain line := by
    intro line mem
    rcases List.mem_cons.mp mem with rfl | mem
    · exact plain_headerLine job
    rcases List.mem_cons.mp mem with rfl | mem
    · exact plain_jobIdLine job
    · exact rest line mem
  cases found : errorText job.attempts with
  | none =>
      refine ⟨[], ?_, plain (fun _ mem => absurd mem List.not_mem_nil)⟩
      rw [beforeMarker, found, List.append_nil]
      exact header
  | some text =>
      obtain ⟨front, printed, rest⟩ := say_markerSafe (strip text)
      refine ⟨front, ?_, plain rest⟩
      rw [beforeMarker, found]
      dsimp only
      rw [printed]
      refine (congrArg (· ++ terminated '\n' front) header).trans ?_
      rw [terminated, terminated, ← List.flatMap_append]
      rfl

/-- What is printed behind the marker. -/
def behindMarker (job : EndedJob) : Str :=
  '\n' :: say (closing job.ending)

/-- What stands before the marker, the marker, and what stands behind it. -/
theorem stderr_eq (job : EndedJob)
    : stderr job = beforeMarker job ++ (job.ending.marker.line ++ behindMarker job) := by
  have marker
      : "MXR_JOB_".toList ++ job.ending.status.map Char.toUpper = job.ending.marker.line := by
    cases job.ending <;> decide
  rw [stderr, marker, say, behindMarker, List.append_assoc, List.append_assoc]
  simp

end Stderr

end Cli

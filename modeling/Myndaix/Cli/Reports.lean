import Myndaix.Cli.Readers

/-! When both readers report a job as failed: the phone always, the fetch over SSH exactly if its
reads have come as far as the end of the marker.
-/

namespace Cli

open Corpus (isLineEnd splitlines splitlinesFrom)
open Curate (Str)
open Outcomes (isSpace strip)
open Text

-- The drain

/-- What the reads of a stream give, to its end or until they are cancelled. -/
structure Reads (stream : Bytes) where
  chunks : List Bytes
  begins : chunks.flatten <+: stream
  filled : [] ∉ chunks
  size : ∀ chunk ∈ chunks, chunk.length ≤ 4096

/-- How much of the stream is kept. -/
def Reads.reach {stream : Bytes} (reads : Reads stream) : Nat :=
  min DRAIN_LIMIT reads.chunks.flatten.length

/-- The reads up to the limit are kept; by induction on them. -/
theorem drainFrom_eq {limit : Nat} {chunks : List Bytes} (filled : [] ∉ chunks) (buffer : Bytes)
    : drainFrom limit buffer chunks = buffer ++ chunks.flatten.take (limit - buffer.length) := by
  induction chunks generalizing buffer with
  | nil => simp [drainFrom]
  | cons chunk chunks ih =>
      have some : chunk ≠ [] := fun same => filled (same ▸ List.mem_cons_self)
      have room : limit - (buffer ++ chunk.take (limit - buffer.length)).length
          = limit - buffer.length - chunk.length := by
        rw [List.length_append, List.length_take]
        omega
      rw [drainFrom, if_neg some, ih fun mem => filled (List.mem_cons_of_mem _ mem), room,
        List.flatten_cons, List.take_append, List.append_assoc]

/-- A drain keeps what is decoded of the stream up to its reach. -/
theorem Reads.drain_eq {stream : Bytes} (reads : Reads stream)
    : drain DRAIN_LIMIT reads.chunks = characters (decodeReplacing (stream.take reads.reach)) := by
  rw [drain, drainFrom_eq reads.filled, List.nil_append, List.length_nil, Nat.sub_zero, Reads.reach]
  nth_rewrite 1 [List.prefix_iff_eq_take.mp reads.begins]
  rw [List.take_take]

-- What the fetch reads

section Fetch

variable {job : EndedJob} {limit : Nat} {kept broken : Str}

/-- Up to the end of its marker. -/
def untilMarker (job : EndedJob) : Str :=
  beforeMarker job ++ job.ending.marker.line

/-- Line feeds are the only line ends that are written. -/
theorem stderr_feeds {char : Char} (mem : char ∈ stderr job) (ends : isLineEnd char)
    : char = '\n' := by
  have marker := @whole_of_all job.ending.marker.line (by cases job.ending <;> rfl)
  have closed := @whole_of_all (closing job.ending) (by cases job.ending <;> rfl)
  rw [stderr_eq, List.mem_append, List.mem_append] at mem
  rcases mem with mem | mem | mem
  · obtain ⟨front, before, plain⟩ := beforeMarker_lines job
    rw [before, terminated, List.mem_flatMap] at mem
    obtain ⟨line, isLine, inside⟩ := mem
    rcases List.mem_append.mp inside with inside | feed
    · rw [(plain line isLine).whole char inside] at ends
      cases ends
    · exact List.mem_singleton.mp feed
  · rw [marker char mem] at ends
    cases ends
  · rcases List.mem_cons.mp mem with feed | mem
    · exact feed
    rcases List.mem_append.mp mem with mem | feed
    · rw [closed char mem] at ends
      cases ends
    · exact List.mem_singleton.mp feed

/-- They are the only ones in what is left of it, too. -/
theorem feeds_of_clip (clip : Clip (stderr job) limit kept broken) {char : Char}
    (mem : char ∈ kept ++ broken) (ends : isLineEnd char)
    : char = '\n' := by
  rcases List.mem_append.mp mem with mem | mem
  · exact stderr_feeds (clip.begins.subset mem) ends
  · rw [clip.replaced char mem] at ends
    exact absurd ends (by decide)

/-- Read far enough, the text has the whole marker line. -/
theorem reaches_of_clip (clip : Clip (stderr job) limit kept broken)
    (far : (utf8 (untilMarker job)).length ≤ limit)
    : ∃ behind, Closes behind
        ∧ kept ++ broken = beforeMarker job ++ (job.ending.marker.line ++ behind) := by
  have whole : stderr job = untilMarker job ++ behindMarker job := by
    rw [stderr_eq, untilMarker, List.append_assoc]
  obtain ⟨rest, rfl⟩ := clip.most _ (whole ▸ List.prefix_append _ _) far
  have follows : rest <+: behindMarker job := by
    have begins := clip.begins
    rw [whole] at begins
    exact (List.prefix_append_right_inj _).mp begins
  refine ⟨rest ++ broken, ?_, by simp only [untilMarker, List.append_assoc]⟩
  cases rest with
  | nil =>
      refine .inl ?_
      rw [List.append_nil] at clip
      rw [List.nil_append]
      by_contra some
      have next : untilMarker job ++ ['\n'] <+: stderr job := by
        rw [whole, List.prefix_append_right_inj]
        exact ⟨_, rfl⟩
      have feed : utf8 ['\n'] = [LF] := rfl
      have spare := clip.spare some
      have fit := clip.most _ next (by
        rw [utf8_append, List.length_append, feed]
        exact spare)
      have length := fit.length_le
      rw [List.length_append, List.length_singleton] at length
      omega
  | cons char rest =>
      obtain ⟨rfl, tail⟩ := List.cons_prefix_cons.mp follows
      refine .inr ⟨rest ++ broken, rfl, fun mem => ?_⟩
      have other : 'M' ∉ say (closing job.ending) := by
        cases job.ending <;> decide
      rcases List.mem_append.mp mem with mem | mem
      · exact other (tail.subset mem)
      · exact absurd (clip.replaced _ mem) (by decide)

/-- The markers that the fetch sees: the one of the job if it has read far enough, and no other. -/
theorem markers_fetched (clip : Clip (stderr job) limit kept broken)
    : (splitlines (kept ++ broken)).filter isMarker
      = if (utf8 (untilMarker job)).length ≤ limit then [job.ending.marker.line] else [] := by
  obtain ⟨front, before, plain⟩ := beforeMarker_lines job
  rw [splitlines_eq (fun _ mem => feeds_of_clip clip mem) (by decide)]
  split
  · rename_i far
    obtain ⟨behind, closes, whole⟩ := reaches_of_clip clip far
    rw [whole, before]
    exact markers_behind plain closes
  · rename_i short
    have untilLines : untilMarker job
        = terminated '\n' (headerLine job :: jobIdLine job :: front) ++ job.ending.marker.line := by
      rw [untilMarker, before]
    have begins : untilMarker job <+: stderr job := by
      rw [stderr_eq, untilMarker, List.prefix_append_right_inj]
      exact List.prefix_append _ _
    rcases List.prefix_or_prefix_of_prefix clip.begins begins with inside | beyond
    · refine markers_before plain clip.replaced (untilLines ▸ inside) fun same => short ?_
      rw [untilLines, ← same]
      exact clip.fits
    · obtain ⟨rest, whole⟩ := beyond
      have fits := clip.fits
      rw [← whole, utf8_append, List.length_append] at fits
      exact absurd (Nat.le_trans (Nat.le_add_right _ _) fits) short

/-- The id that the fetch finds is the one on the line of its own, the first of its kind. -/
theorem jobId_fetched (clip : Clip (stderr job) limit kept broken)
    (far : (utf8 (untilMarker job)).length ≤ limit)
    : (splitlines (kept ++ broken)).find? "JOB_ID=".toList.isPrefixOf = some (jobIdLine job) := by
  obtain ⟨front, before, plain⟩ := beforeMarker_lines job
  obtain ⟨behind, _, whole⟩ := reaches_of_clip clip far
  have header : "JOB_ID=".toList.isPrefixOf (headerLine job) = false := rfl
  have itself : "JOB_ID=".toList.isPrefixOf (jobIdLine job) = true :=
    List.isPrefixOf_iff_prefix.mpr (List.prefix_append _ _)
  rw [← List.head?_filter, splitlines_eq (fun _ mem => feeds_of_clip clip mem) (by decide),
    whole, before, splitOn_terminated_append fun line mem => (plain line mem).noFeed,
    List.cons_append, List.cons_append, List.filter_cons_of_neg (by rw [header]; decide),
    List.filter_cons_of_pos itself, List.head?_cons]

/-- The id is read back from its line. -/
theorem strip_jobId (job : EndedJob) : strip ((jobIdLine job).drop 7) = job.id := by
  have behind : (jobIdLine job).drop 7 = job.id := rfl
  have filled (char : Char) (mem : char ∈ job.id) : isSpace char = false :=
    isWordChar_filled (wordChar_id job mem)
  have trimmed : Trimmed isSpace job.id := {
    head := fun char first => filled char (List.mem_of_head? first),
    last := fun char last => filled char (List.mem_of_getLast? last) }
  rw [behind]
  exact trimmed.trim

/-- A line that is a marker is among the lines exactly if it is among those that are seen. -/
theorem contains_marker {lines seen : List Str} (sees : lines.filter isMarker = seen)
    (marker : Marker)
    : lines.contains marker.line = decide (marker.line ∈ seen) := by
  have itself : isMarker marker.line := isMarker_iff.mpr ⟨marker, rfl⟩
  rw [← sees, List.contains_eq_mem]
  simp only [List.mem_filter, itself, and_true]

/-- A limit behind the marker leaves the verdict of the job. -/
theorem remoteVerdict_far (clip : Clip (stderr job) limit kept broken)
    (far : (utf8 (untilMarker job)).length ≤ limit) (code : Int)
    : remoteVerdict false code (kept ++ broken) = ⟨some job.id, some .failed⟩ := by
  have sees := markers_fetched clip
  rw [if_pos far] at sees
  rw [remoteVerdict]
  simp only [contains_marker sees, jobId_fetched clip far, Option.map_some, strip_jobId]
  cases job.ending <;> rfl

end Fetch

-- What the phone reads

section Phone

variable {job : EndedJob}

def isMarkerBytes (line : Bytes) : Bool :=
  (MARKERS.map fun marker => utf8 marker.line).contains line

/-- Markers are told from their bytes. -/
theorem isMarkerBytes_utf8 (line : Str) : isMarkerBytes (utf8 line) = isMarker line := by
  rw [Bool.eq_iff_iff, isMarkerBytes, isMarker, List.contains_iff_mem, List.contains_iff_mem,
    List.mem_map, List.mem_map]
  exact exists_congr fun marker => and_congr_right fun _ =>
    ⟨utf8_injective, fun same => same ▸ rfl⟩

/-- The lines that `grep` sees are those that were printed. -/
theorem grepLines_stderr (job : EndedJob)
    : ∃ front, grepLines (utf8 (stderr job))
          = (headerLine job :: jobIdLine job :: front
              ++ [job.ending.marker.line, closing job.ending]).map utf8 ++ [[]]
        ∧ ∀ line ∈ headerLine job :: jobIdLine job :: front, Plain line := by
  obtain ⟨front, before, plain⟩ := beforeMarker_lines job
  refine ⟨front, ?_, plain⟩
  have whole : stderr job
      = terminated '\n' (headerLine job :: jobIdLine job :: front
          ++ [job.ending.marker.line, closing job.ending]) := by
    rw [stderr_eq, before, behindMarker, say, terminated, terminated, List.flatMap_append]
    simp
  have closed : '\n' ∉ closing job.ending := by
    cases job.ending <;> decide
  rw [grepLines, whole, splitOn_utf8_terminated]
  intro line mem
  rcases List.mem_append.mp mem with mem | mem
  · exact (plain line mem).noFeed
  · rcases List.mem_pair.mp mem with rfl | rfl
    · exact Marker.noFeed _
    · exact closed

/-- The phone sees the one marker of the job. -/
theorem markers_seen (job : EndedJob)
    : (grepLines (utf8 (stderr job))).filter isMarkerBytes = [utf8 job.ending.marker.line] := by
  obtain ⟨front, lines, plain⟩ := grepLines_stderr job
  have same : isMarkerBytes ∘ utf8 = isMarker := funext isMarkerBytes_utf8
  have none : (headerLine job :: jobIdLine job :: front).filter isMarker = [] :=
    List.filter_eq_nil_iff.mpr fun line mem => by
      rw [(plain line mem).not_isMarker]
      decide
  have last : [job.ending.marker.line, closing job.ending].filter isMarker
      = [job.ending.marker.line] := by
    cases job.ending <;> decide
  have empty : isMarkerBytes [] = false := isMarkerBytes_utf8 []
  rw [lines, List.filter_append, List.filter_map, same, List.filter_append, none, last,
    List.filter_cons_of_neg (by rw [empty]; decide)]
  rfl

/-- A line without a `J` has no id. -/
theorem jobIdIn_none {line : Bytes} (absent : UInt8.ofNat 'J'.toNat ∉ line)
    : jobIdIn line = none := by
  induction line with
  | nil => rfl
  | cons byte line ih =>
      rw [List.mem_cons, not_or] at absent
      rw [jobIdIn, if_neg, ih absent.2]
      intro begins
      obtain ⟨rest, whole⟩ := List.isPrefixOf_iff_prefix.mp begins
      have first := congrArg List.head? whole
      exact absent.1 (Option.some.inj first)

/-- There is no id in the header. -/
theorem jobIdIn_headerLine (job : EndedJob) : jobIdIn (utf8 (headerLine job)) = none := by
  refine jobIdIn_none fun mem => ?_
  rcases mem_headerLine ((ascii_mem_utf8 (by decide)).mp mem) with word | sign
  · exact isWordChar_lower word rfl
  · exact absurd sign (by decide)

/-- The bytes of an id are those that the phone takes for one. -/
theorem isIdByte_utf8 {job : EndedJob} {byte : UInt8} (mem : byte ∈ utf8 job.id)
    : isIdByte byte := by
  rw [utf8_ascii fun char isPart => isWordChar_low (wordChar_id job isPart)] at mem
  obtain ⟨char, isPart, rfl⟩ := List.mem_map.mp mem
  have uuid := job.uuid char isPart
  have low := isWordChar_low (wordChar_id job isPart)
  have value := @toNat_small char.toNat (by omega)
  simp only [isIdChar, Char.isDigit, Bool.or_eq_true, Bool.and_eq_true, decide_eq_true_eq] at uuid
  simp only [isIdByte, Bool.or_eq_true, Bool.and_eq_true, decide_eq_true_eq, UInt8.le_iff_toNat_le,
    value]
  rcases uuid with (digit | letter) | rfl
  · exact .inl (.inl digit)
  · exact .inl (.inr letter)
  · exact .inr rfl

/-- The id is in its line. -/
theorem jobIdIn_jobIdLine (job : EndedJob)
    : jobIdIn (utf8 (jobIdLine job)) = some (utf8 job.id) := by
  have line : utf8 (jobIdLine job) = JOB_ID ++ utf8 job.id := utf8_append _ _
  have begins : JOB_ID.isPrefixOf (utf8 (jobIdLine job)) :=
    List.isPrefixOf_iff_prefix.mpr (line ▸ List.prefix_append _ _)
  have first : utf8 (jobIdLine job) = 0x4A :: (utf8 (jobIdLine job)).tail := by
    rw [line]
    rfl
  rw [first, jobIdIn, ← first, if_pos begins, line, List.drop_left,
    List.takeWhile_eq_self_iff.mpr fun byte mem => isIdByte_utf8 mem]

/-- The phone finds the id. -/
theorem phoneJobId_eq (job : EndedJob) : phoneJobId (utf8 (stderr job)) = utf8 job.id := by
  obtain ⟨front, lines, _⟩ := grepLines_stderr job
  rw [phoneJobId, lines, List.map_append, List.append_assoc, List.map_cons, List.map_cons,
    List.cons_append, List.cons_append, List.findSome?_cons, jobIdIn_headerLine,
    List.findSome?_cons, jobIdIn_jobIdLine]
  rfl

/-- The phone tells of a failed job, whatever its agent has written. -/
theorem phoneAsk_eq (job : EndedJob) (recorded : Bytes → Bool)
    : phoneAsk recorded EXIT_CODE (utf8 (stderr job))
      = .factoryError EXIT_CODE
          ((utf8 (stderr job)).drop ((utf8 (stderr job)).length - 500)) := by
  have mem : utf8 job.ending.marker.line ∈ grepLines (utf8 (stderr job)) :=
    List.mem_of_mem_filter (markers_seen job ▸ List.mem_singleton_self _)
  have sees : decide (utf8 Marker.jobFailed.line ∈ grepLines (utf8 (stderr job)))
      || decide (utf8 Marker.jobDead.line ∈ grepLines (utf8 (stderr job))) := by
    rw [Bool.or_eq_true, decide_eq_true_eq, decide_eq_true_eq]
    cases ending : job.ending with
    | failed => exact .inl (by rwa [ending] at mem)
    | dead => exact .inr (by rwa [ending] at mem)
  rw [phoneAsk, if_neg (by decide), if_pos sees]

end Phone

-- Both readers

/-- Both readers see the marker and the id of the job, and nothing else for one, and report the job
as failed.
-/
structure Reported (job : EndedJob) (recorded : Bytes → Bool) (timedOut : Bool) (code : Int)
    (read : Str) : Prop where
  phoneMarkers
    : (grepLines (utf8 (stderr job))).filter isMarkerBytes = [utf8 job.ending.marker.line]
  phoneId : phoneJobId (utf8 (stderr job)) = utf8 job.id
  phoneFails
    : ∃ tail, phoneAsk recorded EXIT_CODE (utf8 (stderr job)) = .factoryError EXIT_CODE tail
  fetchMarkers : (splitlines read).filter isMarker = [job.ending.marker.line]
  fetchFails : remoteVerdict timedOut code read = ⟨some job.id, some .failed⟩

/-- A failed or dead job is reported as such by both readers exactly if the fetch has not waited in
vain and its reads have come, within the limit, to the end of the marker.
-/
theorem reported_iff (job : EndedJob) (recorded : Bytes → Bool) (timedOut : Bool) (code : Int)
    (reads : Reads (utf8 (stderr job)))
    : Reported job recorded timedOut code (drain DRAIN_LIMIT reads.chunks)
      ↔ timedOut = false ∧ (utf8 (untilMarker job)).length ≤ reads.reach := by
  obtain ⟨kept, broken, clip, read⟩ := exists_clip (stderr job) reads.reach
  rw [reads.drain_eq, read]
  constructor
  · intro reported
    have verdict := reported.fetchFails
    have markers := reported.fetchMarkers
    refine ⟨Bool.eq_false_iff.mpr fun late => ?_, ?_⟩
    · rw [late, remoteVerdict, if_pos rfl] at verdict
      have error : some DiscussError.timeout = some .failed := congrArg Fetched.error verdict
      cases error
    · by_contra short
      rw [markers_fetched clip, if_neg short] at markers
      cases markers
  · rintro ⟨rfl, far⟩
    have markers := markers_fetched clip
    rw [if_pos far] at markers
    exact {
      phoneMarkers := markers_seen job
      phoneId := phoneJobId_eq job
      phoneFails := ⟨_, phoneAsk_eq job recorded⟩
      fetchMarkers := markers
      fetchFails := remoteVerdict_far clip far code }

-- A long error

/-- A job whose agent fails with a text of such a length. -/
def longJob (length : Nat) : EndedJob where
  agent := "oracle".toList
  id := "0b8a7a86-5a6c-4a5c-8f55-2f4c1d0f9e11".toList
  ending := .failed
  attempts := [{ status := "failed".toList, text := some (List.replicate length 'x') }]
  registered := List.all_eq_true.mp rfl
  uuid := List.all_eq_true.mp rfl

/-- The reads of a stream byte by byte. -/
def bytewise (stream : Bytes) : Reads stream where
  chunks := stream.map fun byte => [byte]
  begins := by rw [← List.flatMap_def, List.flatMap_singleton']
  filled := by simp
  size := by simp

/-- A letter goes on the line. -/
theorem splitlinesFrom_inside (line rest : Str)
    : splitlinesFrom line ('x' :: rest) = splitlinesFrom (line ++ ['x']) rest := by
  rw [splitlinesFrom, if_neg (by decide)]
  rintro _ ⟨⟩

/-- So do any number of them, by induction on it. -/
theorem splitlinesFrom_replicate (line : Str) (filled : line ≠ []) (length : Nat)
    : splitlinesFrom line (List.replicate length 'x') = [line ++ List.replicate length 'x'] := by
  induction length generalizing line with
  | zero => simp [splitlinesFrom, filled]
  | succ length ih =>
      rw [List.replicate_succ, splitlinesFrom_inside, ih _ (by simp), List.append_assoc]
      rfl

/-- They stay as they are. -/
theorem markerSafe_replicate (length : Nat)
    : markerSafe (strip (List.replicate (length + 1) 'x')) = List.replicate (length + 1) 'x' := by
  have filled (char : Char) (mem : char ∈ List.replicate (length + 1) 'x')
      : isSpace char = false := by
    rw [List.eq_of_mem_replicate mem]
    decide
  have trimmed : Trimmed isSpace (List.replicate (length + 1) 'x') := {
    head := fun char first => filled char (List.mem_of_head? first),
    last := fun char last => filled char (List.mem_of_getLast? last) }
  have stripped : strip (List.replicate (length + 1) 'x') = List.replicate (length + 1) 'x' :=
    trimmed.trim
  have lines
      : splitlines (List.replicate (length + 1) 'x') = [List.replicate (length + 1) 'x'] := by
    rw [splitlines, List.replicate_succ, splitlinesFrom_inside,
      splitlinesFrom_replicate _ (by simp)]
    rfl
  have unmarked : ¬MXR.isPrefixOf (List.replicate (length + 1) 'x') := by
    rw [List.replicate_succ]
    exact Bool.false_ne_true
  rw [stripped, markerSafe, lines, List.map_singleton, if_neg unmarked, List.intercalate_singleton]

/-- The marker of a long job stands behind as many bytes. -/
theorem longJob_length (length : Nat)
    : length < (utf8 (untilMarker (longJob (length + 1)))).length := by
  have error
      : errorText (longJob (length + 1)).attempts = some (List.replicate (length + 1) 'x') := by
    have failed : (longJob (length + 1)).attempts
        = [⟨Ending.failed.status, some (List.replicate (length + 1) 'x')⟩] := rfl
    rw [failed, List.replicate_succ]
    simp [errorText]
  have ascii : utf8 (List.replicate (length + 1) 'x')
      = (List.replicate (length + 1) 'x').map fun char => UInt8.ofNat char.toNat :=
    utf8_ascii fun char mem => by
      rw [List.eq_of_mem_replicate mem]
      decide
  have bytes : (utf8 (List.replicate (length + 1) 'x')).length = length + 1 := by
    rw [ascii, List.length_map, List.length_replicate]
  rw [untilMarker, beforeMarker, error]
  simp only [markerSafe_replicate, say, utf8_append, List.length_append, bytes]
  omega

/-- A job whose agent has failed with a text of 32 KiB: the fetch takes it for an error of SSH. -/
theorem reported_fails_long
    : ¬ ∀ (job : EndedJob) (recorded : Bytes → Bool) (reads : Reads (utf8 (stderr job))),
          reads.chunks.flatten = utf8 (stderr job)
          → Reported job recorded false EXIT_CODE (drain DRAIN_LIMIT reads.chunks) := by
  intro claim
  have length := longJob_length DRAIN_LIMIT
  generalize longJob (DRAIN_LIMIT + 1) = job at length
  have reported := claim job (fun _ => true) (bytewise _) (by
    rw [bytewise, ← List.flatMap_def, List.flatMap_singleton'])
  have markers := reported.fetchMarkers
  obtain ⟨kept, broken, clip, read⟩ := exists_clip (stderr job) (bytewise (utf8 (stderr job))).reach
  rw [Reads.drain_eq, read, markers_fetched clip, if_neg] at markers
  · cases markers
  · exact fun far => absurd (Nat.le_trans far (Nat.min_le_left _ _)) (Nat.not_le_of_lt length)

end Cli

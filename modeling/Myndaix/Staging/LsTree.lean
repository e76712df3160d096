import Myndaix.Text.Encoding
import Myndaix.Text.Records

/-! The entries of a tree, read from `git ls-tree -r -z` while it prints them. The reader enforces
its caps on what it has so far, so the chunks in which the stream arrives may matter.
-/

namespace Staging

open Text

-- Records

abbrev Str :=
  List Char

structure Entry where
  mode : Str
  otype : Str
  sha : Str
  path : Str
deriving DecidableEq, Repr

def MAX_PATH_LEN : Nat := 8192

/-- Why a tree is refused. The undecodable one is a `UnicodeDecodeError`, any other a
`StagingError`.
-/
inductive Refusal where
  | unparseable (record : Bytes)
  | pathTooLong (path : Str)
  | undecodable
  | metadataCap (maxMeta : Nat)
  | fileCap (maxFiles : Nat)
  | recordTooLong
  | midRecord
  | exited (code : Int)
deriving DecidableEq, Repr

/-- `_parse_record`: mode, type, hash and path. -/
def parseRecord (record : Bytes) : Except Refusal Entry :=
  match cut '\t'.toUInt8 record with
  | none => .error (.unparseable record)
  | some (metaPart, pathBytes) =>
      match cut ' '.toUInt8 metaPart with
      | none => .error (.unparseable record)
      | some (mode, rest) =>
          match cut ' '.toUInt8 rest with
          | none => .error (.unparseable record)
          | some (otype, sha) =>
              match decodeUtf8 pathBytes with
              | none => .error (.unparseable record)
              | some path =>
                  if MAX_PATH_LEN < (utf8 path).length then .error (.pathTooLong path)
                  else
                    match decodeUtf8 mode, decodeUtf8 otype, decodeUtf8 sha with
                    | some mode, some otype, some sha =>
                        .ok { mode := mode, otype := otype, sha := sha, path := path }
                    | _, _, _ => .error .undecodable

-- The reader

/-- Take the complete records off the buffer. Each is at least one byte, so there are no more of
them than the buffer has bytes.
-/
def drain (maxFiles : Nat) : Nat → List Entry → Bytes → Except Refusal (List Entry × Bytes)
  | 0, entries, buf => .ok (entries, buf)
  | fuel + 1, entries, buf =>
      match cut 0 buf with
      | none => .ok (entries, buf)
      | some (record, rest) =>
          match parseRecord record with
          | .error refusal => .error refusal
          | .ok entry =>
              if maxFiles < (entries ++ [entry]).length then .error (.fileCap maxFiles)
              else drain maxFiles fuel (entries ++ [entry]) rest

/-- A record that is not complete may not be longer than this. -/
def MAX_RECORD_LEN : Nat := MAX_PATH_LEN + 512

/-- What follows every read: the complete records are taken off, and what is left may not be long.
-/
def absorb (maxFiles : Nat) (entries : List Entry) (buf : Bytes)
    : Except Refusal (List Entry × Bytes) :=
  match drain maxFiles buf.length entries buf with
  | .error refusal => .error refusal
  | .ok (entries, buf) =>
      if MAX_RECORD_LEN < buf.length then .error .recordTooLong else .ok (entries, buf)

/-- The reads of `_read_ls_tree_entries`, until one is empty. -/
def readChunks (maxFiles maxMeta : Nat)
    : Nat → List Entry → Bytes → List Bytes → Except Refusal (List Entry)
  | _, entries, buf, [] =>
      match absorb maxFiles entries buf with
      | .error refusal => .error refusal
      | .ok (entries, buf) => if buf.isEmpty then .ok entries else .error .midRecord
  | seen, entries, buf, chunk :: chunks =>
      if maxMeta < seen + chunk.length then .error (.metadataCap maxMeta)
      else
        match absorb maxFiles entries (buf ++ chunk) with
        | .error refusal => .error refusal
        | .ok (entries, buf) =>
            readChunks maxFiles maxMeta (seen + chunk.length) entries buf chunks

/-- `_read_ls_tree_entries`, of a git that prints these chunks in time and exits with this code. -/
def readLsTreeEntries (maxFiles maxMeta : Nat) (chunks : List Bytes) (exitCode : Int)
    : Except Refusal (List Entry) :=
  match readChunks maxFiles maxMeta 0 [] [] chunks with
  | .error refusal => .error refusal
  | .ok entries => if exitCode ≠ 0 then .error (.exited exitCode) else .ok entries

-- The whole stream

def parseAll (records : List Bytes) : Option (List Entry) :=
  records.mapM (fun record => (parseRecord record).toOption)

/-- What the stream says as a whole: every record is ended and parses, and neither the entries nor
the bytes are too many.
-/
def wholeEntries (maxFiles maxMeta : Nat) (stream : Bytes) : Option (List Entry) :=
  if maxMeta < stream.length || !(pending 0 stream).isEmpty then none
  else
    match parseAll (records 0 stream) with
    | none => none
    | some entries => if entries.length ≤ maxFiles then some entries else none

section Refinement

variable {maxFiles maxMeta seen fuel : Nat} {entries : List Entry} {buf chunk stream : Bytes}
  {chunks : List Bytes}

theorem parseAll_cons (record : Bytes) (rest : List Bytes)
    : parseAll (record :: rest)
      = (parseRecord record).toOption.bind (fun entry =>
          (parseAll rest).map (fun entries => entry :: entries)) := by
  unfold parseAll
  rw [List.mapM_cons]
  cases (parseRecord record).toOption with
  | none => rfl
  | some entry =>
      cases List.mapM (fun record => (parseRecord record).toOption) rest <;> rfl

theorem parseAll_append (front back : List Bytes)
    : parseAll (front ++ back)
      = (parseAll front).bind (fun entries =>
          (parseAll back).map (fun more => entries ++ more)) := by
  induction front with
  | nil => cases h : parseAll back <;> simp [parseAll] at h ⊢ <;> simp [h]
  | cons record rest ih =>
      rw [List.cons_append, parseAll_cons, parseAll_cons, ih]
      cases (parseRecord record).toOption with
      | none => rfl
      | some entry =>
          cases parseAll rest with
          | none => rfl
          | some entries => cases parseAll back <;> rfl

/-- A buffer without a complete record is what draining leaves of it. -/
theorem drained_clean (absent : (0 : UInt8) ∉ buf) (below : entries.length ≤ maxFiles)
    : some (entries, buf)
      = (parseAll (records 0 buf)).bind (fun more =>
          if entries.length + more.length ≤ maxFiles then
            some (entries ++ more, pending 0 buf)
          else none) := by
  rw [records_of_not_mem absent, pending_of_not_mem absent]
  simp [parseAll, below]

/-- Draining parses the complete records, up to the cap on entries, and leaves the rest; by
induction on the bound, which the buffer's length does not exceed.
-/
theorem drain_spec (enough : buf.length ≤ fuel) (below : entries.length ≤ maxFiles)
    : (drain maxFiles fuel entries buf).toOption
      = (parseAll (records 0 buf)).bind (fun more =>
          if entries.length + more.length ≤ maxFiles then
            some (entries ++ more, pending 0 buf)
          else none) := by
  induction fuel generalizing entries buf with
  | zero =>
      refine drained_clean ?_ below
      rw [List.eq_nil_of_length_eq_zero (Nat.le_zero.mp enough)]
      exact List.not_mem_nil
  | succ fuel ih =>
      unfold drain
      cases found : cut 0 buf with
      | none => exact drained_clean (cut_none found) below
      | some split =>
          obtain ⟨record, rest⟩ := split
          obtain ⟨more, left⟩ := records_cut found
          rw [more, left, parseAll_cons]
          dsimp only
          cases parsed : parseRecord record with
          | error refusal => rfl
          | ok entry =>
              have shorter : rest.length ≤ fuel := by
                have whole := congrArg List.length (cut_some found).1
                rw [List.length_append, List.length_cons] at whole
                omega
              dsimp only
              split
              · rename_i many
                rw [List.length_append, List.length_singleton] at many
                cases parseAll (records 0 rest) with
                | none => rfl
                | some others =>
                    simp only [Except.toOption, Option.bind_some, Option.map_some, List.length_cons]
                    rw [if_neg (by omega)]
              · rename_i fits
                rw [ih shorter (Nat.le_of_not_lt fits)]
                cases parseAll (records 0 rest) with
                | none => rfl
                | some others =>
                    simp only [Except.toOption, Option.bind_some, Option.map_some,
                      List.length_cons, List.length_append, List.length_nil, Nat.zero_add,
                      List.append_assoc, List.singleton_append, Nat.add_assoc,
                      Nat.add_comm 1 others.length]

/-- The buffered part of a record is short enough at the end of every chunk. -/
def Bounded (stream : Bytes) (chunks : List Bytes) : Prop :=
  ∀ read, read <+: chunks → (pending 0 (stream ++ read.flatten)).length ≤ MAX_RECORD_LEN

/-- The reader's state after a stream: every complete record is an entry, and the rest is buffered.
-/
structure Reading (maxFiles maxMeta : Nat) (stream : Bytes) (seen : Nat) (entries : List Entry)
    (buf : Bytes)
    : Prop where
  counted : seen = stream.length
  fits : stream.length ≤ maxMeta
  parsed : parseAll (records 0 stream) = some entries
  few : entries.length ≤ maxFiles
  left : buf = pending 0 stream
  short : buf.length ≤ MAX_RECORD_LEN

/-- What a chunk does to the state; it fails where the whole stream so far fails, or where too much
of a record is left.
-/
theorem Reading.absorb (reading : Reading maxFiles maxMeta stream seen entries buf)
    : (absorb maxFiles entries (buf ++ chunk)).toOption
      = (parseAll (records 0 (stream ++ chunk))).bind (fun all =>
          if all.length ≤ maxFiles
              ∧ (pending 0 (stream ++ chunk)).length ≤ MAX_RECORD_LEN then
            some (all, pending 0 (stream ++ chunk))
          else none) := by
  have drained := @drain_spec maxFiles (buf ++ chunk).length entries (buf ++ chunk) (Nat.le_refl _)
    reading.few
  rw [records_append, pending_append, ← reading.left, parseAll_append, reading.parsed,
    Option.bind_some]
  unfold Staging.absorb
  cases result : drain maxFiles (buf ++ chunk).length entries (buf ++ chunk) with
  | error refusal =>
      rw [result] at drained
      cases all : parseAll (records 0 (buf ++ chunk)) with
      | none => rfl
      | some more =>
          rw [all, Option.bind_some] at drained
          split at drained
          · cases drained
          · rename_i many
            rw [Option.map_some, Option.bind_some, List.length_append,
              if_neg fun both => many both.1]
            rfl
  | ok state =>
      rw [result] at drained
      cases all : parseAll (records 0 (buf ++ chunk)) with
      | none =>
          rw [all] at drained
          cases drained
      | some more =>
          rw [all, Option.bind_some] at drained
          split at drained
          · rename_i few
            cases drained
            rw [Option.map_some, Option.bind_some, List.length_append]
            dsimp only
            split
            · rename_i long
              rw [if_neg fun both => Nat.not_lt.mpr both.2 long]
              rfl
            · rename_i short
              rw [if_pos ⟨few, Nat.le_of_not_lt short⟩]
              rfl
          · cases drained

theorem wholeEntries_some
    : wholeEntries maxFiles maxMeta stream = some entries
      ↔ stream.length ≤ maxMeta
        ∧ pending 0 stream = []
        ∧ parseAll (records 0 stream) = some entries
        ∧ entries.length ≤ maxFiles := by
  unfold wholeEntries
  cases parseAll (records 0 stream) with
  | none => simp
  | some all =>
      constructor
      · intro accepted
        split at accepted
        · cases accepted
        · rename_i fits
          dsimp only at accepted
          split at accepted
          · rename_i few
            cases accepted
            simp only [Bool.or_eq_true, decide_eq_true_eq, Bool.not_eq_true', not_or, Nat.not_lt,
              Bool.not_eq_false, List.isEmpty_iff] at fits
            exact ⟨fits.1, fits.2, rfl, few⟩
          · cases accepted
      · rintro ⟨fits, ended, same, few⟩
        cases same
        rw [if_neg (by simp [ended, fits])]
        exact if_pos few

/-- The records of the begin of a stream are parsed with it. -/
theorem parseAll_begin {all : List Entry} {back : Bytes}
    (parsed : parseAll (records 0 (stream ++ back)) = some all)
    : ∃ front, parseAll (records 0 stream) = some front ∧ front.length ≤ all.length := by
  rw [records_append, parseAll_append] at parsed
  obtain ⟨front, isFront, rest⟩ := Option.bind_eq_some_iff.mp parsed
  obtain ⟨more, _, rfl⟩ := Option.map_eq_some_iff.mp rest
  exact ⟨front, isFront, by simp⟩

/-- From any state the reader accepts what the whole stream says if no chunk leaves too much of a
record, and nothing else; by induction on the chunks.
-/
theorem Reading.readChunks {all : List Entry}
    (reading : Reading maxFiles maxMeta stream seen entries buf)
    : (readChunks maxFiles maxMeta seen entries buf chunks).toOption = some all
      ↔ Bounded stream chunks
        ∧ wholeEntries maxFiles maxMeta (stream ++ chunks.flatten) = some all := by
  induction chunks generalizing stream seen entries buf with
  | nil =>
      have absorbed := @Reading.absorb _ _ _ _ _ [] _ reading
      rw [List.append_nil, List.append_nil, reading.parsed, Option.bind_some,
        if_pos ⟨reading.few, reading.left ▸ reading.short⟩] at absorbed
      have bounded : Bounded stream [] := by
        intro read prefix_
        rw [List.prefix_nil.mp prefix_, List.flatten_nil, List.append_nil, ← reading.left]
        exact reading.short
      rw [List.flatten_nil, List.append_nil, wholeEntries_some, reading.parsed]
      unfold Staging.readChunks
      cases result : Staging.absorb maxFiles entries buf with
      | error refusal =>
          rw [result] at absorbed
          cases absorbed
      | ok state =>
          rw [result] at absorbed
          cases absorbed
          dsimp only
          split
          · rename_i ended
            simp only [Except.toOption, Option.some.injEq]
            exact ⟨fun same =>
                ⟨bounded, reading.fits, List.isEmpty_iff.mp ended, same, same ▸ reading.few⟩,
              fun accepted => accepted.2.2.2.1⟩
          · rename_i unended
            exact ⟨nofun, fun accepted => absurd (List.isEmpty_iff.mpr accepted.2.2.1) unended⟩
  | cons chunk chunks ih =>
      have absorbed := @Reading.absorb _ _ _ _ _ chunk _ reading
      have flat : stream ++ (chunk :: chunks).flatten = (stream ++ chunk) ++ chunks.flatten := by
        rw [List.flatten_cons, List.append_assoc]
      rw [flat]
      have onward
          : Bounded stream (chunk :: chunks)
            ↔ Bounded (stream ++ chunk) chunks := by
        constructor
        · intro bounded read prefix_
          have later := bounded (chunk :: read) (List.cons_prefix_cons.mpr ⟨rfl, prefix_⟩)
          rwa [List.flatten_cons, ← List.append_assoc] at later
        · intro bounded read prefix_
          cases read with
          | nil =>
              rw [List.flatten_nil, List.append_nil, ← reading.left]
              exact reading.short
          | cons first read =>
              obtain ⟨rfl, rest⟩ := List.cons_prefix_cons.mp prefix_
              rw [List.flatten_cons, ← List.append_assoc]
              exact bounded read rest
      have here (bounded : Bounded (stream ++ chunk) chunks)
          : (pending 0 (stream ++ chunk)).length ≤ MAX_RECORD_LEN := by
        have now := bounded [] List.nil_prefix
        rwa [List.flatten_nil, List.append_nil] at now
      rw [onward]
      unfold Staging.readChunks
      split
      · rename_i big
        refine ⟨nofun, fun accepted => ?_⟩
        have fits := (wholeEntries_some.mp accepted.2).1
        rw [List.length_append, List.length_append] at fits
        rw [reading.counted] at big
        omega
      · rename_i fits
        cases result : Staging.absorb maxFiles entries (buf ++ chunk) with
        | error refusal =>
            rw [result] at absorbed
            refine ⟨nofun, fun accepted => ?_⟩
            obtain ⟨_, _, parsed, few⟩ := wholeEntries_some.mp accepted.2
            obtain ⟨front, isFront, fewer⟩ := parseAll_begin parsed
            rw [isFront, Option.bind_some,
              if_pos ⟨Nat.le_trans fewer few, here accepted.1⟩] at absorbed
            cases absorbed
        | ok state =>
            rw [result] at absorbed
            obtain ⟨front, isFront, kept⟩ := Option.bind_eq_some_iff.mp absorbed.symm
            split at kept
            · rename_i within
              cases kept
              refine ih
                {
                  counted := ?_
                  fits := ?_
                  parsed := isFront
                  few := within.1
                  left := rfl
                  short := within.2
                }
              · rw [reading.counted, List.length_append]
              · rw [List.length_append, ← reading.counted]
                exact Nat.le_of_not_lt fits
            · cases kept

theorem readLsTreeEntries_accepts {all : List Entry}
    : (readLsTreeEntries maxFiles maxMeta chunks 0).toOption = some all
      ↔ Bounded [] chunks ∧ wholeEntries maxFiles maxMeta chunks.flatten = some all := by
  have start : Reading maxFiles maxMeta [] 0 [] [] :=
    ⟨rfl, Nat.zero_le _, rfl, Nat.zero_le _, rfl, Nat.zero_le _⟩
  have accepts := @Reading.readChunks _ _ _ _ _ _ chunks all start
  rw [List.nil_append] at accepts
  rw [← accepts]
  unfold readLsTreeEntries
  cases Staging.readChunks maxFiles maxMeta 0 [] [] chunks with
  | error refusal => exact Iff.rfl
  | ok entries => exact Iff.rfl

/-- A stream of short records is never buffered for too long, however it is cut. -/
theorem bounded_of_short
    (short : ∀ record ∈ chunks.flatten.splitOn 0, record.length ≤ MAX_RECORD_LEN)
    : Bounded [] chunks := by
  rintro read ⟨rest, rfl⟩
  obtain ⟨record, mem, begins⟩ := pending_begins 0 read.flatten rest.flatten
  rw [← List.flatten_append] at mem
  exact Nat.le_trans begins.length_le (short record mem)

end Refinement

/-- However a stream is cut into chunks, it is accepted, and with the same entries, exactly if the
whole stream is and no chunk ends with more than the cap of a record that is not complete; that is
so for every cut of a stream of records within the cap. A stream that ends inside a record is
refused.
-/
theorem chunks_refine_whole (maxFiles maxMeta : Nat) (chunks : List Bytes)
    : (∀ entries,
        (readLsTreeEntries maxFiles maxMeta chunks 0).toOption = some entries
        ↔ Bounded [] chunks ∧ wholeEntries maxFiles maxMeta chunks.flatten = some entries)
      ∧ ((∀ record ∈ chunks.flatten.splitOn 0, record.length ≤ MAX_RECORD_LEN)
        → (readLsTreeEntries maxFiles maxMeta chunks 0).toOption
          = wholeEntries maxFiles maxMeta chunks.flatten)
      ∧ (pending 0 chunks.flatten ≠ []
        → (readLsTreeEntries maxFiles maxMeta chunks 0).toOption = none) := by
  refine ⟨fun entries => readLsTreeEntries_accepts, fun short => ?_, fun unended => ?_⟩
  · refine Option.ext fun entries => ?_
    exact readLsTreeEntries_accepts.trans (and_iff_right (bounded_of_short short))
  · refine Option.eq_none_iff_forall_ne_some.mpr fun entries accepted => ?_
    have whole := (readLsTreeEntries_accepts.mp accepted).2
    exact unended (wholeEntries_some.mp whole).2.1

/-- A record as git prints it. -/
def sampleRecord : Bytes :=
  ascii "100644 blob 0a\tREADME" ++ [0]

/-- Two cuts of a record, one of them inside its path. -/
theorem chunks_refine_whole_sample
    : (readLsTreeEntries 1 100 [sampleRecord] 0).toOption
        = (readLsTreeEntries 1 100 [sampleRecord.take 18, sampleRecord.drop 18] 0).toOption
      ∧ (readLsTreeEntries 1 100 [sampleRecord.take 18] 0).toOption = none := by
  have short : ∀ record ∈ sampleRecord.splitOn 0, record.length ≤ MAX_RECORD_LEN := by
    decide +kernel
  refine ⟨?_, (chunks_refine_whole 1 100 [sampleRecord.take 18]).2.2 (by decide +kernel)⟩
  rw [(chunks_refine_whole 1 100 [sampleRecord]).2.1 (by simpa using short),
    (chunks_refine_whole 1 100 [sampleRecord.take 18, sampleRecord.drop 18]).2.1
      (by simpa using short)]
  simp

/-- A mode that is one byte longer than a record may be that is not complete. -/
def longMode : Bytes :=
  List.replicate (MAX_RECORD_LEN + 1) 97

def longRest : Bytes :=
  ascii " b c\tp" ++ [0]

theorem utf8_replicate (count : Nat)
    : utf8 (List.replicate count 'a') = List.replicate count 97 := by
  induction count with
  | zero => rfl
  | succ count ih =>
      rw [List.replicate_succ, utf8_cons, ih, utf8EncodeChar_low (by decide)]
      rfl

theorem parseRecord_long (count : Nat)
    : parseRecord (List.replicate count 97 ++ ascii " b c\tp")
      = .ok { mode := List.replicate count 'a', otype := ['b'], sha := ['c'], path := ['p'] } := by
  have absent (byte : UInt8) (other : byte ≠ 97) (tail : Bytes) (outside : byte ∉ tail)
      : byte ∉ List.replicate count 97 ++ tail := by
    intro mem
    exact (List.mem_append.mp mem).elim (fun inside => other (List.eq_of_mem_replicate inside))
      outside
  have tab
      : cut '\t'.toUInt8 (List.replicate count 97 ++ ascii " b c\tp")
        = some (List.replicate count 97 ++ ascii " b c", ascii "p") := by
    have split := cut_of_not_mem
      (absent '\t'.toUInt8 (by decide) (ascii " b c") (by decide)) (ascii "p")
    rwa [List.append_assoc] at split
  have mode
      : cut ' '.toUInt8 (List.replicate count 97 ++ ascii " b c")
        = some (List.replicate count 97, ascii "b c") := by
    have split := cut_of_not_mem (absent ' '.toUInt8 (by decide) [] (by decide)) (ascii "b c")
    rwa [List.append_nil] at split
  have decoded : decodeUtf8 (List.replicate count 97) = some (List.replicate count 'a') := by
    rw [← utf8_replicate]
    exact decodeUtf8_utf8 _
  have one (char : Char) (low : char.toNat ≤ 0x7F)
      : decodeUtf8 [char.toNat.toUInt8] = some [char] := by
    have whole := decodeUtf8_utf8 [char]
    rw [utf8_cons, utf8EncodeChar_low low] at whole
    exact whole
  have otype : cut ' '.toUInt8 (ascii "b c") = some (ascii "b", ascii "c") := by decide
  unfold parseRecord
  rw [tab]
  dsimp only
  rw [mode]
  dsimp only
  rw [otype]
  dsimp only
  have b : decodeUtf8 (ascii "b") = some ['b'] := one 'b' (by decide)
  have c : decodeUtf8 (ascii "c") = some ['c'] := one 'c' (by decide)
  have p : decodeUtf8 (ascii "p") = some ['p'] := one 'p' (by decide)
  rw [decoded, b, c, p]
  dsimp only
  rw [if_neg (by rw [utf8_cons, utf8EncodeChar_low (by decide)]; decide)]

/-- One stream, accepted in one chunk and refused in two. -/
theorem cut_decides
    : (readLsTreeEntries 1 100000 [longMode ++ longRest] 0).toOption
        = some
            [
              {
                mode := List.replicate (MAX_RECORD_LEN + 1) 'a'
                otype := ['b']
                sha := ['c']
                path := ['p']
              }
            ]
      ∧ (readLsTreeEntries 1 100000 [longMode, longRest] 0).toOption = none := by
  have clean : (0 : UInt8) ∉ longMode := fun mem =>
    absurd (List.eq_of_mem_replicate mem) (by decide)
  have whole : cut 0 (longMode ++ longRest) = some (longMode ++ ascii " b c\tp", []) := by
    have inside : (0 : UInt8) ∉ longMode ++ ascii " b c\tp" := fun mem =>
      (List.mem_append.mp mem).elim clean (by decide)
    have split := cut_of_not_mem inside []
    rwa [List.append_assoc] at split
  obtain ⟨isRecords, isPending⟩ := records_cut whole
  have length : longMode.length = MAX_RECORD_LEN + 1 := List.length_replicate
  constructor
  · refine readLsTreeEntries_accepts.mpr ⟨?_, ?_⟩
    · intro read prefix_
      cases read with
      | nil => exact Nat.zero_le _
      | cons first read =>
          obtain ⟨rfl, rest⟩ := List.cons_prefix_cons.mp prefix_
          rw [List.prefix_nil.mp rest, List.nil_append, List.flatten_cons, List.flatten_nil,
            List.append_nil, isPending]
          exact Nat.zero_le _
    · rw [List.flatten_cons, List.flatten_nil, List.append_nil]
      refine wholeEntries_some.mpr ⟨?_, isPending, ?_, Nat.le_refl _⟩
      · rw [List.length_append, length]
        decide
      · rw [isRecords, parseAll_cons, longMode, parseRecord_long]
        simp [Except.toOption, parseAll, records]
  · refine Option.eq_none_iff_forall_ne_some.mpr fun entries accepted => ?_
    have bounded := (readLsTreeEntries_accepts.mp accepted).1 [longMode] ⟨[longRest], rfl⟩
    rw [List.nil_append, List.flatten_cons, List.flatten_nil, List.append_nil,
      pending_of_not_mem clean, length] at bounded
    exact Nat.not_succ_le_self _ bounded

end Staging

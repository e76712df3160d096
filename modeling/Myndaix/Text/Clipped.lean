import Myndaix.Text.Decoding

/-! What is read of a text whose bytes are cut off somewhere: whole characters from its begin, and a
replacement character for one that has been cut. Lines are the same in a text and in its bytes.
-/

namespace Text

section Clipped

variable {pending : Pending} {bytes : Bytes} {value : Nat}

/-- A character that is begun and not completed gives one replacement character; by induction on
what completes it.
-/
theorem decodeFrom_incomplete (completes : pending.Completes bytes value) {count : Nat}
    (few : count < bytes.length)
    : decodeFrom (some pending) (bytes.take count) = [replacement] := by
  induction completes generalizing count with
  | last owed fits =>
      obtain rfl : count = 0 := by simpa using few
      rfl
  | more owed fits _ ih =>
      cases count with
      | zero => rfl
      | succ count =>
          rw [List.take_succ_cons, decodeFrom, advance, if_pos fits, if_neg owed]
          exact ih (Nat.lt_of_succ_lt_succ few)

theorem decodeFrom_part (char : Char) {count : Nat}
    (few : count < (String.utf8EncodeChar char).length)
    : decodeFrom none ((String.utf8EncodeChar char).take count) = []
      ∨ decodeFrom none ((String.utf8EncodeChar char).take count) = [replacement] := by
  cases count with
  | zero => exact .inl rfl
  | succ count =>
      by_cases low : char.toNat ≤ 0x7F
      · rw [utf8EncodeChar_low low] at few
        exact absurd few (by simp)
      · have valid : char.toNat < 0xD800 ∨ 0xDFFF < char.toNat ∧ char.toNat < 0x110000 := char.valid
        obtain ⟨byte, pending, bytes, begins, completes⟩ := completes_exists (by omega) valid
        have encoded := encode_completed begins completes
        rw [Char.ofNat_toNat] at encoded
        rw [encoded] at few ⊢
        rw [List.take_succ_cons, decodeFrom_begins begins]
        exact .inr (decodeFrom_incomplete completes (Nat.lt_of_succ_lt_succ few))

end Clipped

theorem characters_ofChar (char : Char) (points : Points)
    : characters (Fin.ofNat _ char.toNat :: points) = char :: characters points := by
  have valid : char.toNat < 0xD800 ∨ 0xDFFF < char.toNat ∧ char.toNat < 0x110000 := char.valid
  rw [characters, List.map_cons, val_ofNat (by omega), Char.ofNat_toNat]
  rfl

/-- A text is read back in front of whatever bytes; by induction on the text. -/
theorem characters_decodeReplacing_append (text : List Char) (rest : Bytes)
    : characters (decodeReplacing (utf8 text ++ rest))
      = text ++ characters (decodeReplacing rest) := by
  rw [decodeReplacing, decodeReplacing]
  induction text with
  | nil => rfl
  | cons char text ih =>
      rw [utf8_cons, List.append_assoc, decodeFrom_encoded, characters_ofChar, ih, List.cons_append]

theorem characters_decodeReplacing_cons {byte : UInt8} (low : byte.toNat ≤ 0x7F) (rest : Bytes)
    : characters (decodeReplacing (byte :: rest))
      = Char.ofNat byte.toNat :: characters (decodeReplacing rest) := by
  rw [decodeReplacing, decodeFrom_ascii low, characters, List.map_cons, val_ofNat (by omega)]
  rfl

/-- What is decoded of the first bytes of a text: the characters that fit, and at most one
replacement character behind them.
-/
structure Clip (text : List Char) (limit : Nat) (kept broken : List Char) : Prop where
  begins : kept <+: text
  fits : (utf8 kept).length ≤ limit
  most : ∀ front, front <+: text → (utf8 front).length ≤ limit → front <+: kept
  spare : broken ≠ [] → (utf8 kept).length < limit
  replaced : ∀ char ∈ broken, char = '\uFFFD'

/-- By induction on the text. -/
theorem exists_clip (text : List Char) (limit : Nat)
    : ∃ kept broken, Clip text limit kept broken
        ∧ characters (decodeReplacing ((utf8 text).take limit)) = kept ++ broken := by
  rw [decodeReplacing]
  induction text generalizing limit with
  | nil =>
      have empty : utf8 [] = [] := rfl
      rw [empty, List.take_nil]
      refine ⟨[], [], ?_, rfl⟩
      exact {
        begins := List.nil_prefix, fits := Nat.zero_le _, most := fun _ begins _ => begins,
        spare := fun some => absurd rfl some,
        replaced := fun _ mem => absurd mem List.not_mem_nil }
  | cons char text ih =>
      rw [utf8_cons]
      by_cases room : (String.utf8EncodeChar char).length ≤ limit
      · obtain ⟨kept, broken, clip, whole⟩ := ih (limit - (String.utf8EncodeChar char).length)
        have fits := clip.fits
        rw [List.take_append, List.take_of_length_le room, decodeFrom_encoded, characters_ofChar,
          whole]
        refine ⟨char :: kept, broken, {
          begins := List.cons_prefix_cons.mpr ⟨rfl, clip.begins⟩,
          fits := ?_, most := ?_, spare := ?_, replaced := clip.replaced }, rfl⟩
        · rw [utf8_cons, List.length_append]
          omega
        · intro front begins fit
          cases front with
          | nil => exact List.nil_prefix
          | cons first front =>
              obtain ⟨rfl, behind⟩ := List.cons_prefix_cons.mp begins
              rw [utf8_cons, List.length_append] at fit
              exact List.cons_prefix_cons.mpr ⟨rfl, clip.most front behind (by omega)⟩
        · intro some
          have spare := clip.spare some
          rw [utf8_cons, List.length_append]
          omega
      · have few := Nat.lt_of_not_le room
        rw [List.take_append_of_le_length (Nat.le_of_lt few)]
        have most (front : List Char) (begins : front <+: char :: text)
            (fit : (utf8 front).length ≤ limit) : front <+: [] := by
          cases front with
          | nil => exact List.nil_prefix
          | cons first front =>
              obtain ⟨rfl, _⟩ := List.cons_prefix_cons.mp begins
              rw [utf8_cons, List.length_append] at fit
              omega
        rcases decodeFrom_part char few with none | one
        · refine ⟨[], [], ?_, by rw [none]; rfl⟩
          exact {
            begins := List.nil_prefix, fits := Nat.zero_le _, most := most,
            spare := fun some => absurd rfl some,
            replaced := fun _ mem => absurd mem List.not_mem_nil }
        · have filled : limit ≠ 0 := by
            rintro rfl
            cases one
          refine ⟨[], ['\uFFFD'], ?_, by rw [one]; rfl⟩
          exact {
            begins := List.nil_prefix, fits := Nat.zero_le _, most := most,
            spare := fun _ => Nat.pos_of_ne_zero filled,
            replaced := fun _ mem => List.mem_singleton.mp mem }

-- Lines in bytes

/-- The line feed. -/
def LF : UInt8 := 10

/-- An ASCII character is in a text exactly if its byte is in the text's bytes; by induction on the
text.
-/
theorem ascii_mem_utf8 {text : List Char} {char : Char} (low : char.toNat ≤ 0x7F)
    : UInt8.ofNat char.toNat ∈ utf8 text ↔ char ∈ text := by
  induction text with
  | nil => exact iff_of_false nofun nofun
  | cons first text ih =>
      rw [utf8_cons, List.mem_append, List.mem_cons, ih]
      refine or_congr_left ?_
      by_cases firstLow : first.toNat ≤ 0x7F
      · rw [utf8EncodeChar_low firstLow, List.mem_singleton]
        constructor
        · intro same
          have value := congrArg UInt8.toNat same
          rw [toNat_small (by omega), toNat_small (by omega)] at value
          exact Char.ext (UInt32.toNat_inj.mp value)
        · rintro rfl
          rfl
      · refine iff_of_false (fun mem => ?_) ?_
        · have high := utf8EncodeChar_high (by omega) _ mem
          rw [toNat_small (by omega)] at high
          omega
        · rintro rfl
          exact firstLow low

theorem lf_mem_utf8 {text : List Char} : LF ∈ utf8 text ↔ '\n' ∈ text :=
  @ascii_mem_utf8 text '\n' (by decide)

/-- The bytes of an ASCII text are its characters. -/
theorem utf8_ascii {text : List Char} (low : ∀ char ∈ text, char.toNat ≤ 0x7F)
    : utf8 text = text.map fun char => UInt8.ofNat char.toNat := by
  induction text with
  | nil => rfl
  | cons char text ih =>
      rw [utf8_cons, utf8EncodeChar_low (low char List.mem_cons_self), List.map_cons,
        ih fun other mem => low other (List.mem_cons_of_mem _ mem)]
      rfl

theorem utf8_terminated (lines : List (List Char))
    : utf8 (terminated '\n' lines) = terminated LF (lines.map utf8) := by
  induction lines with
  | nil => rfl
  | cons line lines ih =>
      have separator : utf8 ['\n'] = [LF] := rfl
      simp only [terminated] at ih ⊢
      rw [List.flatMap_cons, utf8_append, utf8_append, ih, separator, List.map_cons,
        List.flatMap_cons]

/-- A line feed is one in whatever state the decoder meets it, and leaves it between two characters;
by induction on the bytes before it.
-/
theorem decodeFrom_feed {state : Option Pending} (sound : Sound state) (front back : Bytes)
    : decodeFrom state (front ++ LF :: back)
      = decodeFrom state front ++ Fin.ofNat _ LF.toNat :: decodeFrom none back := by
  induction front generalizing state with
  | nil =>
      cases state with
      | none => exact decodeFrom_ascii (by decide) back
      | some pending =>
          have bound := (sound pending rfl).bounds.1
          have outside : ¬(pending.low ≤ LF.toNat ∧ LF.toNat ≤ pending.high) := by
            have feed : LF.toNat = 10 := rfl
            omega
          have step : advance (some pending) LF.toNat
              = (replacement :: (start LF.toNat).1, (start LF.toNat).2) := by
            rw [advance, if_neg outside]
          change (advance (some pending) LF.toNat).1
            ++ decodeFrom (advance (some pending) LF.toNat).2 back = _
          rw [step]
          rfl
  | cons byte front ih =>
      rw [List.cons_append, decodeFrom, decodeFrom, ih (advance_gives sound byte.toNat).2,
        List.append_assoc]

theorem characters_decodeReplacing_feed (front back : Bytes)
    : characters (decodeReplacing (front ++ LF :: back))
      = characters (decodeReplacing front) ++ '\n' :: characters (decodeReplacing back) := by
  have sound : Sound none := fun _ begun => absurd begun (by simp)
  rw [decodeReplacing, decodeFrom_feed sound, characters, List.map_append, List.map_cons]
  rfl

theorem characters_decodeReplacing_terminated (lines : List Bytes)
    : characters (decodeReplacing (terminated LF lines))
      = terminated '\n' (lines.map fun line => characters (decodeReplacing line)) := by
  induction lines with
  | nil => rfl
  | cons line lines ih =>
      have split : terminated LF (line :: lines) = line ++ LF :: terminated LF lines := by
        simp [terminated]
      rw [split, characters_decodeReplacing_feed, ih]
      simp [terminated]

/-- The lines of a text in its bytes. -/
theorem splitOn_utf8_terminated {lines : List (List Char)} (clean : ∀ line ∈ lines, '\n' ∉ line)
    : (utf8 (terminated '\n' lines)).splitOn LF = lines.map utf8 ++ [[]] := by
  rw [utf8_terminated]
  refine splitOn_terminated fun part mem => ?_
  obtain ⟨line, isLine, rfl⟩ := List.mem_map.mp mem
  exact fun feed => clean line isLine (lf_mem_utf8.mp feed)

end Text

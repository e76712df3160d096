import Myndaix.Text.Encoding
import Myndaix.Text.Unicode

/-! What the replacing decoder does to bytes that are UTF-8 and to those that are not: it reads
every encoded text back, and where it replaces nothing the text encodes to the bytes.
-/

namespace Text

/-- The characters of a text without surrogates. -/
def characters (points : Points) : List Char :=
  points.map (fun point => Char.ofNat point.val)

-- The rest of a character

/-- The bytes that complete a begun character, with its code point. -/
inductive Pending.Completes : Pending → Bytes → Nat → Prop where
  | last {pending : Pending} {byte : UInt8} (owed : pending.owed = 1)
    (fits : pending.low ≤ byte.toNat ∧ byte.toNat ≤ pending.high)
    : pending.Completes [byte] (pending.extend byte.toNat)
  | more {pending : Pending} {byte : UInt8} {bytes : Bytes} {value : Nat} (owed : pending.owed ≠ 1)
    (fits : pending.low ≤ byte.toNat ∧ byte.toNat ≤ pending.high)
    (behind
      : Pending.Completes ⟨pending.owed - 1, 0x80, 0xBF, pending.extend byte.toNat⟩ bytes value)
    : pending.Completes (byte :: bytes) value

variable {pending : Pending} {byte : UInt8} {bytes rest : Bytes} {value low high bits : Nat}

/-- A completed character is one code point. -/
theorem decodeFrom_completes (completes : pending.Completes bytes value) (rest : Bytes)
    : decodeFrom (some pending) (bytes ++ rest) = Fin.ofNat _ value :: decodeFrom none rest := by
  induction completes with
  | last owed fits =>
      rw [List.singleton_append, decodeFrom, advance, if_pos fits, if_pos owed]
      rfl
  | more owed fits _ ih =>
      rw [List.cons_append, decodeFrom, advance, if_pos fits, if_neg owed]
      exact ih

/-- Where nothing is replaced, what is begun is completed; by induction on the bytes. -/
theorem completes_of_decodeFrom (kept : replacement ∉ decodeFrom (some pending) bytes)
    : ∃ front value rest, bytes = front ++ rest ∧ pending.Completes front value := by
  induction bytes generalizing pending with
  | nil => exact absurd (List.mem_singleton.mpr rfl) kept
  | cons byte bytes ih =>
      rw [decodeFrom, advance] at kept
      by_cases fits : pending.low ≤ byte.toNat ∧ byte.toNat ≤ pending.high
      · rw [if_pos fits] at kept
        by_cases owed : pending.owed = 1
        · exact ⟨[byte], _, bytes, rfl, .last owed fits⟩
        · rw [if_neg owed] at kept
          obtain ⟨front, value, rest, rfl, completes⟩ := ih kept
          exact ⟨byte :: front, value, rest, rfl, .more owed fits completes⟩
      · rw [if_neg fits] at kept
        exact absurd (List.mem_append_left _ List.mem_cons_self) kept

/-- A completed character is a code point that is no surrogate. -/
theorem Pending.Sound.scalar (sound : pending.Sound) (completes : pending.Completes bytes value)
    : value < 0xD800 ∨ 0xDFFF < value ∧ value < 0x110000 := by
  induction completes with
  | last owed fits =>
      have range := sound.completes fits owed
      omega
  | more owed fits _ ih => exact ih (sound.extends fits owed)

theorem Pending.extend_mk (owed low high bits byte : Nat)
    : (⟨owed, low, high, bits⟩ : Pending).extend byte = bits * 64 + (byte - 0x80) :=
  rfl

theorem completes_one
    : Pending.Completes ⟨1, low, high, bits⟩ bytes value
      ↔ ∃ byte : UInt8,
          bytes = [byte] ∧ low ≤ byte.toNat ∧ byte.toNat ≤ high
          ∧ value = bits * 64 + (byte.toNat - 0x80) := by
  constructor
  · intro completes
    cases completes with
    | last owed fits => exact ⟨_, rfl, fits.1, fits.2, Pending.extend_mk ..⟩
    | more owed => exact (owed rfl).elim
  · rintro ⟨byte, rfl, above, below, value⟩
    rw [value, ← Pending.extend_mk 1 low high bits]
    exact .last rfl ⟨above, below⟩

theorem completes_more {owed : Nat} (several : owed ≠ 0)
    : Pending.Completes ⟨owed + 1, low, high, bits⟩ bytes value
      ↔ ∃ (byte : UInt8) (behind : Bytes),
          bytes = byte :: behind ∧ low ≤ byte.toNat ∧ byte.toNat ≤ high
          ∧ Pending.Completes ⟨owed, 0x80, 0xBF, bits * 64 + (byte.toNat - 0x80)⟩ behind value := by
  have owes : owed + 1 ≠ 1 := fun one => several (Nat.succ.inj one)
  constructor
  · intro completes
    cases completes with
    | last owed => exact (owes owed).elim
    | more _ fits behind => exact ⟨_, _, rfl, fits.1, fits.2, behind⟩
  · rintro ⟨byte, behind, rfl, above, below, completes⟩
    exact .more owes ⟨above, below⟩ completes

theorem completes_two
    : Pending.Completes ⟨2, low, high, bits⟩ bytes value
      ↔ ∃ first second : UInt8,
          bytes = [first, second] ∧ low ≤ first.toNat ∧ first.toNat ≤ high
          ∧ 0x80 ≤ second.toNat ∧ second.toNat ≤ 0xBF
          ∧ value = (bits * 64 + (first.toNat - 0x80)) * 64 + (second.toNat - 0x80) := by
  rw [completes_more (by decide)]
  constructor
  · rintro ⟨first, behind, rfl, above, below, completes⟩
    obtain ⟨second, rfl, facts⟩ := completes_one.mp completes
    exact ⟨first, second, rfl, above, below, facts⟩
  · rintro ⟨first, second, rfl, above, below, facts⟩
    exact ⟨first, [second], rfl, above, below, completes_one.mpr ⟨second, rfl, facts⟩⟩

theorem completes_three
    : Pending.Completes ⟨3, low, high, bits⟩ bytes value
      ↔ ∃ first second third : UInt8,
          bytes = [first, second, third] ∧ low ≤ first.toNat ∧ first.toNat ≤ high
          ∧ 0x80 ≤ second.toNat ∧ second.toNat ≤ 0xBF ∧ 0x80 ≤ third.toNat ∧ third.toNat ≤ 0xBF
          ∧ value
            = ((bits * 64 + (first.toNat - 0x80)) * 64 + (second.toNat - 0x80)) * 64
              + (third.toNat - 0x80) := by
  rw [completes_more (by decide)]
  constructor
  · rintro ⟨first, behind, rfl, above, below, completes⟩
    obtain ⟨second, third, rfl, facts⟩ := completes_two.mp completes
    exact ⟨first, second, third, rfl, above, below, facts⟩
  · rintro ⟨first, second, third, rfl, above, below, facts⟩
    exact ⟨first, [second, third], rfl, above, below,
      completes_two.mpr ⟨second, third, rfl, facts⟩⟩

-- The bytes of a character

theorem ofNat_toNat_eq (byte : UInt8) (same : value = byte.toNat) : UInt8.ofNat value = byte := by
  rw [same, UInt8.ofNat_toNat]

variable {char : Char}

theorem encode_two {first second : UInt8} (least : 0x80 ≤ char.toNat)
    (lead : 0xC0 ≤ first.toNat ∧ first.toNat ≤ 0xDF)
    (tail : 0x80 ≤ second.toNat ∧ second.toNat ≤ 0xBF)
    (value : char.toNat = (first.toNat - 0xC0) * 64 + (second.toNat - 0x80))
    : String.utf8EncodeChar char = [first, second] := by
  have number : char.val.toNat = char.toNat := rfl
  simp only [String.utf8EncodeChar, number]
  rw [if_neg (by omega), if_pos (by omega), ofNat_toNat_eq first (by omega),
    ofNat_toNat_eq second (by omega)]

theorem encode_three {first second third : UInt8} (least : 0x800 ≤ char.toNat)
    (lead : 0xE0 ≤ first.toNat ∧ first.toNat ≤ 0xEF)
    (tail : 0x80 ≤ second.toNat ∧ second.toNat ≤ 0xBF)
    (tail' : 0x80 ≤ third.toNat ∧ third.toNat ≤ 0xBF)
    (value
      : char.toNat
        = ((first.toNat - 0xE0) * 64 + (second.toNat - 0x80)) * 64 + (third.toNat - 0x80))
    : String.utf8EncodeChar char = [first, second, third] := by
  have number : char.val.toNat = char.toNat := rfl
  simp only [String.utf8EncodeChar, number]
  rw [if_neg (by omega), if_neg (by omega), if_pos (by omega), ofNat_toNat_eq first (by omega),
    ofNat_toNat_eq second (by omega), ofNat_toNat_eq third (by omega)]

theorem encode_four {first second third fourth : UInt8} (least : 0x10000 ≤ char.toNat)
    (lead : 0xF0 ≤ first.toNat ∧ first.toNat ≤ 0xF4)
    (tail : 0x80 ≤ second.toNat ∧ second.toNat ≤ 0xBF)
    (tail' : 0x80 ≤ third.toNat ∧ third.toNat ≤ 0xBF)
    (tail'' : 0x80 ≤ fourth.toNat ∧ fourth.toNat ≤ 0xBF)
    (value
      : char.toNat
        = (((first.toNat - 0xF0) * 64 + (second.toNat - 0x80)) * 64 + (third.toNat - 0x80)) * 64
          + (fourth.toNat - 0x80))
    : String.utf8EncodeChar char = [first, second, third, fourth] := by
  have number : char.val.toNat = char.toNat := rfl
  simp only [String.utf8EncodeChar, number]
  rw [if_neg (by omega), if_neg (by omega), if_neg (by omega), ofNat_toNat_eq first (by omega),
    ofNat_toNat_eq second (by omega), ofNat_toNat_eq third (by omega),
    ofNat_toNat_eq fourth (by omega)]

theorem toNat_ofNat {value : Nat} (valid : value < 0xD800 ∨ 0xDFFF < value ∧ value < 0x110000)
    : (Char.ofNat value).toNat = value := by
  have isValid : value.isValidChar := valid
  rw [Char.ofNat, dif_pos isValid]
  rfl

-- The first byte of a character

theorem lead_two {byte : Nat} (range : 0xC2 ≤ byte ∧ byte ≤ 0xDF)
    : lead byte = .begins ⟨1, 0x80, 0xBF, byte - 0xC0⟩ := by
  rw [lead, if_neg (by omega), if_pos range]

/-- The second of three bytes leaves out what two bytes have, and the surrogates. -/
theorem lead_three {byte : Nat} (range : 0xE0 ≤ byte ∧ byte ≤ 0xEF)
    : ∃ low high,
        lead byte = .begins ⟨2, low, high, byte - 0xE0⟩
        ∧ (byte = 0xE0 ∧ low = 0xA0 ∨ byte ≠ 0xE0 ∧ low = 0x80)
        ∧ (byte = 0xED ∧ high = 0x9F ∨ byte ≠ 0xED ∧ high = 0xBF) := by
  rw [lead, if_neg (by omega), if_neg (by omega)]
  by_cases least : byte = 0xE0
  · rw [if_pos least, least]
    exact ⟨0xA0, 0xBF, rfl, by omega, by omega⟩
  · rw [if_neg least]
    by_cases surrogate : byte = 0xED
    · rw [if_pos surrogate, surrogate]
      exact ⟨0x80, 0x9F, rfl, by omega, by omega⟩
    · rw [if_neg surrogate, if_pos (by omega)]
      exact ⟨0x80, 0xBF, rfl, by omega, by omega⟩

/-- The second of four bytes leaves out what three bytes have, and what is no code point. -/
theorem lead_four {byte : Nat} (range : 0xF0 ≤ byte ∧ byte ≤ 0xF4)
    : ∃ low high,
        lead byte = .begins ⟨3, low, high, byte - 0xF0⟩
        ∧ (byte = 0xF0 ∧ low = 0x90 ∨ byte ≠ 0xF0 ∧ low = 0x80)
        ∧ (byte = 0xF4 ∧ high = 0x8F ∨ byte ≠ 0xF4 ∧ high = 0xBF) := by
  rw [lead, if_neg (by omega), if_neg (by omega), if_neg (by omega), if_neg (by omega),
    if_neg (by omega)]
  by_cases least : byte = 0xF0
  · rw [if_pos least, least]
    exact ⟨0x90, 0xBF, rfl, by omega, by omega⟩
  · rw [if_neg least]
    by_cases most : byte = 0xF4
    · rw [if_neg (by omega), if_pos most, most]
      exact ⟨0x80, 0x8F, rfl, by omega, by omega⟩
    · rw [if_pos (by omega)]
      exact ⟨0x80, 0xBF, rfl, by omega, by omega⟩

theorem lead_range {byte : Nat} (begins : lead byte = .begins pending)
    : 0xC2 ≤ byte ∧ byte ≤ 0xDF ∨ 0xE0 ≤ byte ∧ byte ≤ 0xEF ∨ 0xF0 ≤ byte ∧ byte ≤ 0xF4 := by
  unfold lead at begins
  repeat' split at begins
  all_goals first
    | (cases begins; done)
    | omega

/-- A byte that is not ASCII is no character of its own. -/
theorem lead_high {byte : Nat} (high : ¬byte ≤ 0x7F)
    : lead byte = .invalid ∨ ∃ pending, lead byte = .begins pending := by
  rw [lead, if_neg high]
  repeat' split
  all_goals first
    | exact .inl rfl
    | exact .inr ⟨_, rfl⟩

/-- A begun character that is completed has just the bytes that were read. -/
theorem encode_completed (begins : lead byte.toNat = .begins pending)
    (completes : pending.Completes bytes value)
    : String.utf8EncodeChar (Char.ofNat value) = byte :: bytes := by
  have number := toNat_ofNat ((lead_sound begins).scalar completes)
  rcases lead_range begins with range | range | range
  · rw [lead_two range] at begins
    cases begins
    obtain ⟨second, rfl, facts⟩ := completes_one.mp completes
    exact encode_two (by omega) (by omega) (by omega) (by omega)
  · obtain ⟨low, high, leads, bounds⟩ := lead_three range
    rw [leads] at begins
    cases begins
    obtain ⟨second, third, rfl, facts⟩ := completes_two.mp completes
    exact encode_three (by omega) (by omega) (by omega) (by omega) (by omega)
  · obtain ⟨low, high, leads, bounds⟩ := lead_four range
    rw [leads] at begins
    cases begins
    obtain ⟨second, third, fourth, rfl, facts⟩ := completes_three.mp completes
    exact encode_four (by omega) (by omega) (by omega) (by omega) (by omega) (by omega)

theorem toNat_small {value : Nat} (small : value < 0x100) : (UInt8.ofNat value).toNat = value := by
  rw [UInt8.toNat_ofNat', Nat.mod_eq_of_lt small]

/-- A code point that is not ASCII has a first byte and bytes that complete it. -/
theorem completes_exists (high : 0x7F < value)
    (valid : value < 0xD800 ∨ 0xDFFF < value ∧ value < 0x110000)
    : ∃ (byte : UInt8) (pending : Pending) (bytes : Bytes),
        lead byte.toNat = .begins pending ∧ pending.Completes bytes value := by
  have last := @toNat_small (value % 64 + 0x80) (by omega)
  by_cases two : value ≤ 0x7FF
  · have first := @toNat_small (value / 64 + 0xC0) (by omega)
    refine ⟨UInt8.ofNat (value / 64 + 0xC0), _, [UInt8.ofNat (value % 64 + 0x80)],
      lead_two (by omega), completes_one.mpr ⟨_, rfl, by omega⟩⟩
  · have third := @toNat_small (value / 64 % 64 + 0x80) (by omega)
    by_cases three : value ≤ 0xFFFF
    · have first := @toNat_small (value / 4096 + 0xE0) (by omega)
      obtain ⟨low, high, leads, bounds⟩ := @lead_three (value / 4096 + 0xE0) (by omega)
      refine ⟨UInt8.ofNat (value / 4096 + 0xE0), _,
        [UInt8.ofNat (value / 64 % 64 + 0x80), UInt8.ofNat (value % 64 + 0x80)], first ▸ leads, ?_⟩
      exact completes_two.mpr ⟨_, _, rfl, by omega⟩
    · have first := @toNat_small (value / 262144 + 0xF0) (by omega)
      have second := @toNat_small (value / 4096 % 64 + 0x80) (by omega)
      obtain ⟨low, high, leads, bounds⟩ := @lead_four (value / 262144 + 0xF0) (by omega)
      refine ⟨UInt8.ofNat (value / 262144 + 0xF0), _,
        [ UInt8.ofNat (value / 4096 % 64 + 0x80), UInt8.ofNat (value / 64 % 64 + 0x80),
          UInt8.ofNat (value % 64 + 0x80) ],
        first ▸ leads, ?_⟩
      exact completes_three.mpr ⟨_, _, _, rfl, by omega⟩

-- Whole texts

/-- An ASCII byte is a character of its own. -/
theorem decodeFrom_ascii (low : byte.toNat ≤ 0x7F) (rest : Bytes)
    : decodeFrom none (byte :: rest) = Fin.ofNat _ byte.toNat :: decodeFrom none rest := by
  rw [decodeFrom, advance, start, lead, if_pos low]
  rfl

theorem decodeFrom_begins (begins : lead byte.toNat = .begins pending) (rest : Bytes)
    : decodeFrom none (byte :: rest) = decodeFrom (some pending) rest := by
  rw [decodeFrom, advance, start, begins]
  rfl

/-- The decoder reads a character back. -/
theorem decodeFrom_encoded (char : Char) (rest : Bytes)
    : decodeFrom none (String.utf8EncodeChar char ++ rest)
      = Fin.ofNat _ char.toNat :: decodeFrom none rest := by
  by_cases low : char.toNat ≤ 0x7F
  · have small := @toNat_small char.toNat (by omega)
    rw [utf8EncodeChar_low low, List.singleton_append, decodeFrom_ascii (small.symm ▸ low), small]
  · have valid : char.toNat < 0xD800 ∨ 0xDFFF < char.toNat ∧ char.toNat < 0x110000 := char.valid
    obtain ⟨byte, pending, bytes, begins, completes⟩ := completes_exists (by omega) valid
    have encoded := encode_completed begins completes
    rw [Char.ofNat_toNat] at encoded
    rw [encoded, List.cons_append, decodeFrom_begins begins, decodeFrom_completes completes]

/-- The decoder reads every text back; by induction on the text. -/
theorem decodeReplacing_utf8 (text : List Char)
    : decodeReplacing (utf8 text) = text.map (fun char => Fin.ofNat _ char.toNat) := by
  rw [decodeReplacing]
  induction text with
  | nil => rfl
  | cons char text ih => rw [utf8_cons, decodeFrom_encoded, ih, List.map_cons]

theorem characters_decodeReplacing (text : List Char)
    : characters (decodeReplacing (utf8 text)) = text := by
  have scalar (char : Char) : Char.ofNat (Fin.ofNat 0x110000 char.toNat).val = char := by
    have valid : char.toNat < 0xD800 ∨ 0xDFFF < char.toNat ∧ char.toNat < 0x110000 := char.valid
    rw [val_ofNat (by omega), Char.ofNat_toNat]
  rw [decodeReplacing_utf8, characters, List.map_map]
  exact (List.map_congr_left fun char _ => scalar char).trans (List.map_id text)

/-- Where nothing is replaced, nothing is lost; by induction on the length of the bytes. -/
theorem utf8_decodeReplacing (kept : replacement ∉ decodeReplacing bytes)
    : utf8 (characters (decodeReplacing bytes)) = bytes := by
  rw [decodeReplacing] at kept ⊢
  induction length : bytes.length using Nat.strong_induction_on generalizing bytes with
  | _ count ih =>
      cases bytes with
      | nil => rfl
      | cons byte bytes =>
          by_cases low : byte.toNat ≤ 0x7F
          · rw [decodeFrom_ascii low] at kept ⊢
            have kept' := fun mem => kept (List.mem_cons_of_mem _ mem)
            rw [characters, List.map_cons, utf8_cons, val_ofNat (by omega), ← characters,
              ih bytes.length (length ▸ Nat.lt_succ_self _) kept' rfl]
            have small := @toNat_ofNat byte.toNat (by omega)
            rw [utf8EncodeChar_low (by omega), small, UInt8.ofNat_toNat]
            rfl
          · rcases lead_high low with invalid | ⟨pending, begins⟩
            · rw [decodeFrom, advance, start, invalid] at kept
              exact absurd (List.mem_append_left _ List.mem_cons_self) kept
            · rw [decodeFrom_begins begins] at kept ⊢
              obtain ⟨front, value, rest, rfl, completes⟩ := completes_of_decodeFrom kept
              rw [decodeFrom_completes completes] at kept ⊢
              have kept' := fun mem => kept (List.mem_cons_of_mem _ mem)
              have shorter : rest.length < count := by
                rw [← length, List.length_cons, List.length_append]
                omega
              have scalar := (lead_sound begins).scalar completes
              have encoded := encode_completed begins completes
              rw [characters, List.map_cons, utf8_cons, ← characters, ih _ shorter kept' rfl,
                val_ofNat (by omega), encoded, List.cons_append]

/-- The decoder loses nothing just where the bytes are UTF-8. -/
theorem utf8_decodeReplacing_iff
    : utf8 (characters (decodeReplacing bytes)) = bytes ↔ ∃ text, utf8 text = bytes := by
  constructor
  · exact fun same => ⟨_, same⟩
  · rintro ⟨text, rfl⟩
    rw [characters_decodeReplacing]

-- Single characters

/-- A code point of a decoded text is a character just where it is a point of the text. -/
theorem mem_characters (valid : char.toNat < 0xD800 ∨ 0xE000 ≤ char.toNat)
    : char ∈ characters (decodeReplacing bytes)
      ↔ Fin.ofNat _ char.toNat ∈ decodeReplacing bytes := by
  have bound : char.toNat < 0x110000 := by
    have valid : char.toNat < 0xD800 ∨ 0xDFFF < char.toNat ∧ char.toNat < 0x110000 := char.valid
    omega
  constructor
  · intro mem
    obtain ⟨point, inside, rfl⟩ := List.mem_map.mp mem
    have scalar := isSurrogate_eq_false.mp (decodeReplacing_scalar inside)
    have number := @toNat_ofNat point.val (by omega)
    have same : (Fin.ofNat _ (Char.ofNat point.val).toNat : CodePoint) = point := by
      refine Fin.ext ?_
      rw [val_ofNat bound, number]
    rwa [same]
  · intro mem
    refine List.mem_map.mpr ⟨_, mem, ?_⟩
    rw [val_ofNat bound, Char.ofNat_toNat]

theorem nul_mem_decodeReplacing : '\x00' ∈ characters (decodeReplacing bytes) ↔ 0 ∈ bytes :=
  (mem_characters (.inl (by decide))).trans zero_mem_decodeReplacing

theorem replacement_mem_decodeReplacing
    : '\uFFFD' ∈ characters (decodeReplacing bytes) ↔ replacement ∈ decodeReplacing bytes :=
  mem_characters (.inr (by decide))

end Text

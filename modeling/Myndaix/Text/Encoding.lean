import Mathlib.Data.List.Flatten
import Myndaix.Text.Bytes

/-! UTF-8 character by character: which bytes a character has, and what is left of them when some
kinds of characters or of bytes are dropped.
-/

namespace Text

-- The bytes of a character

theorem utf8_eq_flatMap (text : List Char) : utf8 text = text.flatMap String.utf8EncodeChar := by
  have bytes
      : (String.ofList text).toByteArray = (text.flatMap String.utf8EncodeChar).toByteArray :=
    rfl
  rw [utf8, bytes, List.data_toByteArray, List.toList_toArray]

theorem utf8_append (front back : List Char) : utf8 (front ++ back) = utf8 front ++ utf8 back := by
  rw [utf8_eq_flatMap, utf8_eq_flatMap, utf8_eq_flatMap, List.flatMap_append]

theorem utf8_cons (char : Char) (text : List Char)
    : utf8 (char :: text) = String.utf8EncodeChar char ++ utf8 text := by
  rw [utf8_eq_flatMap, utf8_eq_flatMap, List.flatMap_cons]

theorem utf8EncodeChar_low {char : Char} (low : char.toNat ≤ 0x7F)
    : String.utf8EncodeChar char = [UInt8.ofNat char.toNat] := by
  rw [String.utf8EncodeChar]
  exact if_pos low

/-- A character that is not ASCII has no ASCII byte. -/
theorem utf8EncodeChar_high {char : Char} (high : 0x7F < char.toNat)
    : ∀ byte ∈ String.utf8EncodeChar char, 0x80 ≤ byte.toNat := by
  have bound (value base : Nat) (above : 0x80 ≤ base) (below : base < 0x100)
    (room : value < 0x100 - base)
      : 0x80 ≤ (UInt8.ofNat (value + base)).toNat := by
    rw [UInt8.toNat_ofNat', Nat.mod_eq_of_lt (by omega)]
    omega
  have high : ¬char.val.toNat ≤ 0x7F := Nat.not_le_of_lt high
  intro byte mem
  simp only [String.utf8EncodeChar, if_neg high] at mem
  split at mem
  · simp only [List.mem_cons, List.not_mem_nil, or_false] at mem
    rcases mem with rfl | rfl
    · exact bound _ _ (by decide) (by decide) (by omega)
    · exact bound _ _ (by decide) (by decide) (by omega)
  · split at mem
    · simp only [List.mem_cons, List.not_mem_nil, or_false] at mem
      rcases mem with rfl | rfl | rfl
      · exact bound _ _ (by decide) (by decide) (by omega)
      · exact bound _ _ (by decide) (by decide) (by omega)
      · exact bound _ _ (by decide) (by decide) (by omega)
    · simp only [List.mem_cons, List.not_mem_nil, or_false] at mem
      rcases mem with rfl | rfl | rfl | rfl
      · exact bound _ _ (by decide) (by decide) (by omega)
      · exact bound _ _ (by decide) (by decide) (by omega)
      · exact bound _ _ (by decide) (by decide) (by omega)
      · exact bound _ _ (by decide) (by decide) (by omega)

-- Dropping

section Dropping

variable {Symbol Code : Type} {less more : Symbol → List Code} {text : List Symbol}

/-- Where one coding of each symbol is part of another, the codings of a text are the same just
where those of its symbols are; by induction on the text.
-/
theorem flatMap_eq_iff (part : ∀ symbol ∈ text, (less symbol).Sublist (more symbol))
    : text.flatMap less = text.flatMap more ↔ ∀ symbol ∈ text, less symbol = more symbol := by
  induction text with
  | nil => exact ⟨fun _ => List.forall_mem_nil _, fun _ => rfl⟩
  | cons symbol text ih =>
      obtain ⟨first, others⟩ := List.forall_mem_cons.mp part
      rw [List.flatMap_cons, List.flatMap_cons, List.forall_mem_cons, ← ih others]
      constructor
      · intro same
        have lengths := congrArg List.length same
        rw [List.length_append, List.length_append] at lengths
        have short := first.length_le
        have short' := (List.Sublist.flatMap_right text others).length_le
        exact List.append_inj same (by omega)
      · rintro ⟨same, same'⟩
        rw [same, same']

end Dropping

end Text

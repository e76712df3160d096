import Myndaix.Capture.Selection
import Myndaix.Text.Encoding

/-! One fence made twice: by the selection of skills, which drops characters, and by the review
play, whose `tr` drops bytes.
-/

namespace Capture

open Inbox (isC0Del)
open Text

-- The play's fence

/-- `'\000-\010\013-\037\177\200-\237'`. -/
def isDeletedByte (byte : UInt8) : Bool :=
  byte.toNat ≤ 0x08 || (0x0B ≤ byte.toNat && byte.toNat ≤ 0x1F) || byte.toNat = 0x7F
    || (0x80 ≤ byte.toNat && byte.toNat ≤ 0x9F)

/-- `clean`: `LC_ALL=C tr -d`. -/
def clean (bytes : Bytes) : Bytes :=
  bytes.filter (fun byte => !isDeletedByte byte)

/-- What `fence` prints for the bytes of its arguments. -/
def printedFence (label nonce body : Bytes) : Bytes :=
  utf8 "===BEGIN UNTRUSTED ".toList ++ label ++ utf8 " nonce=".toList ++ nonce
    ++ utf8 "===\n".toList
    ++ clean body
    ++ (utf8 "\n===END UNTRUSTED nonce=".toList ++ nonce ++ utf8 "===\n".toList)

-- Where they agree

/-- No carriage return, and no byte that is a C1 control of its own. -/
structure Unaffected (body : Str) : Prop where
  noReturn : '\r' ∉ body
  noC1 : ∀ byte ∈ utf8 body, ¬(0x80 ≤ byte.toNat ∧ byte.toNat ≤ 0x9F)

/-- The bytes of a character that the selection shows. -/
def shownBytes (char : Char) : Bytes :=
  if isC0Del char then [] else String.utf8EncodeChar char

/-- The bytes of a character that the play prints. -/
def printedBytes (char : Char) : Bytes :=
  clean (String.utf8EncodeChar char)

variable {char : Char} {label nonce body : Str}

theorem utf8_dropControls (body : Str) : utf8 (dropControls body) = body.flatMap shownBytes := by
  rw [utf8_eq_flatMap]
  induction body with
  | nil => rfl
  | cons char body ih =>
      rw [List.flatMap_cons, ← ih, dropControls, dropControls, shownBytes]
      cases dropped : isC0Del char with
      | true => rw [List.filter_cons_of_neg (by simp [dropped])]; rfl
      | false => rw [List.filter_cons_of_pos (by simp [dropped]), List.flatMap_cons]; rfl

theorem clean_utf8 (body : Str) : clean (utf8 body) = body.flatMap printedBytes := by
  rw [utf8_eq_flatMap, clean, List.filter_flatMap]
  rfl

/-- A control character is one byte, which `tr` drops as well. -/
theorem printedBytes_control (control : isC0Del char = true) : printedBytes char = [] := by
  have values
      : char.toNat ≤ 0x08 ∨ char.toNat = 0x0B ∨ char.toNat = 0x0C
        ∨ (0x0E ≤ char.toNat ∧ char.toNat ≤ 0x1F) ∨ char.toNat = 0x7F := by
    simpa [isC0Del, or_assoc] using control
  have low : char.toNat ≤ 0x7F := by omega
  have byte : (UInt8.ofNat char.toNat).toNat = char.toNat := by
    rw [UInt8.toNat_ofNat', Nat.mod_eq_of_lt (by omega)]
  have dropped : isDeletedByte (UInt8.ofNat char.toNat) = true := by
    simp only [isDeletedByte, byte, Bool.or_eq_true, Bool.and_eq_true, decide_eq_true_eq]
    omega
  rw [printedBytes, utf8EncodeChar_low low, clean, List.filter_cons_of_neg (by simp [dropped])]
  rfl

theorem printed_sublist (char : Char) : (printedBytes char).Sublist (shownBytes char) := by
  cases control : isC0Del char with
  | true =>
      rw [printedBytes_control control]
      exact List.nil_sublist _
  | false =>
      rw [shownBytes, if_neg (by simp [control])]
      exact List.filter_sublist

/-- What `tr` leaves of a character that is no control: all of it, but for a carriage return and for
bytes in the range of the C1 controls.
-/
theorem printed_eq_shown
    : printedBytes char = shownBytes char
      ↔ char ≠ '\r'
        ∧ ∀ byte ∈ String.utf8EncodeChar char, ¬(0x80 ≤ byte.toNat ∧ byte.toNat ≤ 0x9F) := by
  have returns : char = '\r' ↔ char.toNat = 0x0D :=
    ⟨fun same => same ▸ rfl, fun same => Char.toNat_inj.mp same⟩
  by_cases low : char.toNat ≤ 0x7F
  · have byte : (UInt8.ofNat char.toNat).toNat = char.toNat := by
      rw [UInt8.toNat_ofNat', Nat.mod_eq_of_lt (by omega)]
    have single
        : ∀ byte ∈ String.utf8EncodeChar char, ¬(0x80 ≤ byte.toNat ∧ byte.toNat ≤ 0x9F) := by
      rw [utf8EncodeChar_low low]
      intro other mem
      rw [List.mem_singleton.mp mem, byte]
      omega
    rw [and_iff_left single, ne_eq, returns]
    cases control : isC0Del char with
    | true =>
        have notReturn : char.toNat ≠ 0x0D := by
          intro same
          rw [returns.mpr same] at control
          exact absurd control (by decide)
        rw [printedBytes_control control, shownBytes, if_pos control]
        exact ⟨fun _ => notReturn, fun _ => rfl⟩
    | false =>
        have visible
            : ¬char.toNat ≤ 0x08 ∧ char.toNat ≠ 0x0B ∧ char.toNat ≠ 0x0C
              ∧ ¬(0x0E ≤ char.toNat ∧ char.toNat ≤ 0x1F) ∧ char.toNat ≠ 0x7F := by
          simpa [isC0Del, and_assoc] using control
        rw [shownBytes, if_neg (by simp [control]), printedBytes, clean, List.filter_eq_self,
          utf8EncodeChar_low low]
        simp only [List.mem_singleton, forall_eq, isDeletedByte, byte, Bool.not_eq_true',
          Bool.or_eq_false_iff, Bool.and_eq_false_iff, decide_eq_false_iff_not]
        omega
  · have high := utf8EncodeChar_high (Nat.lt_of_not_le low)
    have visible : isC0Del char = false := by
      simp only [isC0Del, Bool.or_eq_false_iff, Bool.and_eq_false_iff, decide_eq_false_iff_not]
      omega
    have notReturn : char ≠ '\r' := fun same => low (by rw [same]; decide)
    rw [and_iff_right notReturn, shownBytes, if_neg (by simp [visible]), printedBytes, clean,
      List.filter_eq_self]
    refine forall_congr' fun byte => forall_congr' fun mem => ?_
    have above := high byte mem
    simp only [isDeletedByte, Bool.not_eq_true', Bool.or_eq_false_iff, Bool.and_eq_false_iff,
      decide_eq_false_iff_not]
    omega

/-- Around the body, both print the same. -/
theorem printedFence_eq (label nonce : Str) (body : Bytes)
    : printedFence (utf8 label) (utf8 nonce) body
      = utf8 (beginMarker label nonce) ++ clean body ++ utf8 (endMarker nonce) := by
  unfold printedFence beginMarker endMarker
  simp only [utf8_append, List.append_assoc]

/-- The two fences are the same bytes just where the body has neither carriage returns nor bytes in
the range of the C1 controls.
-/
theorem fences_agree_iff (label nonce body : Str)
    : utf8 (fenceSkill label body nonce) = printedFence (utf8 label) (utf8 nonce) (utf8 body)
      ↔ Unaffected body := by
  have parts
      : Unaffected body
        ↔ ∀ char ∈ body,
            char ≠ '\r'
            ∧ ∀ byte ∈ String.utf8EncodeChar char, ¬(0x80 ≤ byte.toNat ∧ byte.toNat ≤ 0x9F) := by
    constructor
    · intro unaffected char mem
      refine ⟨fun same => unaffected.noReturn (same ▸ mem), fun byte inside => ?_⟩
      refine unaffected.noC1 byte ?_
      rw [utf8_eq_flatMap]
      exact List.mem_flatMap.mpr ⟨char, mem, inside⟩
    · intro each
      refine ⟨fun mem => (each _ mem).1 rfl, fun byte inside => ?_⟩
      rw [utf8_eq_flatMap] at inside
      obtain ⟨char, mem, inside⟩ := List.mem_flatMap.mp inside
      exact (each char mem).2 byte inside
  rw [fenceSkill, utf8_append, utf8_append, printedFence_eq, List.append_left_inj,
    List.append_right_inj, utf8_dropControls, clean_utf8, eq_comm,
    flatMap_eq_iff fun char _ => printed_sublist char, parts]
  exact forall_congr' fun char => forall_congr' fun _ => printed_eq_shown

/-- A letter with an accent loses a byte in the play's fence alone. -/
theorem fences_differ
    : utf8 (fenceSkill SKILL_LABEL ['\u00c9'] ['n'])
      ≠ printedFence (utf8 SKILL_LABEL) (utf8 ['n']) (utf8 ['\u00c9']) := by
  have shown : utf8 (dropControls ['\u00c9']) = [0xC3, 0x89] := by
    rw [utf8_dropControls]
    decide +kernel
  have printed : clean (utf8 ['\u00c9']) = [0xC3] := by
    rw [clean_utf8]
    decide +kernel
  rw [fenceSkill, utf8_append, utf8_append, printedFence_eq, shown, printed]
  intro same
  have lengths := congrArg List.length same
  simp only [List.length_append, List.length_cons, List.length_nil] at lengths
  omega

end Capture

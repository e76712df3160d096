import Mathlib.Algebra.GroupWithZero.Nat
import Mathlib.Data.Fin.Basic
import Mathlib.Data.List.Basic
import Myndaix.Text.Bytes

/-! Texts of Unicode code points, among them surrogates, and the decoder of UTF-8 that puts a
replacement character for every longest part of a character that does not go on.
-/

namespace Text

abbrev CodePoint : Type :=
  Fin 0x110000

instance instNeZeroCodePoint : NeZero 0x110000 :=
  ⟨Nat.succ_ne_zero 0x10FFFF⟩

/-- A text that may have surrogates in it. -/
abbrev Points : Type :=
  List CodePoint

def points (text : String) : Points :=
  text.toList.map (fun char => Fin.ofNat _ char.toNat)

def isSurrogate (point : CodePoint) : Bool :=
  0xD800 ≤ point.val && point.val ≤ 0xDFFF

/-- U+FFFD. -/
def replacement : CodePoint :=
  0xFFFD

-- The decoder

/-- Inside a character: how many bytes are still owed, between which bounds the next one has to be,
and the bits so far.
-/
structure Pending where
  owed : Nat
  low : Nat
  high : Nat
  bits : Nat

/-- What a byte is between two characters. -/
inductive Lead : Type where
  | point (point : CodePoint)
  | begins (pending : Pending)
  | invalid

def lead (byte : Nat) : Lead :=
  if byte ≤ 0x7F then .point (Fin.ofNat _ byte)
  else if 0xC2 ≤ byte ∧ byte ≤ 0xDF then .begins ⟨1, 0x80, 0xBF, byte - 0xC0⟩
  else if byte = 0xE0 then .begins ⟨2, 0xA0, 0xBF, 0⟩
  else if byte = 0xED then .begins ⟨2, 0x80, 0x9F, 0xD⟩
  else if 0xE1 ≤ byte ∧ byte ≤ 0xEF then .begins ⟨2, 0x80, 0xBF, byte - 0xE0⟩
  else if byte = 0xF0 then .begins ⟨3, 0x90, 0xBF, 0⟩
  else if 0xF1 ≤ byte ∧ byte ≤ 0xF3 then .begins ⟨3, 0x80, 0xBF, byte - 0xF0⟩
  else if byte = 0xF4 then .begins ⟨3, 0x80, 0x8F, 4⟩
  else .invalid

/-- A byte between two characters: what it gives, and the character that it begins. -/
def start (byte : Nat) : Points × Option Pending :=
  match lead byte with
  | .point point => ([point], none)
  | .begins pending => ([], some pending)
  | .invalid => ([replacement], none)

/-- The bits with those of one more byte. -/
def Pending.extend (pending : Pending) (byte : Nat) : Nat :=
  pending.bits * 64 + (byte - 0x80)

def advance : Option Pending → Nat → Points × Option Pending
  | none, byte => start byte
  | some pending, byte =>
      if pending.low ≤ byte ∧ byte ≤ pending.high then
        if pending.owed = 1 then ([Fin.ofNat _ (pending.extend byte)], none)
        else ([], some ⟨pending.owed - 1, 0x80, 0xBF, pending.extend byte⟩)
      else (replacement :: (start byte).1, (start byte).2)

def decodeFrom : Option Pending → Bytes → Points
  | none, [] => []
  | some _, [] => [replacement]
  | state, byte :: bytes =>
      (advance state byte.toNat).1 ++ decodeFrom (advance state byte.toNat).2 bytes

/-- `bytes.decode(errors="replace")`. -/
def decodeReplacing (bytes : Bytes) : Points :=
  decodeFrom none bytes

-- What it gives

/-- The bounds of the code points that can come of a character that is begun. -/
def Pending.least (pending : Pending) : Nat :=
  pending.bits * 64 ^ pending.owed + (pending.low - 0x80) * 64 ^ (pending.owed - 1)

def Pending.most (pending : Pending) : Nat :=
  pending.bits * 64 ^ pending.owed + (pending.high - 0x80) * 64 ^ (pending.owed - 1)
    + (64 ^ (pending.owed - 1) - 1)

/-- They are neither zero nor surrogates. -/
structure Pending.Sound (pending : Pending) : Prop where
  owed : 1 ≤ pending.owed ∧ pending.owed ≤ 3
  bounds : 0x80 ≤ pending.low ∧ pending.high ≤ 0xBF
  range
    : 0 < pending.least ∧ pending.most < 0xD800
      ∨ 0xE000 ≤ pending.least ∧ pending.most < 0x110000

variable {byte : Nat}

theorem lead_sound {pending : Pending} (begins : lead byte = .begins pending)
    : pending.Sound := by
  unfold lead at begins
  repeat' split at begins
  all_goals first
    | (cases begins; done)
    | (cases begins
       refine ⟨⟨?_, ?_⟩, ⟨?_, ?_⟩, ?_⟩ <;> simp only [Pending.least, Pending.most] <;> omega)

theorem Pending.range_one (low high bits : Nat)
    : (⟨1, low, high, bits⟩ : Pending).least = bits * 64 + (low - 0x80) * 1
      ∧ (⟨1, low, high, bits⟩ : Pending).most = bits * 64 + (high - 0x80) * 1 + 0 :=
  ⟨rfl, rfl⟩

theorem Pending.range_two (low high bits : Nat)
    : (⟨2, low, high, bits⟩ : Pending).least = bits * 4096 + (low - 0x80) * 64
      ∧ (⟨2, low, high, bits⟩ : Pending).most = bits * 4096 + (high - 0x80) * 64 + 63 :=
  ⟨rfl, rfl⟩

theorem Pending.range_three (low high bits : Nat)
    : (⟨3, low, high, bits⟩ : Pending).least = bits * 262144 + (low - 0x80) * 4096
      ∧ (⟨3, low, high, bits⟩ : Pending).most
        = bits * 262144 + (high - 0x80) * 4096 + 4095 :=
  ⟨rfl, rfl⟩

/-- A byte that fits completes a sound code point. -/
theorem Pending.Sound.completes {pending : Pending} (sound : pending.Sound)
    (fits : pending.low ≤ byte ∧ byte ≤ pending.high) (last : pending.owed = 1)
    : 0 < pending.extend byte ∧ pending.extend byte < 0xD800
      ∨ 0xE000 ≤ pending.extend byte ∧ pending.extend byte < 0x110000 := by
  obtain ⟨owed, low, high, bits⟩ := pending
  obtain rfl : owed = 1 := last
  obtain ⟨fits, bound⟩ : low ≤ byte ∧ byte ≤ high := fits
  obtain ⟨lowest, highest⟩ : 0x80 ≤ low ∧ high ≤ 0xBF := sound.bounds
  have extended : (⟨1, low, high, bits⟩ : Pending).extend byte = bits * 64 + (byte - 0x80) := rfl
  obtain ⟨least, most⟩ := Pending.range_one low high bits
  have range := sound.range
  omega

/-- A byte that fits keeps what is begun sound. -/
theorem Pending.Sound.extends {pending : Pending} (sound : pending.Sound)
    (fits : pending.low ≤ byte ∧ byte ≤ pending.high) (more : pending.owed ≠ 1)
    : (⟨pending.owed - 1, 0x80, 0xBF, pending.extend byte⟩ : Pending).Sound := by
  obtain ⟨owed, low, high, bits⟩ := pending
  obtain ⟨fits, bound⟩ : low ≤ byte ∧ byte ≤ high := fits
  obtain ⟨some, few⟩ : 1 ≤ owed ∧ owed ≤ 3 := sound.owed
  obtain ⟨lowest, highest⟩ : 0x80 ≤ low ∧ high ≤ 0xBF := sound.bounds
  have extended (owed : Nat)
      : (⟨owed, low, high, bits⟩ : Pending).extend byte = bits * 64 + (byte - 0x80) := rfl
  have range := sound.range
  have two : owed = 2 ∨ owed = 3 := by
    have : owed ≠ 1 := more
    omega
  rcases two with rfl | rfl
  · obtain ⟨least, most⟩ := Pending.range_two low high bits
    obtain ⟨least', most'⟩ := Pending.range_one 0x80 0xBF (bits * 64 + (byte - 0x80))
    rw [extended]
    change (⟨1, 0x80, 0xBF, bits * 64 + (byte - 0x80)⟩ : Pending).Sound
    exact ⟨⟨Nat.le_refl 1, Nat.le_add_left 1 2⟩, ⟨Nat.le_refl _, Nat.le_refl _⟩, by omega⟩
  · obtain ⟨least, most⟩ := Pending.range_three low high bits
    obtain ⟨least', most'⟩ := Pending.range_two 0x80 0xBF (bits * 64 + (byte - 0x80))
    rw [extended]
    change (⟨2, 0x80, 0xBF, bits * 64 + (byte - 0x80)⟩ : Pending).Sound
    exact ⟨⟨Nat.le_add_left 1 1, Nat.le_add_left 2 1⟩, ⟨Nat.le_refl _, Nat.le_refl _⟩, by omega⟩

/-- What a byte may give: no surrogates, and a zero just for the byte zero. -/
structure Gives (byte : Nat) (points : Points) : Prop where
  scalar : ∀ point ∈ points, isSurrogate point = false
  zero : 0 ∈ points ↔ byte = 0

/-- A state between two bytes is sound. -/
def Sound (state : Option Pending) : Prop :=
  ∀ pending ∈ state, pending.Sound

theorem val_ofNat {value : Nat} (bound : value < 0x110000)
    : (Fin.ofNat 0x110000 value : CodePoint).val = value :=
  Nat.mod_eq_of_lt bound

theorem isSurrogate_eq_false {point : CodePoint}
    : isSurrogate point = false ↔ point.val < 0xD800 ∨ 0xE000 ≤ point.val := by
  rw [isSurrogate, Bool.and_eq_false_iff, decide_eq_false_iff_not, decide_eq_false_iff_not]
  omega

theorem eq_zero_iff {point : CodePoint} : 0 = point ↔ point.val = 0 :=
  ⟨fun same => same ▸ rfl, fun same => (Fin.ext same).symm⟩

theorem Gives.nil (positive : 0 < byte) : Gives byte [] :=
  ⟨nofun, ⟨nofun, fun zero => absurd zero (Nat.ne_of_gt positive)⟩⟩

theorem Gives.one {byte value : Nat} (bound : value < 0x110000)
    (scalar : value < 0xD800 ∨ 0xE000 ≤ value) (zero : value = 0 ↔ byte = 0)
    : Gives byte [Fin.ofNat _ value] := by
  constructor
  · intro point mem
    rw [List.mem_singleton.mp mem, isSurrogate_eq_false, val_ofNat bound]
    exact scalar
  · rw [List.mem_singleton, eq_zero_iff, val_ofNat bound, zero]

theorem Gives.replaced {points : Points} (gives : Gives byte points)
    : Gives byte (replacement :: points) := by
  constructor
  · intro point mem
    rcases List.mem_cons.mp mem with rfl | mem
    · exact isSurrogate_eq_false.mpr (.inr (by decide))
    · exact gives.scalar point mem
  · rw [List.mem_cons, ← gives.zero]
    constructor
    · intro either
      rcases either with same | mem
      · exact absurd same (by decide)
      · exact mem
    · exact .inr

theorem start_gives (byte : Nat) : Gives byte (start byte).1 ∧ Sound (start byte).2 := by
  by_cases ascii : byte ≤ 0x7F
  · have single : start byte = ([Fin.ofNat _ byte], none) := by rw [start, lead, if_pos ascii]
    rw [single]
    exact ⟨.one (by omega) (by omega) Iff.rfl, nofun⟩
  · have positive : 0 < byte := by omega
    unfold start
    cases begins : lead byte with
    | point point =>
        unfold lead at begins
        rw [if_neg ascii] at begins
        repeat' split at begins
        all_goals cases begins
    | begins pending =>
        refine ⟨.nil positive, fun other mem => ?_⟩
        cases mem
        exact lead_sound begins
    | invalid => exact ⟨(Gives.nil positive).replaced, nofun⟩

/-- What one byte does from a sound state. -/
theorem advance_gives {state : Option Pending} (sound : Sound state) (byte : Nat)
    : Gives byte (advance state byte).1 ∧ Sound (advance state byte).2 := by
  cases state with
  | none => exact start_gives byte
  | some pending =>
      have started := start_gives byte
      replace sound := sound pending rfl
      rw [advance]
      by_cases fits : pending.low ≤ byte ∧ byte ≤ pending.high
      · have positive : 0 < byte := Nat.lt_of_lt_of_le (by decide) (sound.bounds.1.trans fits.1)
        rw [if_pos fits]
        by_cases last : pending.owed = 1
        · rw [if_pos last]
          have completes := sound.completes fits last
          exact ⟨.one (by omega) (by omega) (by omega), nofun⟩
        · rw [if_neg last]
          refine ⟨.nil positive, fun other mem => ?_⟩
          cases mem
          exact sound.extends fits last
      · rw [if_neg fits]
        exact ⟨started.1.replaced, started.2⟩

/-- A run of the decoder gives no surrogates, and zeros just for the bytes that are zero. -/
theorem decodeFrom_gives {state : Option Pending} (sound : Sound state) (bytes : Bytes)
    : (∀ point ∈ decodeFrom state bytes, isSurrogate point = false)
      ∧ (0 ∈ decodeFrom state bytes ↔ 0 ∈ bytes) := by
  induction bytes generalizing state with
  | nil =>
      cases state with
      | none => exact ⟨nofun, ⟨nofun, nofun⟩⟩
      | some pending =>
          refine ⟨fun point mem => ?_, ⟨fun mem => ?_, nofun⟩⟩
          · rw [List.mem_singleton.mp mem]
            decide
          · exact absurd (List.mem_singleton.mp mem) (by decide)
  | cons byte bytes induction =>
      obtain ⟨gives, next⟩ := advance_gives sound byte.toNat
      obtain ⟨scalar, zero⟩ := induction next
      rw [decodeFrom]
      constructor
      · intro point mem
        rcases List.mem_append.mp mem with given | later
        · exact gives.scalar point given
        · exact scalar point later
      · rw [List.mem_append, gives.zero, zero, List.mem_cons]
        refine or_congr_left ⟨fun same => ?_, fun same => same ▸ rfl⟩
        exact (UInt8.toNat_inj.mp same).symm

theorem decodeReplacing_scalar {bytes : Bytes} {point : CodePoint}
    (mem : point ∈ decodeReplacing bytes) : isSurrogate point = false :=
  (@decodeFrom_gives none nofun bytes).1 point mem

theorem zero_mem_decodeReplacing {bytes : Bytes} : 0 ∈ decodeReplacing bytes ↔ 0 ∈ bytes :=
  (@decodeFrom_gives none nofun bytes).2

end Text

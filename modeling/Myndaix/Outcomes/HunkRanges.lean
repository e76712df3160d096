import Myndaix.Outcomes.Hunks

/-! What is read of the lines that git prints: its own ranges, and those of whatever stands behind a
carriage return.
-/

namespace Outcomes

open Curate (Str universalNewlines)
open Interaction
open Knowledge
open Text

-- Headers

section Headers

variable {numerals : Numerals} {line rest : Str} {char : Char}

theorem hunkMatch_other (other : line.head? ≠ some '@') : hunkMatch numerals line = none := by
  have absent : line.dropPrefix? "@@ -".toList = none := by
    cases line with
    | nil => rfl
    | cons first rest =>
        have differs : first ≠ '@' := fun same => other (congrArg some same)
        simp [List.dropPrefix?, differs]
  rw [hunkMatch, absent]
  rfl

theorem dropPrefix_append (front rest : Str) : (front ++ rest).dropPrefix? front = some rest := by
  induction front with
  | nil => simp
  | cons first front ih => simpa [List.dropPrefix?] using ih

/-- A character that is no digit, on which a run of digits ends. -/
def Stops (rest : Str) : Prop :=
  ∃ first behind, rest = first :: behind ∧ first.toNat ≤ 0x7F ∧ first.isDigit = false

theorem isSome_decimal (isNumber : char.isDigit) : (numerals.decimal char).isSome := by
  have low : char.toNat ≤ 0x7F := by
    simp only [Char.isDigit, Bool.and_eq_true, decide_eq_true_eq] at isNumber
    exact Nat.le_trans isNumber.2 (by decide)
  rw [numerals.ascii char low, if_pos isNumber]
  rfl

/-- A run of ASCII digits is read up to the first character that is none. -/
theorem digitsOf_append {digits : Str} (filled : digits ≠ [])
    (isNumber : ∀ char ∈ digits, char.isDigit) (stops : Stops rest)
    : digitsOf numerals (digits ++ rest) = some (digits, rest) := by
  obtain ⟨first, behind, rfl, low, noDigit⟩ := stops
  have stop : (numerals.decimal first).isSome = false := by
    rw [numerals.ascii first low, noDigit]
    rfl
  have take : (digits ++ first :: behind).takeWhile (fun char => (numerals.decimal char).isSome)
      = digits := by
    rw [List.takeWhile_append_of_pos fun char mem => isSome_decimal (isNumber char mem),
      List.takeWhile_cons_of_neg (by rw [stop]; decide), List.append_nil]
  have drop : (digits ++ first :: behind).dropWhile (fun char => (numerals.decimal char).isSome)
      = first :: behind := by
    rw [List.dropWhile_append_of_pos fun char mem => isSome_decimal (isNumber char mem),
      List.dropWhile_cons_of_neg (by rw [stop]; decide)]
  rw [digitsOf, take, drop, if_neg filled]

theorem digitsOf_number (value : Nat) (stops : Stops rest)
    : digitsOf numerals (Nat.toDigits 10 value ++ rest) = some (Nat.toDigits 10 value, rest) :=
  digitsOf_append Nat.toDigits_ne_nil (decimal_digits value) stops

/-- A count is read where one is printed, before a blank. -/
theorem countOf_range (count : Nat) (rest : Str)
    : countOf numerals ((if count = 1 then [] else ',' :: Nat.toDigits 10 count) ++ ' ' :: rest)
      = (if count = 1 then none else some (Nat.toDigits 10 count), ' ' :: rest) := by
  have stops : Stops (' ' :: rest) := ⟨' ', rest, rfl, by decide, by decide⟩
  by_cases one : count = 1
  · rw [if_pos one, if_pos one]
    rfl
  · rw [if_neg one, if_neg one, List.cons_append, countOf, digitsOf_number count stops]

theorem stops_range (count : Nat) (rest : Str)
    : Stops ((if count = 1 then [] else ',' :: Nat.toDigits 10 count) ++ ' ' :: rest) := by
  by_cases one : count = 1
  · rw [if_pos one]
    exact ⟨' ', rest, rfl, by decide, by decide⟩
  · rw [if_neg one]
    exact ⟨',', _, rfl, by decide, by decide⟩

/-- A header that git has printed is read as its range. -/
theorem hunkMatch_ranges (hunk : Hunk) (rest : Str)
    : hunkMatch numerals (hunk.ranges ++ rest)
      = some (Nat.toDigits 10 hunk.newStart,
          if hunk.newCount = 1 then none else some (Nat.toDigits 10 hunk.newCount)) := by
  have split : hunk.ranges ++ rest
      = "@@ -".toList ++ (Nat.toDigits 10 hunk.oldStart
          ++ ((if hunk.oldCount = 1 then [] else ',' :: Nat.toDigits 10 hunk.oldCount)
            ++ ' ' :: ('+' :: (Nat.toDigits 10 hunk.newStart
              ++ ((if hunk.newCount = 1 then [] else ',' :: Nat.toDigits 10 hunk.newCount)
                ++ ' ' :: ('@' :: '@' :: rest)))))) := by
    simp [Hunk.ranges, rangeText]
  have plus (behind : Str) : (' ' :: '+' :: behind).dropPrefix? " +".toList = some behind :=
    dropPrefix_append [' ', '+'] behind
  have close : (' ' :: '@' :: '@' :: rest).dropPrefix? " @@".toList = some rest :=
    dropPrefix_append [' ', '@', '@'] rest
  rw [split, hunkMatch, dropPrefix_append]
  simp only [Option.bind_eq_bind, Option.bind_some, digitsOf_number _ (stops_range _ _),
    countOf_range, plus, close]
  rfl

/-- ASCII digits have the value that they always have; by induction on them. -/
theorem foldl_decimal {digits : Str} (isNumber : ∀ char ∈ digits, char.isDigit) (value : Nat)
    : digits.foldl (fun value char => value * 10 + (numerals.decimal char).getD 0) value
      = Nat.ofDigitChars 10 digits value := by
  induction digits generalizing value with
  | nil => rw [Nat.ofDigitChars_nil, List.foldl_nil]
  | cons char digits ih =>
      have digit := isNumber char List.mem_cons_self
      have low : char.toNat ≤ 0x7F := by
        simp only [Char.isDigit, Bool.and_eq_true, decide_eq_true_eq] at digit
        exact Nat.le_trans digit.2 (by decide)
      rw [List.foldl_cons, ih fun other mem => isNumber other (List.mem_cons_of_mem _ mem),
        Nat.ofDigitChars_cons, numerals.ascii char low, if_pos digit, Nat.mul_comm]
      rfl

/-- `int` reads a number that fits in a word. -/
theorem int_number {value : Nat} (fits : value < 2 ^ 64)
    : int numerals (Nat.toDigits 10 value) = .ok value := by
  have length : (Nat.toDigits 10 value).length ≤ 20 :=
    (Nat.length_toDigits_le_iff (by decide) (by decide)).mpr (Nat.lt_trans fits (by decide))
  have short : ¬maxStrDigits < (Nat.toDigits 10 value).length := by
    rw [maxStrDigits]
    omega
  rw [int, if_neg short, foldl_decimal (decimal_digits value), Nat.ofDigitChars_ten_toDigits]

theorem hunkOf_ranges (hunk : Hunk) (rest : Str)
    : hunkOf numerals (hunk.ranges ++ rest) = some (.ok hunk.range) := by
  rw [hunkOf, hunkMatch_ranges, Option.map_some]
  simp only [int_number hunk.fits.1]
  by_cases one : hunk.newCount = 1
  · rw [if_pos one, Hunk.range, one]
    rfl
  · rw [if_neg one]
    simp only [int_number hunk.fits.2]
    rfl

theorem hunkOf_none (unread : hunkMatch numerals line = none) : hunkOf numerals line = none := by
  rw [hunkOf, unread, Option.map_none]

theorem hunkOf_eq_none : hunkOf numerals line = none ↔ hunkMatch numerals line = none := by
  rw [hunkOf, Option.map_eq_none_iff]

end Headers

-- Lines

section Lines

variable {numerals : Numerals} {files : List FileDiff} {line : Bytes}

/-- What a line of git gives behind its first line end. -/
def behind (line : Bytes) : List Str :=
  (readLines (decoded line)).tail

/-- The range that a line of git is itself read as. -/
def ownRange (numerals : Numerals) (line : Bytes) : List (Except ValueError (Nat × Nat)) :=
  ((readLines (decoded line)).head?.bind (hunkOf numerals)).toList

theorem filterMap_readLines (line : Bytes)
    : (readLines (decoded line)).filterMap (hunkOf numerals)
      = ownRange numerals line ++ (behind line).filterMap (hunkOf numerals) := by
  rw [ownRange, behind]
  obtain ⟨first, rest, split⟩ := List.exists_cons_of_ne_nil (readLines_ne_nil (decoded line))
  rw [split]
  cases found : hunkOf numerals first with
  | none => simp [found]
  | some range => simp [found]

theorem ownRange_opens {first : UInt8} (opens : Opens first) (rest : Bytes)
    : ownRange numerals (first :: rest) = [] := by
  obtain ⟨low, sign, feed, carriage⟩ := opens
  have inject {other : Char} (small : other.toNat < 0x100) (same : Char.ofNat first.toNat = other)
      : first = UInt8.ofNat other.toNat := by
    have value := congrArg Char.toNat same
    rw [toNat_ofNat (.inl (by omega))] at value
    rw [← value, UInt8.ofNat_toNat]
  rw [ownRange, decoded, characters_decodeReplacing_cons low,
    readLines_cons (fun same => carriage (inject (by decide) same))
      (fun same => feed (inject (by decide) same))]
  obtain ⟨line, lines, split⟩
    := List.exists_cons_of_ne_nil (readLines_ne_nil (characters (decodeReplacing rest)))
  have other : (Char.ofNat first.toNat :: line).head? ≠ some '@' := fun same =>
    sign (inject (by decide) (Option.some.inj same))
  rw [split, List.modifyHead_cons, List.head?_cons, Option.bind_some,
    hunkOf_none (hunkMatch_other other)]
  rfl

theorem opens_sign {sign : UInt8} (mem : sign ∈ utf8 " +-\\".toList) : Opens sign := by
  have signs : utf8 " +-\\".toList = [0x20, 0x2B, 0x2D, 0x5C] := by decide
  rw [signs] at mem
  simp only [List.mem_cons, List.not_mem_nil, or_false] at mem
  rcases mem with rfl | rfl | rfl | rfl <;> exact ⟨by decide, by decide, by decide, by decide⟩

theorem ranges_clean (hunk : Hunk) (char : Char) (mem : char ∈ hunk.ranges)
    : char ≠ '\r' ∧ char ≠ '\n' := by
  have number {value : Nat} (inside : char ∈ Nat.toDigits 10 value)
      : char ≠ '\r' ∧ char ≠ '\n' := by
    have digit := decimal_digits value char inside
    constructor
    · rintro rfl
      cases digit
    · rintro rfl
      cases digit
  have range {start count : Nat} (inside : char ∈ rangeText start count)
      : char ≠ '\r' ∧ char ≠ '\n' := by
    rcases List.mem_append.mp inside with inside | inside
    · exact number inside
    · by_cases one : count = 1
      · rw [if_pos one] at inside
        cases inside
      · rw [if_neg one] at inside
        rcases List.mem_cons.mp inside with rfl | inside
        · decide
        · exact number inside
  have literal {text : Str} (all : text.all fun char => char ≠ '\r' && char ≠ '\n')
      (inside : char ∈ text) : char ≠ '\r' ∧ char ≠ '\n' := by
    simpa using List.all_eq_true.mp all char inside
  rw [Hunk.ranges, List.mem_append, List.mem_append, List.mem_append, List.mem_append] at mem
  rcases mem with mem | mem | mem | mem | mem
  · exact @literal "@@ -".toList rfl mem
  · exact range mem
  · exact @literal " +".toList rfl mem
  · exact range mem
  · exact @literal " @@".toList rfl mem

/-- The header of a hunk is read as its range, whatever stands behind. -/
theorem ownRange_header (hunk : Hunk)
    : ownRange numerals (utf8 hunk.ranges ++ hunk.heading) = [.ok hunk.range] := by
  rw [ownRange, decoded, characters_decodeReplacing_append, readLines_append (ranges_clean hunk)]
  obtain ⟨line, lines, split⟩
    := List.exists_cons_of_ne_nil (readLines_ne_nil (characters (decodeReplacing hunk.heading)))
  rw [split, List.modifyHead_cons, List.head?_cons, Option.bind_some, hunkOf_ranges]
  rfl

theorem ownRanges_hunk (hunk : Hunk)
    : hunk.lines.flatMap (ownRange numerals) = [.ok hunk.range] := by
  have body : hunk.body.flatMap (ownRange numerals) = [] := by
    refine List.flatMap_eq_nil_iff.mpr fun line mem => ?_
    obtain ⟨sign, rest, rfl, isSign⟩ := hunk.signed line mem
    exact ownRange_opens (opens_sign isSign) rest
  rw [Hunk.lines, List.flatMap_cons, ownRange_header, body, List.append_nil]

theorem ownRanges_file (file : FileDiff)
    : file.lines.flatMap (ownRange numerals) = (file.hunks.map Hunk.range).map .ok := by
  have header : file.header.flatMap (ownRange numerals) = [] := by
    refine List.flatMap_eq_nil_iff.mpr fun line mem => ?_
    obtain ⟨first, rest, rfl, opens⟩ := file.opened line mem
    exact ownRange_opens opens rest
  rw [FileDiff.lines, List.flatMap_append, header, List.nil_append, List.flatMap_assoc]
  simp only [ownRanges_hunk]
  rw [List.map_map, ← List.map_eq_flatMap]
  rfl

/-- The ranges of the headers that git has printed. -/
def printedRanges (files : List FileDiff) : List (Nat × Nat) :=
  files.flatMap fun file => file.hunks.map Hunk.range

theorem ownRanges_eq (files : List FileDiff)
    : (files.flatMap FileDiff.lines).flatMap (ownRange numerals)
      = (printedRanges files).map .ok := by
  rw [List.flatMap_assoc, printedRanges, List.map_flatMap]
  simp only [ownRanges_file]

end Lines

end Outcomes

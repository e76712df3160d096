import Mathlib.Data.Rat.Floor
import Mathlib.Tactic.Ring
import Mathlib.Tactic.FieldSimp

/-! Rounding to the nearest number with so many decimals, halves to the even neighbour. -/

namespace Rounding

/-- The nearest integer, and of two nearest ones the even one. -/
def nearestEven (value : ℚ) : ℤ :=
  let low := ⌊value⌋
  if value - low < 1 / 2 then low
  else if 1 / 2 < value - low then low + 1
  else if low % 2 = 0 then low
  else low + 1

def roundTo (digits : ℕ) (value : ℚ) : ℚ :=
  nearestEven (value * 10 ^ digits) / 10 ^ digits

/-- An even shift moves the nearest integer along, as it keeps the fraction and the parity. -/
theorem nearestEven_add_even (value : ℚ) (shift : ℤ)
    : nearestEven (value + (2 * shift : ℤ)) = nearestEven value + 2 * shift := by
  have fraction
      : value + (2 * shift : ℤ) - (⌊value⌋ + 2 * shift : ℤ) = value - (⌊value⌋ : ℤ) := by
    push_cast
    ring
  have parity : (⌊value⌋ + 2 * shift) % 2 = ⌊value⌋ % 2 := by omega
  simp only [nearestEven, Int.floor_add_intCast, fraction, parity]
  split_ifs <;> ring

@[simp] theorem roundTo_zero (digits : ℕ) : roundTo digits 0 = 0 := by
  have nearest : nearestEven 0 = 0 := by decide +kernel
  rw [roundTo, zero_mul, nearest]
  simp

/-- With decimals to round to, a whole number passes through the rounding. -/
theorem roundTo_add_int {digits : ℕ} (positive : 0 < digits) (value : ℚ) (whole : ℤ)
    : roundTo digits (value + whole) = roundTo digits value + whole := by
  obtain ⟨fewer, rfl⟩ : ∃ fewer, digits = fewer + 1 := ⟨digits - 1, by omega⟩
  have scaled
      : (value + whole) * (10 : ℚ) ^ (fewer + 1)
        = value * 10 ^ (fewer + 1) + (2 * (whole * 5 * 10 ^ fewer) : ℤ) := by
    push_cast
    ring
  rw [roundTo, scaled, nearestEven_add_even, roundTo]
  push_cast
  field_simp
  ring

end Rounding

/-
# From decimals to words

A decimal that was read from text is scaled by a power of ten and cut to an integer.
Several readers cut it to an `int` first and only then store it in a word: 32 bits
remain, and the sign among them is spread over the upper half of the word.

Doubles are exact rationals here, and a conversion to a 32-bit integer is modulo
`2 ^ 32`.
-/

import Mathlib.Algebra.Order.Floor.Ring
import Mathlib.Data.Rat.Floor
import Mathlib.Data.UInt
import Mathlib.Tactic.FieldSimp
import Mathlib.Tactic.Linarith

namespace CryptoBot.Common

/-- A double without its fraction. -/
def truncate (value : ℚ) : ℤ := if 0 ≤ value then ⌊value⌋ else ⌈value⌉

/-- `static_cast<int>` of a double. -/
def doubleToInt (value : ℚ) : ℤ := (truncate value).bmod (2 ^ 32)

/-- `std::pow(10, precision)` as an `unsigned int`. -/
def unsignedScale (precision : UInt8) : ℕ := 10 ^ precision.toNat % 2 ^ 32

/-- The words that 32 bits and a sign can hold. -/
def FitsInt (word : UInt64) : Prop := word.toNat < 2 ^ 31 ∨ 2 ^ 64 - 2 ^ 31 ≤ word.toNat

theorem truncate_of_nonneg {value : ℚ} (h : 0 ≤ value) : truncate value = ⌊value⌋ := if_pos h

theorem truncate_natCast (number : ℕ) : truncate number = number := by
  rw [truncate_of_nonneg (by positivity), Int.floor_natCast]

theorem ofInt_eq_iff {number : ℤ} {word : UInt64} :
    UInt64.ofInt number = word ↔ number % 2 ^ 64 = word.toNat := by
  have hpos : 0 ≤ number % 2 ^ 64 := Int.emod_nonneg _ (by decide)
  have hlt : number % 2 ^ 64 < 2 ^ 64 := Int.emod_lt_of_pos _ (by decide)
  rw [← UInt64.toNat_inj, UInt64.ofInt, UInt64.toNat_ofNat', Nat.mod_eq_of_lt (by omega)]
  omega

/-- An integer that passes through 32 bits arrives as a word that fits into them and
agrees with it there. -/
theorem ofInt_bmod_eq_iff {number : ℤ} {word : UInt64} :
    UInt64.ofInt (number.bmod (2 ^ 32)) = word ↔
      FitsInt word ∧ number % 2 ^ 32 = word.toNat % 2 ^ 32 := by
  have hword := word.toNat_lt
  rw [ofInt_eq_iff, FitsInt, Int.bmod_eq_emod]
  push_cast
  split <;> omega

theorem ofInt_doubleToInt_natCast (word : UInt64) :
    UInt64.ofInt (doubleToInt word.toNat) = word ↔ FitsInt word := by
  rw [doubleToInt, truncate_natCast, ofInt_bmod_eq_iff]
  exact and_iff_left rfl

/-- The wrap of the scale takes `2 ^ 32 * (value * dropped)` from the product. -/
theorem unsignedScale_mul (value : ℚ) (precision : UInt8) :
    unsignedScale precision * value = value * (10 : ℚ) ^ precision.toNat -
      2 ^ 32 * (value * (10 ^ precision.toNat / 2 ^ 32 : ℕ)) := by
  have hsplit : (10 : ℚ) ^ precision.toNat =
      2 ^ 32 * (10 ^ precision.toNat / 2 ^ 32 : ℕ) + unsignedScale precision := by
    exact_mod_cast (Nat.div_add_mod (10 ^ precision.toNat) (2 ^ 32)).symm
  rw [hsplit]
  ring

/-- A multiple of `2 ^ 32` that is rounded up stays a multiple when the factor is
close below an integer. -/
theorem dvd_ceil_iff (value : ℚ) :
    (2 ^ 32 : ℤ) ∣ ⌈2 ^ 32 * value⌉ ↔ ⌈value⌉ - value < 1 / 2 ^ 32 := by
  constructor
  · rintro ⟨quotient, hquotient⟩
    have hbounds := Int.ceil_eq_iff.mp hquotient
    push_cast at hbounds
    have hceil : ⌈value⌉ = quotient := by
      rw [Int.ceil_eq_iff]
      constructor <;> linarith
    rw [hceil]
    linarith
  · intro hclose
    refine ⟨⌈value⌉, ?_⟩
    rw [Int.ceil_eq_iff]
    push_cast
    have hle := Int.le_ceil value
    constructor <;> linarith

theorem ofInt_doubleToInt_unsignedScale {word : UInt64} {value : ℚ} {precision : UInt8}
    (h : value * (10 : ℚ) ^ precision.toNat = word.toNat) :
    UInt64.ofInt (doubleToInt (unsignedScale precision * value)) = word ↔
      FitsInt word ∧ ⌈value * (10 ^ precision.toNat / 2 ^ 32 : ℕ)⌉ -
        value * (10 ^ precision.toNat / 2 ^ 32 : ℕ) < 1 / 2 ^ 32 := by
  have hvalue : 0 ≤ value := by
    refine nonneg_of_mul_nonneg_left (b := (10 : ℚ) ^ precision.toNat) ?_ (by positivity)
    rw [h]
    positivity
  rw [doubleToInt, truncate_of_nonneg (by positivity), ofInt_bmod_eq_iff, unsignedScale_mul, h,
    ← dvd_ceil_iff, sub_eq_add_neg, Int.floor_natCast_add, Int.floor_neg]
  refine and_congr_right fun _ => ?_
  omega

end CryptoBot.Common

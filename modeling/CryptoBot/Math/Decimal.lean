/-
# Decimal numerals

A numeral is a whole part and, after a point, a fraction, both of them digits.  Its
value is the whole part plus the fraction shifted by its length.  Fixed notation
writes an integer multiple of a power of ten with all of its decimals: the digits
before the point are those of the quotient, and the digits after it are those of
the remainder, padded with zeros to the full length.
-/

import Mathlib.Algebra.Order.Floor.Ring
import Mathlib.Data.Rat.Floor
import Mathlib.Tactic.FieldSimp
import Mathlib.Tactic.Linarith
import Mathlib.Tactic.Positivity

namespace CryptoBot.Math

/-- Digits without superfluous zeros in front. -/
structure IsWhole (digits : List Char) : Prop where
  digit : ∀ char ∈ digits, char.isDigit
  nonempty : digits ≠ []
  canonical : digits = ['0'] ∨ digits.head? ≠ some '0'

/-- The value of a whole part and a fraction. -/
def decimalValue (whole fraction : List Char) : ℚ :=
  Nat.ofDigitChars 10 whole 0 + Nat.ofDigitChars 10 fraction 0 / 10 ^ fraction.length

/-- The digits of a number, padded with zeros. -/
def padded (precision number : ℕ) : List Char :=
  List.replicate (precision - (Nat.toDigits 10 number).length) '0' ++ Nat.toDigits 10 number

/-- Fixed notation of `number / 10 ^ precision`. -/
def fixedDigits (number precision : ℕ) : List Char :=
  if precision = 0 then Nat.toDigits 10 number
  else
    Nat.toDigits 10 (number / 10 ^ precision) ++
      '.' :: padded precision (number % 10 ^ precision)

variable {number precision : ℕ}

/-- The first digit of a positive number is not zero. -/
theorem head_toDigits_ne_zero (h : 0 < number) : (Nat.toDigits 10 number).head? ≠ some '0' := by
  induction number using Nat.strong_induction_on with
  | h number ih =>
      rcases lt_or_ge number 10 with hlt | hge
      · rw [Nat.toDigits_of_lt_base hlt, List.head?_cons, Ne, Option.some.injEq]
        intro hzero
        have hvalue := Nat.toNat_digitChar_sub_48_of_lt_ten hlt
        rw [hzero] at hvalue
        have hchar : '0'.toNat - 48 = 0 := rfl
        omega
      · -- the first digit is that of the quotient
        rw [Nat.toDigits_of_base_le (by decide) hge,
          List.head?_append_of_ne_nil _ Nat.toDigits_ne_nil]
        exact ih (number / 10) (by omega) (by omega)

theorem isWhole_toDigits (number : ℕ) : IsWhole (Nat.toDigits 10 number) where
  digit char hchar := Nat.isDigit_of_mem_toDigits (by decide) le_rfl hchar
  nonempty := Nat.toDigits_ne_nil
  canonical := by
    rcases Nat.eq_zero_or_pos number with rfl | hpos
    · exact .inl (Nat.toDigits_zero 10)
    · exact .inr (head_toDigits_ne_zero hpos)

theorem length_padded (h : number < 10 ^ precision) (hpos : 0 < precision) :
    (padded precision number).length = precision := by
  have hlength : (Nat.toDigits 10 number).length ≤ precision :=
    (Nat.length_toDigits_le_iff (by decide) hpos).mpr h
  rw [padded, List.length_append, List.length_replicate]
  omega

theorem isDigit_of_mem_padded {char : Char} (h : char ∈ padded precision number) :
    char.isDigit := by
  rcases List.mem_append.mp h with hzero | hdigit
  · rw [List.eq_of_mem_replicate hzero]
    rfl
  · exact Nat.isDigit_of_mem_toDigits (by decide) le_rfl hdigit

theorem ofDigitChars_padded : Nat.ofDigitChars 10 (padded precision number) 0 = number := by
  rw [padded, Nat.ofDigitChars_append, Nat.ofDigitChars_replicate_zero, Nat.mul_zero,
    Nat.ofDigitChars_ten_toDigits]

/-- Fixed notation has the value it stands for. -/
theorem decimalValue_fixed (hpos : 0 < precision) :
    decimalValue (Nat.toDigits 10 (number / 10 ^ precision))
      (padded precision (number % 10 ^ precision)) = number * (10 : ℚ) ^ (-(precision : ℤ)) := by
  have hlength : (padded precision (number % 10 ^ precision)).length = precision :=
    length_padded (Nat.mod_lt _ (by positivity)) hpos
  have hsplit : (10 : ℚ) ^ precision * (number / 10 ^ precision : ℕ) +
      (number % 10 ^ precision : ℕ) = number := by
    exact_mod_cast Nat.div_add_mod number (10 ^ precision)
  rw [decimalValue, Nat.ofDigitChars_ten_toDigits, ofDigitChars_padded, hlength, zpow_neg,
    zpow_natCast]
  field_simp
  linarith

/-! ## Reading numerals -/

instance : DecidablePred IsWhole := fun digits =>
  decidable_of_iff (digits.all Char.isDigit ∧ digits ≠ [] ∧
      (digits = ['0'] ∨ digits.head? ≠ some '0'))
    ⟨fun h => ⟨List.all_eq_true.mp h.1, h.2.1, h.2.2⟩,
      fun h => ⟨List.all_eq_true.mpr h.digit, h.nonempty, h.canonical⟩⟩

/-- The value of a numeral without sign and exponent. -/
def parseDecimal (text : List Char) : Option ℚ :=
  match text.splitOn '.' with
  | [whole] => if IsWhole whole then some (Nat.ofDigitChars 10 whole 0) else none
  | [whole, fraction] =>
      if IsWhole whole ∧ fraction ≠ [] ∧ fraction.all Char.isDigit then
        some (decimalValue whole fraction)
      else none
  | _ => none

theorem point_notMem_of_isDigit {digits : List Char} (h : ∀ char ∈ digits, char.isDigit) :
    '.' ∉ digits := by
  intro hpoint
  exact absurd (h '.' hpoint) (by decide)

theorem parseDecimal_whole {whole : List Char} (h : IsWhole whole) :
    parseDecimal whole = some (Nat.ofDigitChars 10 whole 0 : ℚ) := by
  rw [parseDecimal, List.splitOn_eq_singleton (point_notMem_of_isDigit h.digit)]
  simp only [if_pos h]

theorem parseDecimal_fraction {whole fraction : List Char} (h : IsWhole whole)
    (hnonempty : fraction ≠ []) (hdigit : ∀ char ∈ fraction, char.isDigit) :
    parseDecimal (whole ++ '.' :: fraction) = some (decimalValue whole fraction) := by
  rw [parseDecimal, List.splitOn_append_cons_self_of_not_mem (point_notMem_of_isDigit h.digit),
    List.splitOn_eq_singleton (point_notMem_of_isDigit hdigit)]
  exact if_pos ⟨h, hnonempty, List.all_eq_true.mpr hdigit⟩

end CryptoBot.Math

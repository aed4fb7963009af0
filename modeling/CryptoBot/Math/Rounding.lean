/-
# Exact operations in double precision

The value of a finite double is an integer of at most 53 bits times a power of two whose
exponent is in range.  Sums and differences are rounded to such a number, so an operation
whose exact result is one already is computed exactly.  In particular whole numbers are
added and subtracted exactly up to two to the 53rd.

A conversion of an integer may round, but it is never lost: a positive 64-bit integer
becomes a finite double that is not zero.
-/

import CryptoBot.Math.Doubles

namespace CryptoBot.Math.Doubles

open Float.Model Float.Model.UnpackedFloat

/-! ## Values -/

/-- The rational number of a double, and zero for a double that is not finite. -/
def unpackedValue : UnpackedFloat → ℚ
  | .finite sign mantissa exponent _ => (sign.apply mantissa : ℤ) * 2 ^ exponent
  | _ => 0

def value (x : Float) : ℚ := unpackedValue (unpacked x)

/-- The value of some double. -/
def Representable (q : ℚ) : Prop :=
  ∃ mantissa exponent : ℤ, mantissa.natAbs < 2 ^ 53 ∧ -1074 ≤ exponent ∧ exponent ≤ 971 ∧
    q = mantissa * 2 ^ exponent

/-- Whole numbers of at most 53 bits. -/
theorem representable_of_natAbs_le {n : ℤ} (h : n.natAbs ≤ 2 ^ 53) : Representable n := by
  rcases h.lt_or_eq with hlt | heq
  · exact ⟨n, 0, hlt, by decide, by decide, by simp⟩
  · refine ⟨n.sign, 53, ?_, by decide, by decide, ?_⟩
    · rw [Int.natAbs_sign_of_ne_zero (by omega)]
      decide
    · have hn : n = n.sign * 2 ^ 53 := by
        conv_lhs => rw [← Int.sign_mul_natAbs n, heq]
        norm_num
      conv_lhs => rw [hn]
      norm_num

/-! ## Packing -/

/-- The implicit leading bit of a normal number. -/
theorem toNat_one_append (mantissa : BitVec 52) :
    (1#1 ++ mantissa).toNat = 2 ^ 52 + mantissa.toNat := by
  have hor := Nat.two_pow_add_eq_or_of_lt mantissa.isLt 1
  rw [BitVec.toNat_append, Nat.shiftLeft_eq]
  exact hor.symm

theorem exponentBias_binary64 : Format.binary64.exponentBias = 1023 := rfl

theorem mantissaBits_binary64 : Format.binary64.mantissaBits = 53 := rfl

section Fields

variable (sign : Sign) {exponent : BitVec 11} {mantissa : BitVec 52}

/-- The word of a normal number. -/
theorem unpack_normal (hfinite : exponent ≠ -1#11) (hnormal : exponent ≠ 0#11) :
    UnpackedFloat.unpack .binary64 (packComponents .binary64 sign exponent mantissa) =
      .finite sign (2 ^ 52 + mantissa.toNat) (exponent.toNat - 1075) (by omega) := by
  have hbias : (exponent.toNat : ℤ) - (Format.binary64.exponentBias + (52 : ℕ)) =
      exponent.toNat - 1075 := by
    rw [exponentBias_binary64]
    omega
  simp only [UnpackedFloat.unpack, unpackExponent_packComponents, unpackMantissa_packComponents,
    unpackSign_packComponents, Sign.ofBitVec_toBitVec, if_neg hfinite, if_neg hnormal, hbias,
    toNat_one_append]

/-- The word of a number below the normal ones. -/
theorem unpack_subnormal (hmantissa : mantissa ≠ 0#52) :
    UnpackedFloat.unpack .binary64 (packComponents .binary64 sign 0#11 mantissa) =
      .finite sign mantissa.toNat (-1074) (by
        rw [Nat.pos_iff_ne_zero]
        exact fun h => hmantissa (BitVec.eq_of_toNat_eq h)) := by
  have hbias : ((0#11).toNat : ℤ) - (Format.binary64.exponentBias + (52 : ℕ)) + 1 = -1074 := rfl
  have hfinite : ¬ 0#11 = -1#11 := by decide
  simp only [UnpackedFloat.unpack, unpackExponent_packComponents, unpackMantissa_packComponents,
    unpackSign_packComponents, Sign.ofBitVec_toBitVec, if_neg hfinite, if_true,
    dif_neg hmantissa, hbias]

end Fields

/-- The word of a normal number. -/
theorem pack_normal {sign : Sign} {mantissa : ℕ} {exponent : ℤ} (hpos : 0 < mantissa)
    (hlower : 2 ^ 52 ≤ mantissa) (hupper : mantissa < 2 ^ 53) (hexponent : exponent ≤ 971) :
    UnpackedFloat.pack .binary64 (.finite sign mantissa exponent hpos) =
      packComponents .binary64 sign (BitVec.ofNat 11 (exponent + 1075).toNat)
        (BitVec.ofNat 52 mantissa) := by
  have hlog : mantissa.log2 = 52 := (Nat.log2_eq_iff hpos.ne').mpr ⟨hlower, hupper⟩
  have hbias : exponent + Format.binary64.exponentBias + (52 : ℕ) = exponent + 1075 := by
    rw [exponentBias_binary64]
    omega
  have hfits : ¬ 2 ^ 11 ≤ (exponent + 1075).toNat + 1 := by omega
  simp only [UnpackedFloat.pack, hbias, hlog, mantissaBits_binary64, if_neg hfits, if_true]

/-- The word of a number below the normal ones. -/
theorem pack_subnormal {sign : Sign} {mantissa : ℕ} (hpos : 0 < mantissa)
    (hupper : mantissa < 2 ^ 52) :
    UnpackedFloat.pack .binary64 (.finite sign mantissa (-1074) hpos) =
      packComponents .binary64 sign 0#11 (BitVec.ofNat 52 mantissa) := by
  have hlog : mantissa.log2 < 52 := (Nat.log2_lt hpos.ne').mpr hupper
  have hbias : (-1074 : ℤ) + Format.binary64.exponentBias + (52 : ℕ) = 1 := rfl
  have hfits : ¬ 2 ^ 11 ≤ (1 : ℤ).toNat + 1 := by decide
  have hshort : ¬ mantissa.log2 + 1 = 53 := by omega
  simp only [UnpackedFloat.pack, hbias, mantissaBits_binary64, if_neg hfits, if_neg hshort]

/-! ## Canonical numbers -/

/-- The mantissa has 53 bits, or fewer at the least exponent. -/
structure Canonical (mantissa : ℕ) (exponent : ℤ) : Prop where
  upper : mantissa < 2 ^ 53
  lower : 2 ^ 52 ≤ mantissa ∨ exponent = -1074
  exponentLower : -1074 ≤ exponent
  exponentUpper : exponent ≤ 971

/-- A canonical number is not changed when it is packed. -/
theorem Canonical.unpacked_packed {mantissa : ℕ} {exponent : ℤ} (h : Canonical mantissa exponent)
    (sign : Sign) (hpos : 0 < mantissa) :
    unpacked (packed (.finite sign mantissa exponent hpos)) =
      .finite sign mantissa exponent hpos := by
  obtain ⟨hupper, hlower, hleast, hmost⟩ := h
  change UnpackedFloat.unpack .binary64 (UnpackedFloat.pack .binary64 _) = _
  by_cases hnormal : 2 ^ 52 ≤ mantissa
  · have hexponent : (BitVec.ofNat 11 (exponent + 1075).toNat).toNat = (exponent + 1075).toNat := by
      rw [BitVec.toNat_ofNat]
      omega
    have hmantissa : (BitVec.ofNat 52 mantissa).toNat = mantissa - 2 ^ 52 := by
      rw [BitVec.toNat_ofNat]
      omega
    have hfinite : BitVec.ofNat 11 (exponent + 1075).toNat ≠ -1#11 := by
      intro h
      rw [h] at hexponent
      have hones : (-1#11).toNat = 2047 := rfl
      omega
    have hzero : BitVec.ofNat 11 (exponent + 1075).toNat ≠ 0#11 := by
      intro h
      rw [h] at hexponent
      have hzeros : (0#11).toNat = 0 := rfl
      omega
    rw [pack_normal hpos hnormal hupper hmost, unpack_normal sign hfinite hzero]
    simp only [hexponent, hmantissa, UnpackedFloat.finite.injEq, true_and]
    omega
  · obtain rfl := hlower.resolve_left hnormal
    have hmantissa : (BitVec.ofNat 52 mantissa).toNat = mantissa := by
      rw [BitVec.toNat_ofNat]
      omega
    have hzero : BitVec.ofNat 52 mantissa ≠ 0#52 := by
      intro h
      rw [h] at hmantissa
      have hzeros : (0#52).toNat = 0 := rfl
      omega
    rw [pack_subnormal hpos (not_le.mp hnormal), unpack_subnormal sign hzero]
    simp only [hmantissa]

/-- The finite numbers that words hold are canonical. -/
theorem canonical_of_unpack {word : BitVec Format.binary64.numBits} {sign : Sign}
    {mantissa : ℕ} {exponent : ℤ} {hpos : 0 < mantissa}
    (h : UnpackedFloat.unpack .binary64 word = .finite sign mantissa exponent hpos) :
    Canonical mantissa exponent := by
  have hmantissaLt : (unpackMantissa word).toNat < 2 ^ 52 := (unpackMantissa word).isLt
  have hexponentLt : (unpackExponent word).toNat < 2 ^ 11 := (unpackExponent word).isLt
  rw [← packComponents_unpackSign_unpackExponent_unpackMantissa word] at h
  by_cases hinfinite : unpackExponent word = -1#11
  · rw [hinfinite] at h
    simp only [UnpackedFloat.unpack, unpackExponent_packComponents, if_true] at h
    split at h <;> cases h
  · by_cases hsmall : unpackExponent word = 0#11
    · by_cases hmantissa : unpackMantissa word = 0#52
      · rw [hsmall, hmantissa] at h
        cases hsign : Sign.ofBitVec (unpackSign word) <;> rw [hsign] at h <;> cases h
      · rw [hsmall, unpack_subnormal _ hmantissa] at h
        cases h
        exact ⟨by omega, .inr rfl, le_refl _, by decide⟩
    · rw [unpack_normal _ hinfinite hsmall] at h
      have hzero : (unpackExponent word).toNat ≠ 0 := fun heq => hsmall (BitVec.eq_of_toNat_eq heq)
      have hones : (unpackExponent word).toNat ≠ 2047 := fun heq =>
        hinfinite (BitVec.eq_of_toNat_eq heq)
      cases h
      exact ⟨by omega, .inl (by omega), by omega, by omega⟩

/-! ## Shifts -/

/-- A power of two as a multiple of a lower one. -/
theorem two_zpow_eq {low high : ℤ} (hle : low ≤ high) :
    (2 : ℚ) ^ high = 2 ^ (high - low).toNat * 2 ^ low := by
  have htwo : (2 : ℚ) ≠ 0 := by norm_num
  rw [← zpow_natCast, ← zpow_add₀ htwo]
  congr 1
  omega

/-- The exponent a number is rounded to. -/
def target (mantissa : ℕ) (exponent : ℤ) : ℤ :=
  Format.binary64.targetExponent (totalExponent mantissa exponent)

theorem target_eq (mantissa : ℕ) (exponent : ℤ) :
    target mantissa exponent = max (mantissa.log2 + exponent - 52) (-1074) := by
  have hleast : Format.binary64.minExponent = -1074 := rfl
  rw [target, Format.targetExponent, totalExponent, hleast, mantissaBits_binary64]
  congr 1
  omega

theorem log2_mul_two_pow {mantissa : ℕ} (hpos : 0 < mantissa) (shift : ℕ) :
    (mantissa * 2 ^ shift).log2 = mantissa.log2 + shift := by
  induction shift with
  | zero => simp
  | succ shift ih =>
      have hdouble : mantissa * 2 ^ (shift + 1) = 2 * (mantissa * 2 ^ shift) := by ring
      have hne : mantissa * 2 ^ shift ≠ 0 := (Nat.mul_pos hpos (Nat.two_pow_pos shift)).ne'
      rw [hdouble, Nat.log2_two_mul hne, ih]
      ring

/-- Moving a power of two into the exponent. -/
theorem target_mul_two_pow {mantissa : ℕ} (hpos : 0 < mantissa) (shift : ℕ) (exponent : ℤ) :
    target (mantissa * 2 ^ shift) exponent = target mantissa (exponent + shift) := by
  rw [target_eq, target_eq, log2_mul_two_pow hpos]
  push_cast
  congr 2
  ring

/-- Only zeros are shifted out of a multiple of the power of two. -/
theorem repeat_shiftRightOne (shift mantissa : ℕ) :
    shift.repeat ExtendedMantissa.shiftRightOne ⟨mantissa * 2 ^ shift, false, false⟩ =
      ⟨mantissa, false, false⟩ := by
  induction shift generalizing mantissa with
  | zero => simp [Nat.repeat]
  | succ shift ih =>
      have hdouble : mantissa * 2 ^ (shift + 1) = 2 * mantissa * 2 ^ shift := by ring
      rw [Nat.repeat, hdouble, ih]
      simp [ExtendedMantissa.shiftRightOne]

theorem shiftToTargetExponent_mul_two_pow {mantissa shift : ℕ} {exponent : ℤ}
    (htarget : target (mantissa * 2 ^ shift) exponent = exponent + shift) :
    shiftToTargetExponent .binary64 (mantissa * 2 ^ shift) exponent .exact =
      (⟨mantissa, false, false⟩, exponent + shift) := by
  rw [target] at htarget
  have hshift : (exponent + shift - exponent).toNat = shift := by omega
  simp only [shiftToTargetExponent, shiftToExponent, htarget, hshift,
    ExtendedMantissa.ofMantissaAndAccuracy, Prod.mk.injEq, and_true]
  exact repeat_shiftRightOne shift mantissa

theorem shiftToTargetExponent_of_le {mantissa : ℕ} {exponent : ℤ}
    (h : target mantissa exponent ≤ exponent) :
    shiftToTargetExponent .binary64 mantissa exponent .exact =
      (⟨mantissa, false, false⟩, exponent) := by
  rw [target] at h
  have hshift : (Format.binary64.targetExponent (totalExponent mantissa exponent) -
      exponent).toNat = 0 := by omega
  simp only [shiftToTargetExponent, shiftToExponent, hshift,
    ExtendedMantissa.ofMantissaAndAccuracy, Nat.cast_zero, add_zero, Prod.mk.injEq, and_true]
  rfl

/-- A number whose last bits are zero is rounded exactly. -/
theorem roundWithAccuracy_mul_two_pow (sign : Sign) {mantissa shift : ℕ} {exponent : ℤ}
    (hpos : 0 < mantissa)
    (htarget : target (mantissa * 2 ^ shift) exponent = exponent + shift) :
    roundWithAccuracy .binary64 sign (mantissa * 2 ^ shift) exponent .exact =
      .finite sign mantissa (exponent + shift) hpos := by
  have hsecond : target mantissa (exponent + shift) ≤ exponent + shift := by
    rw [← target_mul_two_pow hpos, htarget]
  have hrounded : (⟨mantissa, false, false⟩ : ExtendedMantissa).roundedMantissa = mantissa := rfl
  simp only [roundWithAccuracy, shiftToTargetExponent_mul_two_pow htarget, hrounded,
    shiftToTargetExponent_of_le hsecond, hpos.ne', dif_neg, not_false_eq_true]

/-! ## Rounding -/

/-- A mantissa and the one it is shifted to at the exponent of the target. -/
def Shifted (mantissa : ℕ) (exponent : ℤ) (rounded : ℕ) : Prop :=
  mantissa * 2 ^ (exponent - target mantissa exponent).toNat =
    rounded * 2 ^ (target mantissa exponent - exponent).toNat

section Shifted

variable {mantissa rounded : ℕ} {exponent : ℤ}

/-- Nothing but zeros is shifted out, so the number is rounded exactly. -/
theorem Shifted.round_eq (h : Shifted mantissa exponent rounded) (hmantissa : 0 < mantissa)
    (hpos : 0 < rounded) (sign : Sign) :
    UnpackedFloat.round .binary64 sign mantissa exponent =
      .finite sign rounded (target mantissa exponent) hpos := by
  rw [Shifted] at h
  obtain ⟨left, hleft⟩ : ∃ left, left = (exponent - target mantissa exponent).toNat := ⟨_, rfl⟩
  obtain ⟨right, hright⟩ : ∃ right, right = (target mantissa exponent - exponent).toNat := ⟨_, rfl⟩
  rw [← hleft, ← hright] at h
  have hsum : exponent - left + right = target mantissa exponent := by omega
  have htarget : target (rounded * 2 ^ right) (exponent - left) = exponent - left + right := by
    rw [← h, target_mul_two_pow hmantissa, sub_add_cancel, hsum]
  have hround := roundWithAccuracy_mul_two_pow sign hpos htarget
  rw [UnpackedFloat.round, ← target, decreaseExponent, ← hleft, Nat.shiftLeft_eq, h]
  simp only [hround, hsum]

theorem Shifted.canonical (h : Shifted mantissa exponent rounded) (hmantissa : 0 < mantissa)
    (hpos : 0 < rounded) (hmost : target mantissa exponent ≤ 971) :
    Canonical rounded (target mantissa exponent) := by
  have hlog := congrArg Nat.log2 h
  rw [log2_mul_two_pow hmantissa, log2_mul_two_pow hpos] at hlog
  have htarget := target_eq mantissa exponent
  refine ⟨(Nat.log2_lt hpos.ne').mp (by omega), ?_, by omega, hmost⟩
  rw [← Nat.le_log2 hpos.ne']
  omega

theorem Shifted.value_eq (h : Shifted mantissa exponent rounded) :
    (rounded : ℚ) * 2 ^ target mantissa exponent = mantissa * 2 ^ exponent := by
  have hcast : (mantissa : ℚ) * 2 ^ (exponent - target mantissa exponent).toNat =
      rounded * 2 ^ (target mantissa exponent - exponent).toNat := by
    exact_mod_cast h
  rcases le_total (target mantissa exponent) exponent with hle | hle
  · have hnone : (target mantissa exponent - exponent).toNat = 0 := by omega
    rw [hnone, pow_zero, mul_one] at hcast
    rw [two_zpow_eq hle, ← mul_assoc, hcast]
  · have hnone : (exponent - target mantissa exponent).toNat = 0 := by omega
    rw [hnone, pow_zero, mul_one] at hcast
    rw [two_zpow_eq hle, ← mul_assoc, hcast]

/-- A short mantissa is filled up with zeros. -/
theorem shifted_of_target_le (h : target mantissa exponent ≤ exponent) :
    Shifted mantissa exponent (mantissa * 2 ^ (exponent - target mantissa exponent).toNat) := by
  have hnone : (target mantissa exponent - exponent).toNat = 0 := by omega
  rw [Shifted, hnone, pow_zero, mul_one]

end Shifted

/-- Equal numbers, the second with the larger exponent. -/
theorem eq_mul_two_pow {first second : ℕ} {low high : ℤ} (hle : low ≤ high)
    (h : (first : ℚ) * 2 ^ low = second * 2 ^ high) :
    first = second * 2 ^ (high - low).toNat := by
  have hlow : (2 : ℚ) ^ low ≠ 0 := by positivity
  rw [two_zpow_eq hle, ← mul_assoc] at h
  exact_mod_cast mul_right_cancel₀ hlow h

/-- A number that is the value of a double is shifted without a loss. -/
theorem exists_shifted {mantissa : ℕ} {exponent : ℤ} (hpos : 0 < mantissa)
    (hrepresentable : Representable (mantissa * 2 ^ exponent)) :
    target mantissa exponent ≤ 971 ∧
      ∃ rounded, 0 < rounded ∧ Shifted mantissa exponent rounded := by
  obtain ⟨signed, high, hlt, hleast, hmost, heq⟩ := hrepresentable
  have hsigned : 0 < signed := by
    have hvalue : (0 : ℚ) < signed * 2 ^ high := by
      rw [← heq]
      positivity
    exact_mod_cast pos_of_mul_pos_left hvalue (by positivity)
  obtain ⟨size, rfl⟩ := Int.eq_ofNat_of_zero_le hsigned.le
  have hsize : 0 < size := by omega
  have hlogSize : size.log2 < 53 := (Nat.log2_lt hsize.ne').mpr (by simpa using hlt)
  rw [Int.cast_natCast] at heq
  have htarget := target_eq mantissa exponent
  have hhigh : target mantissa exponent ≤ high := by
    rcases le_total exponent high with hle | hle
    · have hlog := log2_mul_two_pow hsize (high - exponent).toNat
      rw [← eq_mul_two_pow hle heq] at hlog
      omega
    · have hlog := log2_mul_two_pow hpos (exponent - high).toNat
      rw [← eq_mul_two_pow hle heq.symm] at hlog
      omega
  refine ⟨hhigh.trans hmost, ?_⟩
  rcases le_or_gt (target mantissa exponent) exponent with hshort | hlong
  · exact ⟨_, Nat.mul_pos hpos (Nat.two_pow_pos _), shifted_of_target_le hshort⟩
  · refine ⟨size * 2 ^ (high - target mantissa exponent).toNat,
      Nat.mul_pos hsize (Nat.two_pow_pos _), ?_⟩
    have hnone : (exponent - target mantissa exponent).toNat = 0 := by omega
    have hsum : (high - exponent).toNat = (high - target mantissa exponent).toNat +
        (target mantissa exponent - exponent).toNat := by omega
    rw [Shifted, hnone, pow_zero, mul_one, mul_assoc, ← pow_add, ← hsum]
    exact eq_mul_two_pow (hlong.le.trans hhigh) heq

/-! ## Exact results -/

theorem unpackedValue_finite (sign : Sign) {mantissa : ℕ} {exponent : ℤ} (hpos : 0 < mantissa) :
    unpackedValue (.finite sign mantissa exponent hpos) =
      (sign.apply 1 : ℤ) * (mantissa * 2 ^ exponent) := by
  cases sign <;> simp [unpackedValue, Sign.apply]

theorem unpackedValue_neg (sign : Sign) {mantissa : ℕ} {exponent : ℤ} (hpos : 0 < mantissa) :
    unpackedValue (.finite (-sign) mantissa exponent hpos) =
      -unpackedValue (.finite sign mantissa exponent hpos) := by
  have hsign : (-sign).apply 1 = -sign.apply 1 := by cases sign <;> rfl
  rw [unpackedValue_finite, unpackedValue_finite, hsign]
  push_cast
  ring

/-- Rounding a number that is the value of a double. -/
theorem unpackedValue_round (sign : Sign) {mantissa : ℕ} {exponent : ℤ} (hpos : 0 < mantissa)
    (hrepresentable : Representable (mantissa * 2 ^ exponent)) :
    value (packed (UnpackedFloat.round .binary64 sign mantissa exponent)) =
      (sign.apply 1 : ℤ) * (mantissa * 2 ^ exponent) := by
  obtain ⟨hmost, rounded, hrounded, hshifted⟩ := exists_shifted hpos hrepresentable
  rw [hshifted.round_eq hpos hrounded, value,
    (hshifted.canonical hpos hrounded hmost).unpacked_packed, unpackedValue_finite,
    hshifted.value_eq]

theorem Representable.neg {q : ℚ} (h : Representable q) : Representable (-q) := by
  obtain ⟨mantissa, exponent, hlt, hleast, hmost, rfl⟩ := h
  refine ⟨-mantissa, exponent, by omega, hleast, hmost, ?_⟩
  push_cast
  ring

/-- Rounding a signed number that is the value of a double. -/
theorem value_normalize {mantissa exponent : ℤ} {zeroSign : Sign}
    (hrepresentable : Representable (mantissa * 2 ^ exponent)) :
    value (packed (UnpackedFloat.normalize .binary64 mantissa exponent zeroSign)) =
      mantissa * 2 ^ exponent := by
  rw [UnpackedFloat.normalize]
  rcases lt_trichotomy mantissa 0 with hneg | rfl | hpos
  · obtain ⟨size, hsize⟩ := Int.eq_ofNat_of_zero_le (neg_nonneg.mpr hneg.le)
    obtain rfl : mantissa = -size := by omega
    have hcompare : compare (-(size : ℤ)) 0 = .lt := Int.compare_eq_lt.mpr hneg
    have hopposite := hrepresentable.neg
    push_cast at hopposite
    rw [neg_mul, neg_neg] at hopposite
    rw [hcompare]
    simp only [neg_neg, Int.toNat_natCast]
    rw [unpackedValue_round .negative (by omega) hopposite]
    simp [Sign.apply]
  · have hcompare : compare (0 : ℤ) 0 = .eq := rfl
    rw [hcompare]
    cases zeroSign <;> simp <;> rfl
  · obtain ⟨size, rfl⟩ := Int.eq_ofNat_of_zero_le hpos.le
    have hcompare : compare (size : ℤ) 0 = .gt := Int.compare_eq_gt.mpr hpos
    rw [hcompare]
    simp only [Int.toNat_natCast]
    rw [Int.cast_natCast] at hrepresentable ⊢
    rw [unpackedValue_round .positive (by omega) hrepresentable]
    simp [Sign.apply]

theorem value_of_isZero {x : Float} (h : IsZero x) : value x = 0 := by
  obtain ⟨sign, hzero⟩ := h.exists_eq
  rw [value, hzero]
  rfl

/-- A finite double is zero or holds a canonical number. -/
theorem exists_finite {x : Float} (hfinite : x.isFinite) (hzero : ¬ IsZero x) :
    ∃ sign mantissa exponent hpos, unpacked x = .finite sign mantissa exponent hpos ∧
      Canonical mantissa exponent := by
  rw [isFinite_eq] at hfinite
  cases hx : unpacked x with
  | infinity sign => simp [hx, UnpackedFloat.isFinite] at hfinite
  | notANumber => simp [hx, UnpackedFloat.isFinite] at hfinite
  | zero sign => exact absurd (hx ▸ .zero sign : Null (unpacked x)) hzero
  | finite sign mantissa exponent hpos =>
      exact ⟨sign, mantissa, exponent, hpos, rfl, canonical_of_unpack hx⟩

/-- A number with its mantissa shifted to a lower exponent. -/
theorem apply_shiftLeft (sign : Sign) (mantissa : ℕ) {low exponent : ℤ} (hle : low ≤ exponent) :
    ((sign.apply (mantissa <<< (exponent - low).toNat : ℕ) : ℤ) : ℚ) * 2 ^ low =
      (sign.apply mantissa : ℤ) * 2 ^ exponent := by
  rw [Nat.shiftLeft_eq, two_zpow_eq hle]
  cases sign <;> simp only [Sign.apply] <;> push_cast <;> ring

section Exact

variable {x y : Float}

/-- A sum that is the value of a double is computed exactly. -/
theorem value_add (hx : x.isFinite) (hy : y.isFinite)
    (hrepresentable : Representable (value x + value y)) :
    value (x + y) = value x + value y := by
  by_cases hxZero : IsZero x
  · rw [value_of_isZero hxZero, zero_add, add_eq]
    by_cases hyZero : IsZero y
    · rw [value_of_isZero (null_add _ hxZero hyZero).isZero_packed, value_of_isZero hyZero]
    · rw [add_of_null_left _ hxZero hyZero, packed_unpacked]
  · by_cases hyZero : IsZero y
    · rw [value_of_isZero hyZero, add_zero, add_eq, add_of_null_right _ hxZero hyZero,
        packed_unpacked]
    · obtain ⟨sign, mantissa, exponent, hpos, hxEq, -⟩ := exists_finite hx hxZero
      obtain ⟨sign', mantissa', exponent', hpos', hyEq, -⟩ := exists_finite hy hyZero
      have hfirst := apply_shiftLeft sign mantissa (min_le_left exponent exponent')
      have hsecond := apply_shiftLeft sign' mantissa' (min_le_right exponent exponent')
      have hsum : value x + value y =
          ((sign.apply (mantissa <<< (exponent - min exponent exponent').toNat : ℕ) +
            sign'.apply (mantissa' <<< (exponent' - min exponent exponent').toNat : ℕ) : ℤ) : ℚ) *
              2 ^ min exponent exponent' := by
        rw [Int.cast_add, add_mul, hfirst, hsecond, value, value, hxEq, hyEq, unpackedValue,
          unpackedValue]
      rw [hsum] at hrepresentable ⊢
      rw [add_eq, hxEq, hyEq]
      exact value_normalize hrepresentable

/-- A difference that is the value of a double is computed exactly. -/
theorem value_sub (hx : x.isFinite) (hy : y.isFinite)
    (hrepresentable : Representable (value x - value y)) :
    value (x - y) = value x - value y := by
  by_cases hyZero : IsZero y
  · rw [value_of_isZero hyZero, sub_zero, sub_eq]
    by_cases hxZero : IsZero x
    · rw [value_of_isZero (null_sub _ hxZero hyZero).isZero_packed, value_of_isZero hxZero]
    · rw [sub_of_null_right _ hxZero hyZero, packed_unpacked]
  · obtain ⟨sign', mantissa', exponent', hpos', hyEq, hcanonical⟩ := exists_finite hy hyZero
    by_cases hxZero : IsZero x
    · obtain ⟨sign, hxEq⟩ := hxZero.exists_eq
      have hopposite : UnpackedFloat.sub .binary64 (.zero sign)
          (.finite sign' mantissa' exponent' hpos') =
            .finite (-sign') mantissa' exponent' hpos' := rfl
      rw [value_of_isZero hxZero, zero_sub, sub_eq, hxEq, hyEq, hopposite, value,
        hcanonical.unpacked_packed, value, hyEq, unpackedValue_neg]
    · obtain ⟨sign, mantissa, exponent, hpos, hxEq, -⟩ := exists_finite hx hxZero
      have hfirst := apply_shiftLeft sign mantissa (min_le_left exponent exponent')
      have hsecond := apply_shiftLeft sign' mantissa' (min_le_right exponent exponent')
      have hdifference : value x - value y =
          ((sign.apply (mantissa <<< (exponent - min exponent exponent').toNat : ℕ) -
            sign'.apply (mantissa' <<< (exponent' - min exponent exponent').toNat : ℕ) : ℤ) : ℚ) *
              2 ^ min exponent exponent' := by
        rw [Int.cast_sub, sub_mul, hfirst, hsecond, value, value, hxEq, hyEq, unpackedValue,
          unpackedValue]
      rw [hdifference] at hrepresentable ⊢
      rw [sub_eq, hxEq, hyEq]
      exact value_normalize hrepresentable

end Exact

/-! ## Conversions of integers -/

theorem natCast_eq (n : ℕ) :
    (n : Float) = packed (UnpackedFloat.normalize .binary64 n 0 .positive) := rfl

/-- A whole number that is the value of a double is converted exactly. -/
theorem value_natCast {n : ℕ} (hrepresentable : Representable n) : value (n : Float) = n := by
  have hexact : Representable ((n : ℤ) * 2 ^ (0 : ℤ)) := by simpa using hrepresentable
  rw [natCast_eq, value_normalize hexact]
  simp

theorem value_natCast_of_le {n : ℕ} (h : n ≤ 2 ^ 53) : value (n : Float) = n := by
  have hwhole := representable_of_natAbs_le (n := n) (by simpa using h)
  exact value_natCast (by simpa using hwhole)

/-! ### Conversions that round -/

theorem mantissa_repeat_shiftRightOne (shift : ℕ) (extended : ExtendedMantissa) :
    (shift.repeat ExtendedMantissa.shiftRightOne extended).mantissa =
      extended.mantissa / 2 ^ shift := by
  induction shift with
  | zero => simp [Nat.repeat]
  | succ shift ih => rw [Nat.repeat, ExtendedMantissa.shiftRightOne, ih, Nat.div_div_eq_div_mul,
      pow_succ]

/-- Rounding goes to one of the two neighbours. -/
theorem roundedMantissa_bounds (extended : ExtendedMantissa) :
    extended.mantissa ≤ extended.roundedMantissa ∧
      extended.roundedMantissa ≤ extended.mantissa + 1 := by
  obtain ⟨mantissa, roundBit, stickyBit⟩ := extended
  cases roundBit <;> cases stickyBit <;>
    simp only [ExtendedMantissa.roundedMantissa, ExtendedMantissa.accuracy,
      Accuracy.roundToNearestEven] <;> omega

/-- A long mantissa is rounded to 53 bits, or carried to the next power of two. -/
theorem exists_round_of_lt (sign : Sign) {mantissa : ℕ} {exponent : ℤ}
    (hleast : -1074 ≤ exponent) (hlong : exponent < target mantissa exponent)
    (hmost : target mantissa exponent < 971) :
    ∃ rounded next hpos, Canonical rounded next ∧
      UnpackedFloat.round .binary64 sign mantissa exponent = .finite sign rounded next hpos := by
  have htarget := target_eq mantissa exponent
  have hne : mantissa ≠ 0 := by
    rintro rfl
    simp at htarget
    omega
  obtain ⟨shift, hshift⟩ : ∃ shift, shift = (target mantissa exponent - exponent).toNat := ⟨_, rfl⟩
  have hlower : 2 ^ 52 ≤ mantissa / 2 ^ shift := by
    rw [Nat.le_div_iff_mul_le (Nat.two_pow_pos shift), ← pow_add, ← Nat.le_log2 hne]
    omega
  have hupper : mantissa / 2 ^ shift < 2 ^ 53 := by
    rw [Nat.div_lt_iff_lt_mul (Nat.two_pow_pos shift), ← pow_add, ← Nat.log2_lt hne]
    omega
  obtain ⟨extended, hextended⟩ : ∃ extended, extended =
      shift.repeat ExtendedMantissa.shiftRightOne ⟨mantissa, false, false⟩ := ⟨_, rfl⟩
  obtain ⟨hbelow, habove⟩ := roundedMantissa_bounds extended
  rw [hextended, mantissa_repeat_shiftRightOne, ← hextended] at hbelow habove
  dsimp only at hbelow habove
  have hround : UnpackedFloat.round .binary64 sign mantissa exponent =
      roundWithAccuracy .binary64 sign mantissa exponent .exact := by
    have hnone : (exponent - target mantissa exponent).toNat = 0 := by omega
    rw [UnpackedFloat.round, ← target, decreaseExponent, hnone]
    simp
  have hfirst : shiftToTargetExponent .binary64 mantissa exponent .exact =
      (extended, target mantissa exponent) := by
    have hsum : exponent + shift = target mantissa exponent := by omega
    rw [shiftToTargetExponent, shiftToExponent, ← target, ← hshift, hsum, hextended]
    rfl
  rw [hround]
  rcases (habove.trans (Nat.succ_le_of_lt hupper)).lt_or_eq with hlt | hcarry
  · have hpos : 0 < extended.roundedMantissa := by omega
    have hlog : extended.roundedMantissa.log2 = 52 :=
      (Nat.log2_eq_iff hpos.ne').mpr ⟨hlower.trans hbelow, hlt⟩
    have hsecond : target extended.roundedMantissa (target mantissa exponent) ≤
        target mantissa exponent := by
      rw [target_eq, hlog]
      omega
    refine ⟨extended.roundedMantissa, target mantissa exponent, hpos,
      ⟨hlt, .inl (hlower.trans hbelow), by omega, by omega⟩, ?_⟩
    simp only [roundWithAccuracy, hfirst, shiftToTargetExponent_of_le hsecond, hpos.ne',
      dif_neg, not_false_eq_true]
  · have hdouble : extended.roundedMantissa = 2 ^ 52 * 2 ^ 1 := hcarry
    have hsecond : target (2 ^ 52 * 2 ^ 1) (target mantissa exponent) =
        target mantissa exponent + (1 : ℕ) := by
      rw [target_eq (2 ^ 52 * 2 ^ 1), log2_mul_two_pow (by decide), Nat.log2_two_pow]
      omega
    refine ⟨2 ^ 52, target mantissa exponent + (1 : ℕ), by decide,
      ⟨by decide, .inl (le_refl _), by omega, by omega⟩, ?_⟩
    simp only [roundWithAccuracy, hfirst, hdouble, shiftToTargetExponent_mul_two_pow hsecond]
    rfl

/-- A positive 64-bit integer becomes a canonical number. -/
theorem exists_unpacked_natCast {n : ℕ} (hpos : 0 < n) (hlt : n < 2 ^ 64) :
    ∃ rounded next h, Canonical rounded next ∧
      unpacked (n : Float) = .finite .positive rounded next h := by
  have hlog : n.log2 < 64 := (Nat.log2_lt hpos.ne').mpr hlt
  have htarget := target_eq n 0
  have hround : ∃ rounded next h, Canonical rounded next ∧
      UnpackedFloat.round .binary64 .positive n 0 = .finite .positive rounded next h := by
    rcases le_or_gt (target n 0) 0 with hshort | hlong
    · have hshifted := shifted_of_target_le hshort
      have hrounded := Nat.mul_pos hpos (Nat.two_pow_pos (0 - target n 0).toNat)
      exact ⟨_, _, hrounded, hshifted.canonical hpos hrounded (by omega),
        hshifted.round_eq hpos hrounded .positive⟩
    · exact exists_round_of_lt .positive (by decide) hlong (by omega)
  obtain ⟨rounded, next, h, hcanonical, hround⟩ := hround
  have hcompare : compare (n : ℤ) 0 = .gt := Int.compare_eq_gt.mpr (by omega)
  refine ⟨rounded, next, h, hcanonical, ?_⟩
  rw [natCast_eq, UnpackedFloat.normalize, hcompare]
  simp only [Int.toNat_natCast, hround]
  exact hcanonical.unpacked_packed .positive h

theorem isFinite_natCast {n : ℕ} (hlt : n < 2 ^ 64) : (n : Float).isFinite := by
  rcases n.eq_zero_or_pos with rfl | hpos
  · decide +kernel
  · obtain ⟨rounded, next, h, -, hunpacked⟩ := exists_unpacked_natCast hpos hlt
    rw [isFinite_eq, hunpacked]
    rfl

/-- Only zero is converted to zero. -/
theorem value_natCast_eq_zero_iff {n : ℕ} (hlt : n < 2 ^ 64) :
    value (n : Float) = 0 ↔ n = 0 := by
  rcases n.eq_zero_or_pos with rfl | hpos
  · simp [value_of_isZero isZero_natCast_zero]
  · obtain ⟨rounded, next, h, -, hunpacked⟩ := exists_unpacked_natCast hpos hlt
    have hrounded : (rounded : ℚ) * 2 ^ next ≠ 0 := by positivity
    refine iff_of_false ?_ hpos.ne'
    rw [value, hunpacked, unpackedValue_finite]
    simpa [Sign.apply] using hrounded

end CryptoBot.Math.Doubles

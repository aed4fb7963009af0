/-
# Double-precision numbers up to the sign of zero

`Float` is IEEE binary64: an operation unpacks its arguments, computes and packs the
result.  A program that adds nothing to a number, or multiplies by nothing, gets the
number back only up to the sign of a zero.  The two zeros compare equal, and they behave
alike in sums, differences, products and dividends, so `Same` takes them as one.

Every law here is a case analysis on the kinds of numbers.  None depends on rounding.
-/

import Mathlib

namespace CryptoBot.Math.Doubles

open Float.Model Float.Model.UnpackedFloat

/-! ## Conversions -/

/-- The conversion of an unsigned integer. -/
instance natCastFloat : NatCast Float := ⟨fun n => .ofModel (.ofNat n)⟩

/-- The conversion of a signed integer. -/
instance intCastFloat : IntCast Float := ⟨fun n => .ofModel (.ofInt n)⟩

/-! ## Kinds of numbers -/

def unpacked (x : Float) : UnpackedFloat := x.toModel.unpack

def packed (u : UnpackedFloat) : Float := .ofModel (Float.Model.pack u)

@[simp]
theorem packed_unpacked (x : Float) : packed (unpacked x) = x := by
  obtain ⟨⟨bits, hvalid⟩⟩ := x
  have hword := pack_unpack_of_valid hvalid
  simp only [packed, unpacked, Float.Model.pack, Float.Model.unpack, Float.ofModel.injEq,
    Float.Model.mk.injEq]
  exact UInt64.toBitVec_inj.mp hword

theorem add_eq (x y : Float) : x + y = packed (.add .binary64 (unpacked x) (unpacked y)) := rfl

theorem sub_eq (x y : Float) : x - y = packed (.sub .binary64 (unpacked x) (unpacked y)) := rfl

theorem isFinite_eq (x : Float) : x.isFinite = (unpacked x).isFinite := rfl

/-- One of the two zeros. -/
inductive Null : UnpackedFloat → Prop
  | zero (sign : Sign) : Null (.zero sign)

theorem Null.exists_eq {u : UnpackedFloat} (h : Null u) : ∃ sign, u = .zero sign := by
  obtain ⟨sign⟩ := h
  exact ⟨sign, rfl⟩

def IsZero (x : Float) : Prop := Null (unpacked x)

instance : DecidablePred Null
  | .zero sign => isTrue (.zero sign)
  | .infinity _ => isFalse nofun
  | .notANumber => isFalse nofun
  | .finite _ _ _ _ => isFalse nofun

instance : DecidablePred IsZero := fun x => inferInstanceAs (Decidable (Null (unpacked x)))

/-! ## Zeros in operations -/

section Zeros

variable (spec : Format) {u v : UnpackedFloat}

theorem null_add (hu : Null u) (hv : Null v) : Null (.add spec u v) := by
  obtain ⟨sign⟩ := hu
  obtain ⟨other⟩ := hv
  simp only [UnpackedFloat.add]
  split <;> exact .zero _

theorem null_sub (hu : Null u) (hv : Null v) : Null (.sub spec u v) := by
  obtain ⟨sign⟩ := hu
  obtain ⟨other⟩ := hv
  simp only [UnpackedFloat.sub]
  split <;> exact .zero _

theorem null_mul_left (hu : Null u) (hv : v.isFinite) : Null (.mul spec u v) := by
  obtain ⟨sign⟩ := hu
  cases v with
  | infinity other => cases hv
  | notANumber => cases hv
  | zero other => exact .zero _
  | finite other mantissa exponent hpos => exact .zero _

/-- A zero adds nothing to another number. -/
theorem add_of_null_left (hu : Null u) (hv : ¬ Null v) : UnpackedFloat.add spec u v = v := by
  obtain ⟨sign⟩ := hu
  cases v with
  | infinity other => rfl
  | notANumber => rfl
  | zero other => exact absurd (.zero other) hv
  | finite other mantissa exponent hpos => rfl

theorem add_of_null_right (hu : ¬ Null u) (hv : Null v) : UnpackedFloat.add spec u v = u := by
  obtain ⟨sign⟩ := hv
  cases u with
  | infinity other => rfl
  | notANumber => rfl
  | zero other => exact absurd (.zero other) hu
  | finite other mantissa exponent hpos => rfl

theorem sub_of_null_right (hu : ¬ Null u) (hv : Null v) : UnpackedFloat.sub spec u v = u := by
  obtain ⟨sign⟩ := hv
  cases u with
  | infinity other => rfl
  | notANumber => rfl
  | zero other => exact absurd (.zero other) hu
  | finite other mantissa exponent hpos => rfl

end Zeros

/-! ## Equal numbers -/

/-- The same number, or both zero. -/
def Alike (u v : UnpackedFloat) : Prop := u = v ∨ Null u ∧ Null v

section Alike

variable (spec : Format) {u v u' v' : UnpackedFloat}

theorem Alike.refl (u : UnpackedFloat) : Alike u u := .inl rfl

theorem alike_add (hu : Alike u u') (hv : Alike v v') :
    Alike (.add spec u v) (.add spec u' v') := by
  rcases hu with rfl | ⟨hu, hu'⟩ <;> rcases hv with rfl | ⟨hv, hv'⟩
  · exact .refl _
  · by_cases hnull : Null u
    · exact .inr ⟨null_add spec hnull hv, null_add spec hnull hv'⟩
    · rw [add_of_null_right spec hnull hv, add_of_null_right spec hnull hv']
      exact .refl _
  · by_cases hnull : Null v
    · exact .inr ⟨null_add spec hu hnull, null_add spec hu' hnull⟩
    · rw [add_of_null_left spec hu hnull, add_of_null_left spec hu' hnull]
      exact .refl _
  · exact .inr ⟨null_add spec hu hv, null_add spec hu' hv'⟩

theorem alike_sub (hu : Alike u u') (hv : Alike v v') :
    Alike (.sub spec u v) (.sub spec u' v') := by
  rcases hu with rfl | ⟨⟨sign⟩, ⟨sign'⟩⟩ <;> rcases hv with rfl | ⟨⟨other⟩, ⟨other'⟩⟩
  · exact .refl _
  · cases u with
    | zero sign => exact .inr ⟨null_sub spec (.zero _) (.zero _), null_sub spec (.zero _) (.zero _)⟩
    | infinity sign => exact .refl _
    | notANumber => exact .refl _
    | finite sign mantissa exponent hpos => exact .refl _
  · cases v with
    | zero other =>
        exact .inr ⟨null_sub spec (.zero _) (.zero _), null_sub spec (.zero _) (.zero _)⟩
    | infinity other => exact .refl _
    | notANumber => exact .refl _
    | finite other mantissa exponent hpos => exact .refl _
  · exact .inr ⟨null_sub spec (.zero _) (.zero _), null_sub spec (.zero _) (.zero _)⟩

/-- A zero factor gives a zero, whatever its sign, unless the other factor is infinite. -/
theorem alike_mul_left (hu : Alike u u') (v : UnpackedFloat) :
    Alike (.mul spec u v) (.mul spec u' v) := by
  rcases hu with rfl | ⟨⟨sign⟩, ⟨sign'⟩⟩
  · exact .refl _
  · cases v with
    | zero other => exact .inr ⟨.zero _, .zero _⟩
    | infinity other => exact .refl _
    | notANumber => exact .refl _
    | finite other mantissa exponent hpos => exact .inr ⟨.zero _, .zero _⟩

theorem alike_mul_right (u : UnpackedFloat) (hv : Alike v v') :
    Alike (.mul spec u v) (.mul spec u v') := by
  rcases hv with rfl | ⟨⟨sign⟩, ⟨sign'⟩⟩
  · exact .refl _
  · cases u with
    | zero other => exact .inr ⟨.zero _, .zero _⟩
    | infinity other => exact .refl _
    | notANumber => exact .refl _
    | finite other mantissa exponent hpos => exact .inr ⟨.zero _, .zero _⟩

/-- The sign of a zero dividend is lost in the quotient. -/
theorem alike_div_left (hu : Alike u u') (v : UnpackedFloat) :
    Alike (.div spec u v) (.div spec u' v) := by
  rcases hu with rfl | ⟨⟨sign⟩, ⟨sign'⟩⟩
  · exact .refl _
  · cases v with
    | zero other => exact .refl _
    | infinity other => exact .inr ⟨.zero _, .zero _⟩
    | notANumber => exact .refl _
    | finite other mantissa exponent hpos => exact .inr ⟨.zero _, .zero _⟩

end Alike

theorem Null.isZero_packed {u : UnpackedFloat} (h : Null u) : IsZero (packed u) := by
  obtain ⟨sign⟩ := h
  cases sign <;> exact .zero _

/-- The same double, or both zero. -/
def Same (x y : Float) : Prop := x = y ∨ IsZero x ∧ IsZero y

instance (x y : Float) : Decidable (Same x y) := inferInstanceAs (Decidable (_ ∨ _))

namespace Same

variable {x y z x' y' : Float}

@[refl]
theorem refl (x : Float) : Same x x := .inl rfl

@[symm]
theorem symm (h : Same x y) : Same y x := by
  rcases h with rfl | ⟨hx, hy⟩
  · exact refl x
  · exact .inr ⟨hy, hx⟩

theorem trans (hxy : Same x y) (hyz : Same y z) : Same x z := by
  rcases hxy with rfl | ⟨hx, hy⟩
  · exact hyz
  · rcases hyz with rfl | ⟨-, hz⟩
    · exact .inr ⟨hx, hy⟩
    · exact .inr ⟨hx, hz⟩

theorem of_eq (h : x = y) : Same x y := .inl h

theorem of_isZero (hx : IsZero x) (hy : IsZero y) : Same x y := .inr ⟨hx, hy⟩

theorem alike (h : Same x y) : Alike (unpacked x) (unpacked y) := h.imp_left (congrArg unpacked)

theorem of_alike {u v : UnpackedFloat} (h : Alike u v) : Same (packed u) (packed v) :=
  h.imp (congrArg packed) fun hnull => ⟨hnull.1.isZero_packed, hnull.2.isZero_packed⟩

theorem add (hx : Same x x') (hy : Same y y') : Same (x + y) (x' + y') :=
  of_alike (alike_add _ hx.alike hy.alike)

theorem sub (hx : Same x x') (hy : Same y y') : Same (x - y) (x' - y') :=
  of_alike (alike_sub _ hx.alike hy.alike)

theorem mul (hx : Same x x') (hy : Same y y') : Same (x * y) (x' * y') :=
  (of_alike (alike_mul_left _ hx.alike _)).trans (of_alike (alike_mul_right _ _ hy.alike))

theorem div_right (hx : Same x x') (y : Float) : Same (x / y) (x' / y) :=
  of_alike (alike_div_left _ hx.alike _)

end Same

section Laws

variable {x y : Float}

/-- Adding a zero. -/
theorem same_add_of_isZero (x : Float) (hy : IsZero y) : Same (x + y) x := by
  by_cases hx : IsZero x
  · exact .of_isZero (null_add _ hx hy).isZero_packed hx
  · apply Same.of_eq
    rw [add_eq, add_of_null_right _ hx hy, packed_unpacked]

theorem isZero_mul_of_isFinite (hx : IsZero x) (hy : y.isFinite) : IsZero (x * y) :=
  (null_mul_left _ hx hy).isZero_packed

theorem isZero_natCast_zero : IsZero ((0 : ℕ) : Float) := by decide +kernel

theorem isZero_intCast_zero : IsZero ((0 : ℤ) : Float) := by decide +kernel

end Laws

end CryptoBot.Math.Doubles

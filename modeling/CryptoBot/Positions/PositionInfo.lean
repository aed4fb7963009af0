/-
# Position and profit of one instrument

`PositionInfo` tracks what a sequence of fills did to a position: its size, the
profit that is realised, the profit at the current mark and the traded volume.
`open_vwap` accumulates the money spent on the open position, on the side it was
opened with.

Quantities and prices are 64-bit words and the position is an `int`.  Unsigned
arithmetic wraps and conversions to `int` keep the low half, as in the source;
signed products are exact, because their overflow is undefined there.  The type
of the doubles is a parameter: `Float` is what the machine computes, and the
rationals, the default, are the exact reading.

The accounting identity is a law of whole runs in exact arithmetic: profit is
the cash the fills left plus the value of the position at the last mark.
-/

import Mathlib.Algebra.Order.Field.Rat
import Mathlib.Algebra.Order.Ring.Abs
import Mathlib.Tactic.FieldSimp
import Mathlib.Tactic.Linarith
import Mathlib.Tactic.LinearCombination
import Mathlib.Tactic.Ring
import CryptoBot.Book.MarketOrderBook
import CryptoBot.Math.Ledger
import CryptoBot.Orders.ClientResponse

namespace CryptoBot.Positions

open CryptoBot.Common CryptoBot.Math CryptoBot.Orders CryptoBot.Book

/-- `static_cast<int>` of a 64-bit word. -/
def castInt (word : UInt64) : Int := Int.bmod word.toNat 0x100000000

/-- The doubles of the source are numbers of `D`. -/
structure PositionInfo (D : Type := ℚ) [OfNat D 0] where
  position : Int := 0
  realPnl : D := 0
  unrealPnl : D := 0
  totalPnl : D := 0
  openVwap : Fin 4 → D := fun _ => 0
  volume : D := 0
  bbo : Option BBO := none

namespace PositionInfo

section Fills

variable {D : Type} [OfNat D 0] (info : PositionInfo D)

/-- `open_vwap[sideToIndex(side)]`. -/
def vwap (side : Side) : D := info.openVwap (sideToIndex side)

def setVwap (side : Side) (value : D) : PositionInfo D :=
  { info with openVwap := Function.update info.openVwap (sideToIndex side) value }

/-- The side of `opp_side_index`. -/
def oppSide (side : Side) : Side := if side = .kAsk then .kBid else .kAsk

/-- `position += exec_qty * side_value`: the sum is taken over 64-bit words. -/
def nextPosition (side : Side) (execQty : Qty) : Int :=
  castInt (UInt64.ofInt info.position + execQty * UInt64.ofInt (sideToValue side))

variable [Add D] [Sub D] [Mul D] [Div D] [NatCast D] [IntCast D]

/-- The branch "opened / increased position". -/
def increase (side : Side) (execQty : Qty) (price : Price) : PositionInfo D :=
  info.setVwap side (info.vwap side + (price * execQty).toNat)

/-- The branch "decreased position".  The position is already the new one. -/
def decrease (oldPosition : Int) (side : Side) (execQty : Qty) (price : Price) :
    PositionInfo D :=
  let oppSideVwap := info.vwap (oppSide side) / oldPosition.natAbs
  let next := info.setVwap (oppSide side) (oppSideVwap * info.position.natAbs)
  let next := { next with
    realPnl := info.realPnl + (min (castInt execQty) oldPosition.natAbs : Int) *
      (oppSideVwap - price.toNat) * sideToValue side }
  if info.position * oldPosition < 0 then
    (next.setVwap side (price * UInt64.ofInt info.position.natAbs).toNat).setVwap (oppSide side) 0
  else next

/-- The unrealised profit of an open position at a price. -/
def revalue (price : D) : PositionInfo D :=
  { info with
    unrealPnl :=
      if 0 < info.position then
        (price - info.vwap .kAsk / info.position.natAbs) * info.position.natAbs
      else (info.vwap .kBid / info.position.natAbs - price) * info.position.natAbs }

def addTotal : PositionInfo D := { info with totalPnl := info.unrealPnl + info.realPnl }

/-- The first half of `addFill`: the position, the volume and the branch the
fill takes. -/
def settle (response : MEClientResponse) : PositionInfo D :=
  let next := { info with
    position := info.nextPosition response.side response.execQty
    volume := info.volume + response.execQty.toNat }
  if info.position * sideToValue response.side ≥ 0 then
    next.increase response.side response.execQty response.price
  else next.decrease info.position response.side response.execQty response.price

def addFill (response : MEClientResponse) : PositionInfo D :=
  let next := info.settle response
  let next :=
    if next.position = 0 then
      { (next.setVwap .kBid 0).setVwap .kAsk 0 with unrealPnl := 0 }
    else next.revalue response.price.toNat
  next.addTotal

end Fills

section Marks

variable (info : PositionInfo)

/-- Both quotes are valid and there is a position to mark. -/
def Marks (bbo : BBO) : Prop :=
  info.position ≠ 0 ∧ bbo.bidPrice ≠ kPriceInvalid ∧ bbo.askPrice ≠ kPriceInvalid

instance (bbo : BBO) : Decidable (info.Marks bbo) := inferInstanceAs (Decidable (_ ∧ _))

/-- The sum of the quotes is taken over 64-bit words. -/
def midPrice (bbo : BBO) : ℚ := (bbo.bidPrice + bbo.askPrice).toNat * (1 / 2)

def updateBBO (bbo : BBO) : PositionInfo :=
  let next := { info with bbo := some bbo }
  if info.Marks bbo then (next.revalue (midPrice bbo)).addTotal else next

end Marks

end PositionInfo

/-! ## Arithmetic on words -/

/-- The word of an integer differs from it by a multiple of the word size. -/
theorem exists_toNat_ofInt (x : Int) :
    ∃ k, ((UInt64.ofInt x).toNat : Int) = x + 0x10000000000000000 * k := by
  refine ⟨-(x / 0x10000000000000000), ?_⟩
  rw [UInt64.ofInt, UInt64.toNat_ofNat']
  omega

/-- The low half of a sum of words is the exact sum, modulo the size of an
`int`. -/
theorem castInt_add_mul (position value : Int) (qty : Qty) :
    castInt (UInt64.ofInt position + qty * UInt64.ofInt value) =
      Int.bmod (position + qty.toNat * value) 0x100000000 := by
  obtain ⟨k, hk⟩ := exists_toNat_ofInt position
  obtain ⟨l, hl⟩ := exists_toNat_ofInt value
  have hword : ∃ m, ((UInt64.ofInt position + qty * UInt64.ofInt value).toNat : Int) =
      position + qty.toNat * value + (0x100000000 : Nat) * m := by
    set product := qty.toNat * (UInt64.ofInt value).toNat with hproduct
    have hexact : (product : Int) = qty.toNat * value + 0x10000000000000000 * (qty.toNat * l) := by
      rw [hproduct]
      push_cast
      rw [hl]
      ring
    rw [UInt64.toNat_add, UInt64.toNat_mul, ← hproduct]
    refine ⟨0x100000000 * (k + qty.toNat * l - (((UInt64.ofInt position).toNat + product % 2 ^ 64) /
      2 ^ 64 + product / 2 ^ 64 : Nat)), ?_⟩
    omega
  obtain ⟨m, hm⟩ := hword
  calc castInt (UInt64.ofInt position + qty * UInt64.ofInt value)
      = Int.bmod (position + qty.toNat * value + (0x100000000 : Nat) * m) 0x100000000 :=
        congrArg (Int.bmod · 0x100000000) hm
    _ = Int.bmod (position + qty.toNat * value) 0x100000000 :=
        Int.add_mul_bmod_self_left _ _ m

/-- A sum that fits into an `int` is exact. -/
theorem bmod_of_natAbs_lt {x : Int} (h : x.natAbs < 0x80000000) :
    Int.bmod x 0x100000000 = x := by
  apply Int.bmod_eq_of_le <;> omega

theorem castInt_of_lt {qty : Qty} (h : qty.toNat < 0x80000000) : castInt qty = qty.toNat := by
  apply bmod_of_natAbs_lt
  rwa [Int.natAbs_natCast]

namespace PositionInfo

/-! ## Accumulators -/

section Accumulators

variable {D : Type} [OfNat D 0] (info : PositionInfo D) (side other : Side) (value : D)

@[simp]
theorem vwap_setVwap_self : (info.setVwap side value).vwap side = value := by
  simp [setVwap, vwap]

variable {side other} in
theorem vwap_setVwap_of_ne (h : other ≠ side) :
    (info.setVwap side value).vwap other = info.vwap other := by
  exact Function.update_of_ne (fun heq => h (sideToIndex_injective heq)) _ _

@[simp]
theorem position_setVwap : (info.setVwap side value).position = info.position := rfl

@[simp]
theorem realPnl_setVwap : (info.setVwap side value).realPnl = info.realPnl := rfl

end Accumulators

theorem nextPosition_eq {D : Type} [OfNat D 0] (info : PositionInfo D) (side : Side)
    (execQty : Qty) : info.nextPosition side execQty =
      Int.bmod (info.position + execQty.toNat * sideToValue side) 0x100000000 :=
  castInt_add_mul _ _ _

section Fills

variable {D : Type} [OfNat D 0] [Add D] [Sub D] [Mul D] [Div D] [NatCast D] [IntCast D]
  (info : PositionInfo D)

@[simp]
theorem position_decrease (oldPosition : Int) (side : Side) (execQty : Qty) (price : Price) :
    (info.decrease oldPosition side execQty price).position = info.position := by
  simp only [decrease]
  split <;> rfl

@[simp]
theorem volume_decrease (oldPosition : Int) (side : Side) (execQty : Qty) (price : Price) :
    (info.decrease oldPosition side execQty price).volume = info.volume := by
  simp only [decrease]
  split <;> rfl

theorem position_settle (response : MEClientResponse) :
    (info.settle response).position = info.nextPosition response.side response.execQty := by
  rw [settle]
  split
  · rw [increase, position_setVwap]
  · rw [position_decrease]

theorem volume_settle (response : MEClientResponse) :
    (info.settle response).volume = info.volume + response.execQty.toNat := by
  rw [settle]
  split
  · rfl
  · exact volume_decrease _ _ _ _ _

end Fills

/-- A side that is traded. -/
def Trades (side : Side) : Prop := side = .kAsk ∨ side = .kBid

instance : DecidablePred Trades := fun side => inferInstanceAs (Decidable (side = _ ∨ side = _))

theorem oppSide_ne (side : Side) : oppSide side ≠ side := by
  cases side <;> decide

/-- What the accumulators say about the realised profit, seen from a side: the
side of the position holds the money it cost, and the other side nothing. -/
structure Settled (side : Side) (cash : ℚ) (info : PositionInfo) : Prop where
  real : info.realPnl = cash + sideToValue side * (info.vwap side - info.vwap (oppSide side))
  opened : 0 ≤ info.position * sideToValue side → info.vwap (oppSide side) = 0
  against : info.position * sideToValue side ≤ 0 → info.vwap side = 0

variable {info : PositionInfo} {side : Side} {cash : ℚ}

/-- Both sides see the same books. -/
theorem Settled.opposite (hside : Trades side) (h : Settled side cash info) :
    Settled (oppSide side) cash info := by
  have hback : oppSide (oppSide side) = side := by rcases hside with rfl | rfl <;> rfl
  have hvalue : sideToValue (oppSide side) = -sideToValue side := by
    rcases hside with rfl | rfl <;> rfl
  refine ⟨?_, ?_, ?_⟩
  · rw [h.real, hback, hvalue]
    push_cast
    ring
  · intro hopened
    rw [hvalue, mul_neg, Left.nonneg_neg_iff] at hopened
    rw [hback]
    exact h.against hopened
  · intro hagainst
    rw [hvalue, mul_neg, Left.neg_nonpos_iff] at hagainst
    exact h.opened hagainst

theorem Settled.turn (hside : Trades side) (h : Settled .kAsk cash info) :
    Settled side cash info := by
  rcases hside with rfl | rfl
  · exact h
  · exact h.opposite (.inl rfl)

theorem Settled.turnBack (hside : Trades side) (h : Settled side cash info) :
    Settled .kAsk cash info := by
  rcases hside with rfl | rfl
  · exact h
  · exact h.opposite (.inr rfl)

/-- No integer expression that a step evaluates leaves its type. -/
def NoOverflow (info : PositionInfo) (response : MEClientResponse) : Prop :=
  response.execQty.toNat < 0x80000000 ∧
    (info.position + response.execQty.toNat * sideToValue response.side).natAbs < 0x80000000 ∧
    response.price.toNat * response.execQty.toNat < 0x10000000000000000

instance (info : PositionInfo) (response : MEClientResponse) :
    Decidable (info.NoOverflow response) := inferInstanceAs (Decidable (_ ∧ _))

theorem sideToValue_sq (hside : Trades side) : sideToValue side * sideToValue side = 1 := by
  rcases hside with rfl | rfl <;> rfl

theorem toNat_mul_of_lt {price : Price} {factor : UInt64}
    (h : price.toNat * factor.toNat < 0x10000000000000000) :
    (price * factor).toNat = price.toNat * factor.toNat := by
  rw [UInt64.toNat_mul]
  exact Nat.mod_eq_of_lt h

theorem toNat_ofInt_of_lt {size : Nat} (h : size < 0x80000000) :
    (UInt64.ofInt size).toNat = size := by
  rw [UInt64.ofInt, UInt64.toNat_ofNat']
  omega

/-- An increase adds its cost to the side of the position. -/
theorem Settled.increase (hside : Trades side) (h : Settled side cash info) {next : PositionInfo}
    {execQty : Qty} {price : Price} (hbranch : 0 ≤ info.position * sideToValue side)
    (hposition : next.position = info.position + execQty.toNat * sideToValue side)
    (hvwap : next.openVwap = info.openVwap) (hreal : next.realPnl = info.realPnl)
    (hcost : price.toNat * execQty.toNat < 0x10000000000000000) :
    Settled side (cash - sideToValue side * execQty.toNat * price.toNat)
      (next.increase side execQty price) := by
  have hkept (other : Side) : next.vwap other = info.vwap other := congrFun hvwap _
  have hopp : (next.increase side execQty price).vwap (oppSide side) =
      info.vwap (oppSide side) := by
    rw [PositionInfo.increase, vwap_setVwap_of_ne _ _ (oppSide_ne side), hkept]
  have hown : (next.increase side execQty price).vwap side =
      info.vwap side + price.toNat * execQty.toNat := by
    rw [PositionInfo.increase, vwap_setVwap_self, hkept, toNat_mul_of_lt hcost]
    push_cast
    ring
  refine ⟨?_, ?_, ?_⟩
  · rw [hopp, hown]
    simp only [PositionInfo.increase, realPnl_setVwap, hreal, h.real]
    ring
  · intro _
    rw [hopp]
    exact h.opened hbranch
  · intro hagainst
    simp only [PositionInfo.increase, position_setVwap, hposition] at hagainst
    have hsq := sideToValue_sq hside
    have hsum : (info.position + execQty.toNat * sideToValue side) * sideToValue side =
        info.position * sideToValue side + execQty.toNat := by
      linear_combination (execQty.toNat : Int) * hsq
    have hflat : info.position * sideToValue side ≤ 0 := by omega
    have hnone : execQty.toNat = 0 := by omega
    rw [hown, h.against hflat, hnone]
    simp

/-- The size of a position, from its side. -/
theorem natAbs_of_trades (hside : Trades side) (position : Int) :
    (position.natAbs : Int) = |position * sideToValue side| := by
  rcases hside with rfl | rfl <;> simp [sideToValue]

theorem size_of_nonpos (hside : Trades side) {position : Int}
    (h : position * sideToValue side ≤ 0) :
    (position.natAbs : Int) = -(position * sideToValue side) := by
  rw [natAbs_of_trades hside, abs_of_nonpos h]

theorem size_of_nonneg (hside : Trades side) {position : Int}
    (h : 0 ≤ position * sideToValue side) :
    (position.natAbs : Int) = position * sideToValue side := by
  rw [natAbs_of_trades hside, abs_of_nonneg h]

theorem natAbs_of_nonpos (hside : Trades side) {position : Int}
    (h : position * sideToValue side ≤ 0) :
    (position.natAbs : ℚ) = -(position * sideToValue side) := by
  have hcast := congrArg (Int.cast : Int → ℚ) (size_of_nonpos hside h)
  rwa [Int.cast_natCast, Int.cast_neg, Int.cast_mul] at hcast

theorem natAbs_of_nonneg (hside : Trades side) {position : Int}
    (h : 0 ≤ position * sideToValue side) :
    (position.natAbs : ℚ) = position * sideToValue side := by
  have hcast := congrArg (Int.cast : Int → ℚ) (size_of_nonneg hside h)
  rwa [Int.cast_natCast, Int.cast_mul] at hcast

/-- A fill moves the position towards its side. -/
theorem moved_of_trades (hside : Trades side) {oldPosition position : Int} {qty : Nat}
    (h : position = oldPosition + qty * sideToValue side) :
    position * sideToValue side = oldPosition * sideToValue side + qty := by
  rw [h]
  linear_combination (qty : Int) * sideToValue_sq hside

/-- The test for a flip, from the side of the fill. -/
theorem flips_iff (hside : Trades side) {oldPosition position : Int}
    (hbranch : oldPosition * sideToValue side < 0) :
    position * oldPosition < 0 ↔ 0 < position * sideToValue side := by
  have hproduct : position * oldPosition =
      (position * sideToValue side) * (oldPosition * sideToValue side) := by
    linear_combination (-(position * oldPosition)) * sideToValue_sq hside
  rw [hproduct]
  constructor
  · intro hneg
    by_contra hle
    exact absurd hneg (not_lt.mpr (mul_nonneg_of_nonpos_of_nonpos (not_lt.mp hle) hbranch.le))
  · intro hpos
    exact mul_neg_of_pos_of_neg hpos hbranch

theorem moved_rat_of_trades (hside : Trades side) {oldPosition position : Int} {qty : Nat}
    (h : position = oldPosition + qty * sideToValue side) :
    (position * sideToValue side : ℚ) = oldPosition * sideToValue side + qty := by
  exact_mod_cast moved_of_trades hside h

/-- The cost of one unit, times the size of the position. -/
theorem unit_mul_natAbs {position : Int} (hopen : position * sideToValue side < 0) (cost : ℚ) :
    cost / (position.natAbs : ℚ) * position.natAbs = cost := by
  apply div_mul_cancel₀
  rw [Nat.cast_ne_zero, Int.natAbs_ne_zero]
  rintro rfl
  simp at hopen

/-- A fill that does not turn the position realises its own part of the cost. -/
theorem Settled.reduce (hside : Trades side) (h : Settled side cash info)
    {next : PositionInfo} {execQty : Qty} (price : Price)
    (hbranch : info.position * sideToValue side < 0)
    (hposition : next.position = info.position + execQty.toNat * sideToValue side)
    (hvwap : next.openVwap = info.openVwap) (hreal : next.realPnl = info.realPnl)
    (hqty : execQty.toNat < 0x80000000) (hpart : next.position * sideToValue side ≤ 0) :
    Settled side (cash - sideToValue side * execQty.toNat * price.toNat)
      (next.decrease info.position side execQty price) := by
  have hkept (other : Side) : next.vwap other = info.vwap other := congrFun hvwap _
  have hmoved := moved_of_trades hside hposition
  have hmovedRat := moved_rat_of_trades hside hposition
  have hold := natAbs_of_nonpos hside hbranch.le
  have hnew := natAbs_of_nonpos hside hpart
  have holdSize := size_of_nonpos hside hbranch.le
  have hnewSize := size_of_nonpos hside hpart
  have hown : info.vwap side = 0 := h.against hbranch.le
  have hvalue := unit_mul_natAbs hbranch (info.vwap (oppSide side))
  set unit := info.vwap (oppSide side) / (info.position.natAbs : ℚ) with hunit
  have hflip : ¬ next.position * info.position < 0 := fun hneg =>
    hpart.not_gt ((flips_iff hside hbranch).mp hneg)
  have hmin : min (castInt execQty) (info.position.natAbs : Int) = execQty.toNat := by
    rw [castInt_of_lt hqty]
    omega
  simp only [PositionInfo.decrease, hflip, if_false, hkept, hreal, hmin, ← hunit]
  have hownNext : (next.setVwap (oppSide side) (unit * next.position.natAbs)).vwap side = 0 := by
    rw [vwap_setVwap_of_ne _ _ (oppSide_ne side).symm, hkept, hown]
  have hoppNext : (next.setVwap (oppSide side) (unit * next.position.natAbs)).vwap
      (oppSide side) = unit * next.position.natAbs := vwap_setVwap_self _ _ _
  refine ⟨?_, fun hopened => ?_, fun _ => hownNext⟩
  · change _ = _ + _ * ((next.setVwap _ _).vwap side - (next.setVwap _ _).vwap (oppSide side))
    rw [hownNext, hoppNext]
    simp only [Int.cast_natCast]
    linear_combination h.real + (sideToValue side : ℚ) * hown + (sideToValue side : ℚ) * hvalue +
      (sideToValue side : ℚ) * unit * hnew - (sideToValue side : ℚ) * unit * hold -
      (sideToValue side : ℚ) * unit * hmovedRat
  · have hopen : 0 ≤ next.position * sideToValue side := hopened
    have hnone : next.position.natAbs = 0 := by omega
    change (next.setVwap _ _).vwap (oppSide side) = 0
    rw [hoppNext, hnone]
    simp

/-- A fill that turns the position realises all of the cost, and what is left of
the fill opens the other side. -/
theorem Settled.flip (hside : Trades side) (h : Settled side cash info)
    {next : PositionInfo} {execQty : Qty} {price : Price}
    (hbranch : info.position * sideToValue side < 0)
    (hposition : next.position = info.position + execQty.toNat * sideToValue side)
    (hvwap : next.openVwap = info.openVwap) (hreal : next.realPnl = info.realPnl)
    (hqty : execQty.toNat < 0x80000000)
    (hcost : price.toNat * execQty.toNat < 0x10000000000000000)
    (hturned : 0 < next.position * sideToValue side) :
    Settled side (cash - sideToValue side * execQty.toNat * price.toNat)
      (next.decrease info.position side execQty price) := by
  have hkept (other : Side) : next.vwap other = info.vwap other := congrFun hvwap _
  have hmoved := moved_of_trades hside hposition
  have hmovedRat := moved_rat_of_trades hside hposition
  have hold := natAbs_of_nonpos hside hbranch.le
  have hnew := natAbs_of_nonneg hside hturned.le
  have holdSize := size_of_nonpos hside hbranch.le
  have hnewSize := size_of_nonneg hside hturned.le
  have hown : info.vwap side = 0 := h.against hbranch.le
  have hvalue := unit_mul_natAbs hbranch (info.vwap (oppSide side))
  set unit := info.vwap (oppSide side) / (info.position.natAbs : ℚ) with hunit
  have hflip := (flips_iff hside hbranch).mpr hturned
  have hmin : min (castInt execQty) (info.position.natAbs : Int) = info.position.natAbs := by
    rw [castInt_of_lt hqty]
    omega
  have hle : next.position.natAbs ≤ execQty.toNat := by
    apply Int.ofNat_le.mp
    linarith
  have hword := toNat_ofInt_of_lt (hle.trans_lt hqty)
  have hsmall : price.toNat * (UInt64.ofInt next.position.natAbs).toNat <
      0x10000000000000000 := by
    rw [hword]
    exact lt_of_le_of_lt (Nat.mul_le_mul_left _ hle) hcost
  simp only [PositionInfo.decrease, hflip, if_true, hkept, hreal, hmin, ← hunit]
  refine ⟨?_, fun _ => vwap_setVwap_self _ _ _, fun hagainst => ?_⟩
  · rw [vwap_setVwap_self, vwap_setVwap_of_ne _ _ (oppSide_ne side).symm, vwap_setVwap_self,
      toNat_mul_of_lt hsmall, hword]
    simp only [realPnl_setVwap, Int.cast_natCast, Nat.cast_mul]
    linear_combination h.real + (sideToValue side : ℚ) * hown + (sideToValue side : ℚ) * hvalue -
      (price.toNat : ℚ) * sideToValue side * hold -
      (sideToValue side : ℚ) * price.toNat * hnew -
      (sideToValue side : ℚ) * price.toNat * hmovedRat
  · exact absurd hagainst (not_le.mpr hturned)

/-- A decrease realises the part of the cost that leaves the position. -/
theorem Settled.decrease (hside : Trades side) (h : Settled side cash info)
    {next : PositionInfo} {execQty : Qty} {price : Price}
    (hbranch : info.position * sideToValue side < 0)
    (hposition : next.position = info.position + execQty.toNat * sideToValue side)
    (hvwap : next.openVwap = info.openVwap) (hreal : next.realPnl = info.realPnl)
    (hqty : execQty.toNat < 0x80000000)
    (hcost : price.toNat * execQty.toNat < 0x10000000000000000) :
    Settled side (cash - sideToValue side * execQty.toNat * price.toNat)
      (next.decrease info.position side execQty price) := by
  rcases lt_or_ge 0 (next.position * sideToValue side) with hturned | hpart
  · exact h.flip hside hbranch hposition hvwap hreal hqty hcost hturned
  · exact h.reduce hside price hbranch hposition hvwap hreal hqty hpart

/-! ## The mark -/

/-- The profit of an open position at a price. -/
theorem unrealPnl_revalue (hopen : info.position ≠ 0)
    (hlong : 0 ≤ info.position → info.vwap .kBid = 0)
    (hshort : info.position ≤ 0 → info.vwap .kAsk = 0) (price : ℚ) :
    (info.revalue price).unrealPnl =
      info.position * price - (info.vwap .kAsk - info.vwap .kBid) := by
  have hne : (info.position.natAbs : ℚ) ≠ 0 := by
    rw [Nat.cast_ne_zero]
    omega
  by_cases hpos : 0 < info.position
  · have hsize : (info.position.natAbs : ℚ) = info.position := by
      rw [Nat.cast_natAbs, abs_of_pos hpos]
    simp only [revalue, if_pos hpos]
    rw [sub_mul, div_mul_cancel₀ _ hne, hlong hpos.le, hsize]
    ring
  · have hneg : info.position < 0 := by omega
    have hsize : (info.position.natAbs : ℚ) = -info.position := by
      rw [Nat.cast_natAbs, abs_of_neg hneg]
      push_cast
      rfl
    simp only [revalue, if_neg hpos]
    rw [sub_mul, div_mul_cancel₀ _ hne, hshort hneg.le, hsize]
    ring

/-- The books of a run: what the fills traded and spent, and the last mark. -/
structure Books (net : Int) (volume cash mark : ℚ) (info : PositionInfo) : Prop where
  position : info.position = net
  volume : info.volume = volume
  settled : Settled .kAsk cash info
  unreal : info.unrealPnl = info.position * mark - (info.vwap .kAsk - info.vwap .kBid)
  total : info.totalPnl = info.unrealPnl + info.realPnl

theorem Books.init (mark : ℚ) : Books 0 0 0 mark {} := by
  refine ⟨rfl, rfl, ⟨?_, ?_, ?_⟩, ?_, ?_⟩ <;> simp [vwap]

variable {net : Int} {volume mark : ℚ}

/-- The profit is the cash of the fills and the value of the position. -/
theorem Books.totalPnl_eq (h : Books net volume cash mark info) :
    info.totalPnl = cash + net * mark := by
  have hreal := h.settled.real
  simp only [sideToValue, oppSide, if_true] at hreal
  rw [h.total, h.unreal, hreal, h.position]
  push_cast
  ring

theorem Settled.long (h : Settled .kAsk cash info) (hlong : 0 ≤ info.position) :
    info.vwap .kBid = 0 :=
  h.opened (by simpa [sideToValue] using hlong)

theorem Settled.short (h : Settled .kAsk cash info) (hshort : info.position ≤ 0) :
    info.vwap .kAsk = 0 :=
  h.against (by simpa [sideToValue] using hshort)

theorem Settled.settle (h : Settled .kAsk cash info) {response : MEClientResponse}
    (hside : Trades response.side) (hfits : info.NoOverflow response) :
    Settled .kAsk (cash - sideToValue response.side * response.execQty.toNat *
      response.price.toNat) (info.settle response) := by
  obtain ⟨hqty, hposition, hcost⟩ := hfits
  have hexact : info.nextPosition response.side response.execQty =
      info.position + response.execQty.toNat * sideToValue response.side :=
    (nextPosition_eq _ _ _).trans (bmod_of_natAbs_lt hposition)
  apply Settled.turnBack hside
  rw [PositionInfo.settle, hexact]
  split
  · rename_i hbranch
    exact (h.turn hside).increase hside hbranch rfl rfl rfl hcost
  · rename_i hbranch
    exact (h.turn hside).decrease hside (not_le.mp hbranch) rfl rfl rfl hqty hcost

/-- An open position valued at a price. -/
theorem Settled.books_revalue (h : Settled .kAsk cash info) (hopen : info.position ≠ 0)
    (price : ℚ) : Books info.position info.volume cash price (info.revalue price).addTotal :=
  ⟨rfl, rfl, ⟨h.real, h.opened, h.against⟩, unrealPnl_revalue hopen h.long h.short price, rfl⟩

/-- A flat position has no cost left to write off. -/
theorem Settled.books_flat (h : Settled .kAsk cash info) (hflat : info.position = 0) (price : ℚ) :
    Books info.position info.volume cash price
      { (info.setVwap .kBid 0).setVwap .kAsk 0 with unrealPnl := 0 }.addTotal := by
  set flat := (info.setVwap .kBid 0).setVwap .kAsk 0 with hdef
  have hflatAsk : flat.vwap .kAsk = 0 := vwap_setVwap_self _ _ _
  have hflatBid : flat.vwap .kBid = 0 := by
    rw [hdef, vwap_setVwap_of_ne _ _ (by decide), vwap_setVwap_self]
  have hreal := h.real
  simp only [oppSide, if_true, h.short hflat.le, h.long hflat.ge, sub_self, mul_zero,
    add_zero] at hreal
  refine ⟨rfl, rfl, ⟨?_, fun _ => hflatBid, fun _ => hflatAsk⟩, ?_, rfl⟩
  · change flat.realPnl = _ + _ * (flat.vwap .kAsk - flat.vwap .kBid)
    rw [hflatAsk, hflatBid, hdef, realPnl_setVwap, realPnl_setVwap, hreal]
    ring
  · change (0 : ℚ) = (info.position : ℚ) * _ - (flat.vwap .kAsk - flat.vwap .kBid)
    rw [hflatAsk, hflatBid, hflat]
    simp

/-- A fill enters the books and moves the mark to its price. -/
theorem Books.addFill (h : Books net volume cash mark info) {response : MEClientResponse}
    (hside : Trades response.side) (hfits : info.NoOverflow response) :
    Books (net + response.execQty.toNat * sideToValue response.side)
      (volume + response.execQty.toNat)
      (cash - sideToValue response.side * response.execQty.toNat * response.price.toNat)
      response.price.toNat (info.addFill response) := by
  have hsettled := h.settled.settle hside hfits
  have hposition : (info.settle response).position =
      net + response.execQty.toNat * sideToValue response.side := by
    rw [position_settle, nextPosition_eq, bmod_of_natAbs_lt hfits.2.1, h.position]
  have hvolume : (info.settle response).volume = volume + response.execQty.toNat := by
    rw [volume_settle, h.volume]
  rw [← hposition, ← hvolume]
  simp only [PositionInfo.addFill]
  split
  · rename_i hflat
    exact hsettled.books_flat hflat _
  · rename_i hopen
    exact hsettled.books_revalue hopen _

/-- A quote moves the mark of an open position. -/
theorem Books.updateBBO (h : Books net volume cash mark info) (bbo : BBO) :
    Books net volume cash (if info.Marks bbo then midPrice bbo else mark) (info.updateBBO bbo) := by
  have hsettled : Settled .kAsk cash { info with bbo := some bbo } :=
    ⟨h.settled.real, h.settled.opened, h.settled.against⟩
  by_cases hmarks : info.Marks bbo
  · simp only [PositionInfo.updateBBO, if_pos hmarks]
    rw [← h.position, ← h.volume]
    exact hsettled.books_revalue hmarks.1 _
  · simp only [PositionInfo.updateBBO, if_neg hmarks]
    exact ⟨h.position, h.volume, hsettled, h.unreal, h.total⟩

/-! ## Runs -/

inductive Event
  | addFill (response : MEClientResponse)
  | updateBBO (bbo : BBO)

def handle (info : PositionInfo) : Event → PositionInfo
  | .addFill response => info.addFill response
  | .updateBBO bbo => info.updateBBO bbo

/-- The runs of a zeroed `PositionInfo`. -/
def machine : Machine PositionInfo Event Empty := ⟨{}, fun info event => (info.handle event, [])⟩

/-- A fill of a traded side, with no integer expression out of its range. -/
def Regular (info : PositionInfo) : Event → Prop
  | .addFill response => Trades response.side ∧ info.NoOverflow response
  | .updateBBO bbo => info.Marks bbo →
      bbo.bidPrice.toNat + bbo.askPrice.toNat < 0x10000000000000000

instance (info : PositionInfo) : DecidablePred info.Regular
  | .addFill _ => inferInstanceAs (Decidable (_ ∧ _))
  | .updateBBO _ => inferInstanceAs (Decidable (_ → _))

/-- The signed quantity of a fill. -/
def signedQty (_ : PositionInfo) : Event → Int
  | .addFill response => sideToValue response.side * response.execQty.toNat
  | .updateBBO _ => 0

/-- The quantity of a fill. -/
def tradedQty (_ : PositionInfo) : Event → ℚ
  | .addFill response => response.execQty.toNat
  | .updateBBO _ => 0

/-- The money a fill costs. -/
def cost (_ : PositionInfo) : Event → ℚ
  | .addFill response =>
      sideToValue response.side * response.execQty.toNat * response.price.toNat
  | .updateBBO _ => 0

/-- The price of the last fill, or the mid of a later valid quote that found an
open position. -/
def nextMark (info : PositionInfo) (last : ℚ) : Event → ℚ
  | .addFill response => response.price.toNat
  | .updateBBO bbo =>
      if info.Marks bbo then (bbo.bidPrice.toNat + bbo.askPrice.toNat) / 2 else last

/-- The books after every call of a run. -/
theorem books_run (initial : ℚ) {events : List Event}
    (hregular : EveryStep (fun before event => (machine.run before).Regular event) events) :
    Books (machine.tally signedQty events) (machine.tally tradedQty events)
      (-machine.tally cost events) (machine.carry nextMark initial events)
      (machine.run events) := by
  induction events using List.reverseRecOn with
  | nil => exact Books.init initial
  | append_singleton events event ih =>
      obtain ⟨hbefore, hlast⟩ := EveryStep.concat_iff.mp hregular
      have hbooks := ih hbefore
      simp only [Machine.run_concat, Machine.tally_concat, Machine.carry_concat]
      cases event with
      | addFill response =>
          have hnext := hbooks.addFill hlast.1 hlast.2
          rw [mul_comm (response.execQty.toNat : Int), sub_eq_add_neg, ← neg_add] at hnext
          exact hnext
      | updateBBO bbo =>
          have hnext := hbooks.updateBBO bbo
          have hmid (hmarks : (machine.run events).Marks bbo) :
              midPrice bbo = (bbo.bidPrice.toNat + bbo.askPrice.toNat) / 2 := by
            have hsum : (bbo.bidPrice + bbo.askPrice).toNat =
                bbo.bidPrice.toNat + bbo.askPrice.toNat := by
              rw [UInt64.toNat_add]
              exact Nat.mod_eq_of_lt (hlast hmarks)
            rw [midPrice, hsum]
            push_cast
            ring
          simp only [signedQty, tradedQty, cost, nextMark, add_zero]
          split <;> rename_i hmarks
          · rw [if_pos hmarks, hmid hmarks] at hnext
            exact hnext
          · rw [if_neg hmarks] at hnext
            exact hnext

/-- The accounting identity, after every call of a run from zero. -/
theorem accounting_identity (initial : ℚ) (events : List Event)
    (hregular : EveryStep (fun before event => (machine.run before).Regular event) events) :
    (machine.run events).position = machine.tally signedQty events ∧
      (machine.run events).volume = machine.tally tradedQty events ∧
      (machine.run events).totalPnl =
        (machine.run events).realPnl + (machine.run events).unrealPnl ∧
      (machine.run events).totalPnl = -machine.tally cost events +
        (machine.run events).position * machine.carry nextMark initial events := by
  have hbooks := books_run initial hregular
  refine ⟨hbooks.position, hbooks.volume, ?_, ?_⟩
  · rw [hbooks.total, add_comm]
  · rw [hbooks.totalPnl_eq, hbooks.position]

/-- Ten bought at 100, six sold at 120, a quote at 130, then ten sold at 90. -/
def roundTrip : List Event :=
  [.addFill { type := .filled, side := .kAsk, price := 100, execQty := 10 },
    .addFill { type := .filled, side := .kBid, price := 120, execQty := 6 },
    .updateBBO { bidPrice := 129, askPrice := 131, bidQty := 1, askQty := 1 },
    .addFill { type := .filled, side := .kBid, price := 90, execQty := 10 }]

theorem accounting_roundTrip :
    (machine.run roundTrip).position = -6 ∧ (machine.run roundTrip).totalPnl = 80 ∧
      (machine.run roundTrip).totalPnl = -machine.tally cost roundTrip +
        (machine.run roundTrip).position * machine.carry nextMark 0 roundTrip := by
  refine ⟨by decide +kernel, by decide +kernel, ?_⟩
  exact (accounting_identity 0 roundTrip (by decide +kernel)).2.2.2

end PositionInfo

end CryptoBot.Positions

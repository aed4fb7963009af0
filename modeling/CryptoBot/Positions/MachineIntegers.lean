/-
# `addFill` on machine integers

`addFill` mixes an `int` position, 64-bit quantities and prices, and doubles.
Here its integer operations are a parameter, so that one body is read twice: over
the types of the source, with two's-complement wrap-around, and over unbounded
integers.

The two readings part in three places.  A cost `price * quantity` leaves 64 bits,
the product `position * old_position` leaves `int` and its sign no longer says
whether the position turned, and `std::abs` has no value for the least `int`.
-/

import CryptoBot.Positions.PositionInfo

namespace CryptoBot.Positions

open CryptoBot.Common CryptoBot.Math CryptoBot.Orders

/-- An integer reduced to the range of `int`. -/
def wrapInt (x : Int) : Int := Int.bmod x 0x100000000

/-- The range of `int`. -/
def FitsInt (x : Int) : Prop := -0x80000000 ≤ x ∧ x < 0x80000000

instance : DecidablePred FitsInt := fun _ => inferInstanceAs (Decidable (_ ∧ _))

/-- The least `int`. -/
def kIntMin : Int := -0x80000000

/-- The integer operations of `addFill`. -/
structure Arithmetic where
  /-- `position += exec_qty * side_value` -/
  advance : Int → Qty → Int → Int
  /-- `static_cast<int>(exec_qty)` -/
  toInt : Qty → Int
  /-- The product of two `int`s. -/
  product : Int → Int → Int
  /-- `std::abs` -/
  abs : Int → Int
  /-- The product of a price and a quantity or a position. -/
  cost : Price → Int → Int

namespace Arithmetic

/-- The types of the source. -/
def machine : Arithmetic where
  advance position execQty value :=
    castInt (UInt64.ofInt position + execQty * UInt64.ofInt value)
  toInt := castInt
  product first second := wrapInt (first * second)
  abs x := wrapInt x.natAbs
  cost price size := (price * UInt64.ofInt size).toNat

def unbounded : Arithmetic where
  advance position execQty value := position + execQty.toNat * value
  toInt execQty := execQty.toNat
  product first second := first * second
  abs x := x.natAbs
  cost price size := price.toNat * size

/-- Words that wrap, with exact signed operations. -/
def words : Arithmetic :=
  { machine with
    product := unbounded.product
    abs := unbounded.abs }

end Arithmetic

namespace PositionInfo

section Body

variable (A : Arithmetic) (info : PositionInfo)

def increaseWith (side : Side) (execQty : Qty) (price : Price) : PositionInfo :=
  info.setVwap side (info.vwap side + A.cost price execQty.toNat)

/-- The flip test of a decrease. -/
def FlipsWith (oldPosition : Int) : Prop := A.product info.position oldPosition < 0

instance (oldPosition : Int) : Decidable (FlipsWith A info oldPosition) :=
  inferInstanceAs (Decidable (_ < _))

def decreaseWith (oldPosition : Int) (side : Side) (execQty : Qty) (price : Price) :
    PositionInfo :=
  let oppSideVwap := info.vwap (oppSide side) / A.abs oldPosition
  let next := info.setVwap (oppSide side) (oppSideVwap * A.abs info.position)
  let next := { next with
    realPnl := info.realPnl + (min (A.toInt execQty) (A.abs oldPosition) : Int) *
      (oppSideVwap - price.toNat) * sideToValue side }
  if info.FlipsWith A oldPosition then
    (next.setVwap side (A.cost price (A.abs info.position))).setVwap (oppSide side) 0
  else next

def revalueWith (price : ℚ) : PositionInfo :=
  { info with
    unrealPnl :=
      if 0 < info.position then
        (price - info.vwap .kAsk / A.abs info.position) * A.abs info.position
      else (info.vwap .kBid / A.abs info.position - price) * A.abs info.position }

/-- The position and the volume after a fill. -/
def filledWith (response : MEClientResponse) : PositionInfo :=
  { info with
    position := A.advance info.position response.execQty (sideToValue response.side)
    volume := info.volume + response.execQty.toNat }

/-- The fill opens or increases the position. -/
def IncreasesWith (response : MEClientResponse) : Prop :=
  0 ≤ A.product info.position (sideToValue response.side)

instance (response : MEClientResponse) : Decidable (info.IncreasesWith A response) :=
  inferInstanceAs (Decidable (_ ≤ _))

def settleWith (response : MEClientResponse) : PositionInfo :=
  let next := info.filledWith A response
  if info.IncreasesWith A response then
    next.increaseWith A response.side response.execQty response.price
  else next.decreaseWith A info.position response.side response.execQty response.price

def addFillWith (response : MEClientResponse) : PositionInfo :=
  let next := info.settleWith A response
  let next :=
    if next.position = 0 then
      { (next.setVwap .kBid 0).setVwap .kAsk 0 with unrealPnl := 0 }
    else next.revalueWith A response.price.toNat
  next.addTotal

end Body

/-! ## The body over words -/

theorem ofInt_toNat (word : UInt64) : UInt64.ofInt word.toNat = word := by
  apply UInt64.toNat_inj.mp
  have := word.toNat_lt
  rw [UInt64.ofInt, UInt64.toNat_ofNat']
  omega

theorem increaseWith_words (info : PositionInfo) (side : Side) (execQty : Qty) (price : Price) :
    info.increaseWith .words side execQty price = info.increase side execQty price := by
  simp only [increaseWith, increase, Arithmetic.words, Arithmetic.machine, ofInt_toNat,
    Int.cast_natCast]

theorem decreaseWith_words (info : PositionInfo) (oldPosition : Int) (side : Side) (execQty : Qty)
    (price : Price) : info.decreaseWith .words oldPosition side execQty price =
      info.decrease oldPosition side execQty price := by
  simp only [decreaseWith, FlipsWith, decrease, Arithmetic.words, Arithmetic.machine,
    Arithmetic.unbounded, Int.cast_natCast]

theorem settleWith_words (info : PositionInfo) (response : MEClientResponse) :
    info.settleWith .words response = info.settle response := by
  have hbranch : info.IncreasesWith .words response ↔
      info.position * sideToValue response.side ≥ 0 := Iff.rfl
  simp only [settleWith, settle, increaseWith_words, decreaseWith_words]
  by_cases hincreases : info.IncreasesWith .words response
  · rw [if_pos hincreases, if_pos (hbranch.mp hincreases)]
    simp only [filledWith, nextPosition, Arithmetic.words, Arithmetic.machine]
  · rw [if_neg hincreases, if_neg (mt hbranch.mpr hincreases)]
    simp only [filledWith, nextPosition, Arithmetic.words, Arithmetic.machine]

theorem revalueWith_words (info : PositionInfo) (price : ℚ) :
    info.revalueWith .words price = info.revalue price := by
  simp only [revalueWith, revalue, Arithmetic.words, Arithmetic.unbounded, Int.cast_natCast]

/-- `addFill` is the body over words. -/
theorem addFillWith_words (info : PositionInfo) (response : MEClientResponse) :
    info.addFillWith .words response = info.addFill response := by
  rw [addFillWith, addFill, settleWith_words, revalueWith_words]

/-! ## Agreement -/

/-- The position changes sign. -/
def ChangesSign (oldPosition position : Int) : Prop :=
  0 < oldPosition ∧ position < 0 ∨ oldPosition < 0 ∧ 0 < position

instance (oldPosition position : Int) : Decidable (ChangesSign oldPosition position) :=
  inferInstanceAs (Decidable (_ ∨ _))

/-- The exact position after a fill. -/
def exactPosition (info : PositionInfo) (response : MEClientResponse) : Int :=
  info.position + response.execQty.toNat * sideToValue response.side

/-- The fill takes the branch "flipped position to opposite sign". -/
def TakesFlip (A : Arithmetic) (info : PositionInfo) (response : MEClientResponse) : Prop :=
  ¬ info.IncreasesWith A response ∧ (info.filledWith A response).FlipsWith A info.position

instance (A : Arithmetic) (info : PositionInfo) (response : MEClientResponse) :
    Decidable (info.TakesFlip A response) := inferInstanceAs (Decidable (_ ∧ _))

/-- The positions and the quantity are values of `int`. -/
structure Representable (info : PositionInfo) (response : MEClientResponse) : Prop where
  side : Trades response.side
  before : FitsInt info.position
  after : FitsInt (info.exactPosition response)
  qty : response.execQty.toNat < 0x80000000

/-- The machine computes what the unbounded integers do. -/
structure Agrees (info : PositionInfo) (response : MEClientResponse) : Prop where
  position : (info.addFillWith .machine response).position =
    (info.addFillWith .unbounded response).position
  openVwap : (info.addFillWith .machine response).openVwap =
    (info.addFillWith .unbounded response).openVwap
  realPnl : (info.addFillWith .machine response).realPnl =
    (info.addFillWith .unbounded response).realPnl
  unrealPnl : (info.addFillWith .machine response).unrealPnl =
    (info.addFillWith .unbounded response).unrealPnl
  flip : info.TakesFlip .machine response ↔
    ChangesSign info.position (info.exactPosition response)

/-- No integer expression that matters leaves its type.  From the least `int`,
or onto it, nothing may depend on its size. -/
def StaysExact (info : PositionInfo) (response : MEClientResponse) : Prop :=
  if info.position = kIntMin then
    response.price = 0 ∧ info.vwap (oppSide response.side) = 0 ∧
      ¬ wrapInt (info.exactPosition response * info.position) < 0
  else if info.exactPosition response = kIntMin then response.price = 0
  else if 0 ≤ info.position * sideToValue response.side then
    response.price.toNat * response.execQty.toNat < 0x10000000000000000
  else
    (wrapInt (info.exactPosition response * info.position) < 0 ↔
      info.exactPosition response * info.position < 0) ∧
    (info.exactPosition response * info.position < 0 →
      response.price.toNat * (info.exactPosition response).natAbs < 0x10000000000000000)

instance (info : PositionInfo) (response : MEClientResponse) :
    Decidable (info.StaysExact response) := by
  unfold StaysExact
  infer_instance

end PositionInfo

/-! ## Operations that stay in range -/

theorem wrapInt_of_fitsInt {x : Int} (h : FitsInt x) : wrapInt x = x := by
  obtain ⟨hlower, hupper⟩ := h
  apply Int.bmod_eq_of_le <;> omega

namespace Arithmetic

open PositionInfo

theorem machine_abs_of_ne {x : Int} (h : FitsInt x) (hne : x ≠ kIntMin) :
    machine.abs x = x.natAbs := by
  obtain ⟨hlower, hupper⟩ := h
  rw [kIntMin] at hne
  have hfits : FitsInt x.natAbs := by constructor <;> omega
  simp only [machine, wrapInt_of_fitsInt hfits]

theorem unbounded_abs (x : Int) : unbounded.abs x = x.natAbs := rfl

theorem machine_abs_kIntMin : machine.abs kIntMin = kIntMin := by decide

theorem machine_product_sideToValue {x : Int} (h : FitsInt x) (hne : x ≠ kIntMin) {side : Side}
    (hside : Trades side) : machine.product x (sideToValue side) = x * sideToValue side := by
  obtain ⟨hlower, hupper⟩ := h
  rw [kIntMin] at hne
  apply wrapInt_of_fitsInt
  rcases hside with rfl | rfl <;> simp only [sideToValue] <;> constructor <;> omega

/-- The least `int` counts as negative on both sides. -/
theorem machine_product_kIntMin {side : Side} (hside : Trades side) :
    machine.product kIntMin (sideToValue side) < 0 := by
  rcases hside with rfl | rfl <;> decide

theorem machine_cost_eq_iff (price : Price) {size : Nat} (h : size < 0x10000000000000000) :
    machine.cost price size = unbounded.cost price size ↔
      price.toNat * size < 0x10000000000000000 := by
  have hword : (UInt64.ofInt size).toNat = size := by
    rw [UInt64.ofInt, UInt64.toNat_ofNat']
    omega
  simp only [machine, unbounded, UInt64.toNat_mul, hword]
  rw [← Nat.cast_mul, Nat.cast_inj, Nat.mod_eq_iff_lt (by decide)]

end Arithmetic

namespace PositionInfo

variable {info : PositionInfo} {response : MEClientResponse}

theorem Representable.advance (h : Representable info response) :
    Arithmetic.machine.advance info.position response.execQty (sideToValue response.side) =
      info.exactPosition response := by
  have hwrap := wrapInt_of_fitsInt h.after
  rw [wrapInt, exactPosition] at hwrap
  simp only [Arithmetic.machine, castInt_add_mul, hwrap, exactPosition]

theorem Representable.filledWith (h : Representable info response) :
    info.filledWith .machine response = info.filledWith .unbounded response := by
  rw [PositionInfo.filledWith, h.advance]
  rfl

theorem Representable.position_filledWith (h : Representable info response) :
    (info.filledWith .machine response).position = info.exactPosition response := by
  rw [h.filledWith]
  rfl

theorem changesSign_iff {oldPosition position : Int} :
    ChangesSign oldPosition position ↔ position * oldPosition < 0 := by
  rw [mul_neg_iff, ChangesSign, or_comm]
  grind

/-! ## What the body leaves -/

section Results

variable (A : Arithmetic) (info : PositionInfo) (response : MEClientResponse)

@[simp]
theorem realPnl_filledWith : (info.filledWith A response).realPnl = info.realPnl := rfl

@[simp]
theorem vwap_filledWith (side : Side) : (info.filledWith A response).vwap side = info.vwap side :=
  rfl

@[simp]
theorem position_settleWith :
    (info.settleWith A response).position = (info.filledWith A response).position := by
  simp only [settleWith, increaseWith, decreaseWith]
  split
  · rfl
  · split <;> rfl

@[simp]
theorem position_addFillWith :
    (info.addFillWith A response).position = (info.filledWith A response).position := by
  simp only [addFillWith, addTotal, revalueWith]
  split <;> simp

@[simp]
theorem realPnl_addFillWith :
    (info.addFillWith A response).realPnl = (info.settleWith A response).realPnl := by
  simp only [addFillWith, addTotal, revalueWith]
  split <;> simp

variable {A info response}

theorem openVwap_addFillWith (h : (info.filledWith A response).position ≠ 0) :
    (info.addFillWith A response).openVwap = (info.settleWith A response).openVwap := by
  simp [addFillWith, addTotal, revalueWith, h]

theorem unrealPnl_addFillWith (h : (info.filledWith A response).position ≠ 0) :
    (info.addFillWith A response).unrealPnl =
      ((info.settleWith A response).revalueWith A response.price.toNat).unrealPnl := by
  simp [addFillWith, addTotal, h]

/-- The same body with the same operations on the values that occur. -/
theorem addFillWith_congr {B : Arithmetic}
    (hsettle : info.settleWith A response = info.settleWith B response)
    (habs : A.abs (info.filledWith A response).position =
      B.abs (info.filledWith A response).position) :
    info.addFillWith A response = info.addFillWith B response := by
  have hposition : (info.settleWith B response).position =
      (info.filledWith A response).position := by
    rw [← hsettle, position_settleWith]
  simp only [addFillWith, hsettle, revalueWith, hposition, habs]

theorem openVwap_increaseWith (side : Side) (execQty : Qty) (price : Price) :
    (info.increaseWith A side execQty price).openVwap = Function.update info.openVwap
      (sideToIndex side) (info.vwap side + A.cost price execQty.toNat) := rfl

end Results

theorem vwap_decreaseWith_of_flips {A : Arithmetic} {info : PositionInfo} {oldPosition : Int}
    (h : info.FlipsWith A oldPosition) (side : Side) (execQty : Qty) (price : Price) :
    (info.decreaseWith A oldPosition side execQty price).vwap side =
      A.cost price (A.abs info.position) := by
  simp only [decreaseWith, if_pos h]
  rw [vwap_setVwap_of_ne _ _ (oppSide_ne side).symm, vwap_setVwap_self]

theorem vwap_decreaseWith_of_not_flips {A : Arithmetic} {info : PositionInfo} {oldPosition : Int}
    (h : ¬ info.FlipsWith A oldPosition) (side : Side) (execQty : Qty) (price : Price) :
    (info.decreaseWith A oldPosition side execQty price).vwap (oppSide side) =
      info.vwap (oppSide side) / A.abs oldPosition * A.abs info.position := by
  simp only [decreaseWith, if_neg h]
  exact vwap_setVwap_self _ _ _

theorem realPnl_decreaseWith (A : Arithmetic) (info : PositionInfo) (oldPosition : Int)
    (side : Side) (execQty : Qty) (price : Price) :
    (info.decreaseWith A oldPosition side execQty price).realPnl =
      info.realPnl + (min (A.toInt execQty) (A.abs oldPosition) : Int) *
        (info.vwap (oppSide side) / A.abs oldPosition - price.toNat) * sideToValue side := by
  simp only [decreaseWith]
  split <;> rfl

theorem Agrees.of_eq
    (heq : info.addFillWith .machine response = info.addFillWith .unbounded response)
    (hflip : info.TakesFlip .machine response ↔
      ChangesSign info.position (info.exactPosition response)) : Agrees info response where
  position := by rw [heq]
  openVwap := by rw [heq]
  realPnl := by rw [heq]
  unrealPnl := by rw [heq]
  flip := hflip

/-- An increase keeps the sign. -/
theorem Representable.not_changesSign (h : Representable info response)
    (hbranch : 0 ≤ info.position * sideToValue response.side) :
    ¬ ChangesSign info.position (info.exactPosition response) := by
  have hmoved : info.exactPosition response * sideToValue response.side =
      info.position * sideToValue response.side + response.execQty.toNat :=
    moved_of_trades h.side rfl
  rcases h.side with hside | hside <;> simp only [hside, sideToValue] at hbranch hmoved <;>
    rw [ChangesSign] <;> omega

/-! ## Both positions have a size -/

section Sized

variable (h : Representable info response) (hbefore : info.position ≠ kIntMin)
  (hafter : info.exactPosition response ≠ kIntMin)
include h hbefore

theorem Representable.increasesWith_iff : info.IncreasesWith .machine response ↔
    0 ≤ info.position * sideToValue response.side := by
  rw [IncreasesWith, Arithmetic.machine_product_sideToValue h.before hbefore h.side]

theorem Representable.takesFlip_iff : info.TakesFlip .machine response ↔
    info.position * sideToValue response.side < 0 ∧
      wrapInt (info.exactPosition response * info.position) < 0 := by
  rw [TakesFlip, h.increasesWith_iff hbefore, not_le, h.filledWith]
  rfl

/-- An increase that opens a position agrees on the accumulators only if its cost
is a word. -/
theorem Representable.cost_of_openVwap
    (hbranch : 0 ≤ info.position * sideToValue response.side)
    (hsame : (info.addFillWith .machine response).openVwap =
      (info.addFillWith .unbounded response).openVwap) :
    Arithmetic.machine.cost response.price response.execQty.toNat =
      Arithmetic.unbounded.cost response.price response.execQty.toNat := by
  have hmachine := (h.increasesWith_iff hbefore).mpr hbranch
  have hexact : info.IncreasesWith .unbounded response := hbranch
  by_cases hflat : info.exactPosition response = 0
  · -- Nothing was open and nothing was traded.
    have hqty : response.execQty.toNat = 0 := by
      rw [exactPosition] at hflat
      rcases h.side with hside | hside <;> simp only [hside, sideToValue] at hbranch hflat <;>
        omega
    rw [Arithmetic.machine_cost_eq_iff _ (by omega), hqty]
    omega
  · have hopen : (info.filledWith .unbounded response).position ≠ 0 := hflat
    rw [openVwap_addFillWith (by rwa [h.filledWith]), openVwap_addFillWith hopen] at hsame
    simp only [settleWith, if_pos hmachine, if_pos hexact, openVwap_increaseWith,
      h.filledWith] at hsame
    have hown := congrFun hsame (sideToIndex response.side)
    rw [Function.update_self, Function.update_self, add_right_inj] at hown
    exact_mod_cast hown

include hafter

theorem Representable.agrees_increase_iff
    (hbranch : 0 ≤ info.position * sideToValue response.side) :
    Agrees info response ↔
      response.price.toNat * response.execQty.toNat < 0x10000000000000000 := by
  have hmachine := (h.increasesWith_iff hbefore).mpr hbranch
  have hexact : info.IncreasesWith .unbounded response := hbranch
  rw [← Arithmetic.machine_cost_eq_iff response.price response.execQty.toNat_lt]
  constructor
  · intro hagrees
    exact h.cost_of_openVwap hbefore hbranch hagrees.openVwap
  · intro hcost
    have hsettle : info.settleWith .machine response = info.settleWith .unbounded response := by
      simp only [settleWith, if_pos hmachine, if_pos hexact, increaseWith, h.filledWith, hcost]
    apply Agrees.of_eq
    · apply addFillWith_congr hsettle
      rw [h.filledWith]
      exact Arithmetic.machine_abs_of_ne h.after hafter
    · rw [h.takesFlip_iff hbefore]
      exact iff_of_false (fun hflip => hbranch.not_gt hflip.1) (h.not_changesSign hbranch)

/-- A decrease agrees if the product of the positions has the right sign and the
cost of a flip is a word. -/
theorem Representable.agrees_decrease_iff
    (hbranch : info.position * sideToValue response.side < 0) :
    Agrees info response ↔
      (wrapInt (info.exactPosition response * info.position) < 0 ↔
        info.exactPosition response * info.position < 0) ∧
      (info.exactPosition response * info.position < 0 →
        response.price.toNat * (info.exactPosition response).natAbs < 0x10000000000000000) := by
  have hmachine : ¬ info.IncreasesWith .machine response := by
    rwa [h.increasesWith_iff hbefore, not_le]
  have hexact : ¬ info.IncreasesWith .unbounded response := not_le.mpr hbranch
  have hposition : (info.filledWith .unbounded response).position =
      info.exactPosition response := rfl
  have hsize : (info.exactPosition response).natAbs < 0x10000000000000000 := by
    obtain ⟨hlower, hupper⟩ := h.after
    omega
  have hcost := Arithmetic.machine_cost_eq_iff response.price hsize
  have hflips : (info.filledWith .unbounded response).FlipsWith .machine info.position ↔
      wrapInt (info.exactPosition response * info.position) < 0 := Iff.rfl
  have hturns : (info.filledWith .unbounded response).FlipsWith .unbounded info.position ↔
      info.exactPosition response * info.position < 0 := Iff.rfl
  have habs := Arithmetic.machine_abs_of_ne h.after hafter
  have hflip : (info.TakesFlip .machine response ↔
      ChangesSign info.position (info.exactPosition response)) ↔
        (wrapInt (info.exactPosition response * info.position) < 0 ↔
          info.exactPosition response * info.position < 0) := by
    rw [h.takesFlip_iff hbefore, changesSign_iff, and_iff_right hbranch]
  constructor
  · intro hagrees
    have hsign := hflip.mp hagrees.flip
    refine ⟨hsign, fun hneg => ?_⟩
    have hopen : (info.filledWith .unbounded response).position ≠ 0 := by
      intro hzero
      rw [← hposition, hzero] at hneg
      simp at hneg
    have hsame := hagrees.openVwap
    rw [openVwap_addFillWith (by rwa [h.filledWith]), openVwap_addFillWith hopen] at hsame
    have hown : (info.settleWith .machine response).vwap response.side =
        (info.settleWith .unbounded response).vwap response.side := congrFun hsame _
    simp only [settleWith, if_neg hmachine, if_neg hexact, h.filledWith] at hown
    rw [vwap_decreaseWith_of_flips (hflips.mpr (hsign.mpr hneg)),
      vwap_decreaseWith_of_flips (hturns.mpr hneg), hposition, habs,
      Arithmetic.unbounded_abs] at hown
    exact hcost.mp (by exact_mod_cast hown)
  · rintro ⟨hsign, hword⟩
    have hsettle : info.settleWith .machine response = info.settleWith .unbounded response := by
      have hold := Arithmetic.machine_abs_of_ne h.before hbefore
      have hqty : Arithmetic.machine.toInt response.execQty =
          Arithmetic.unbounded.toInt response.execQty := by
        simp only [Arithmetic.machine, Arithmetic.unbounded, castInt_of_lt h.qty]
      simp only [settleWith, if_neg hmachine, if_neg hexact, h.filledWith, decreaseWith,
        hposition, habs, hold, hqty]
      by_cases hneg : info.exactPosition response * info.position < 0
      · rw [if_pos (hflips.mpr (hsign.mpr hneg)), if_pos (hturns.mpr hneg),
          hcost.mpr (hword hneg)]
        rfl
      · rw [if_neg (mt (fun hwrap => hsign.mp (hflips.mp hwrap)) hneg), if_neg (mt hturns.mp hneg)]
        rfl
    apply Agrees.of_eq
    · apply addFillWith_congr hsettle
      rw [h.filledWith]
      exact habs
    · exact hflip.mpr hsign

end Sized

/-! ## The least position -/

/-- A short position with a size is marked at what it cost. -/
theorem unrealPnl_revalueWith_short {A : Arithmetic} {info : PositionInfo}
    (hshort : info.position < 0) (hsize : A.abs info.position ≠ 0) (price : ℚ) :
    (info.revalueWith A price).unrealPnl = info.vwap .kBid - price * A.abs info.position := by
  have hcast : (A.abs info.position : ℚ) ≠ 0 := by exact_mod_cast hsize
  simp only [revalueWith, if_neg hshort.le.not_gt]
  rw [sub_mul, div_mul_cancel₀ _ hcast]

/-- A fill at price zero that realises nothing. -/
theorem settleWith_idle {A : Arithmetic} (hcost : ∀ size, A.cost 0 size = 0)
    (hprice : response.price = 0) (hflip : ¬ info.TakesFlip A response)
    (hkept : info.IncreasesWith A response ∨ info.vwap (oppSide response.side) = 0) :
    (info.settleWith A response).openVwap = info.openVwap ∧
      (info.settleWith A response).realPnl = info.realPnl := by
  by_cases hbranch : info.IncreasesWith A response
  · simp only [settleWith, if_pos hbranch, increaseWith, hprice, hcost, setVwap, filledWith]
    simp [vwap]
  · have hstays : ¬ (info.filledWith A response).FlipsWith A info.position := fun hflips =>
      hflip ⟨hbranch, hflips⟩
    have hopp : (info.filledWith A response).vwap (oppSide response.side) = 0 :=
      hkept.resolve_left hbranch
    have hindex : (info.filledWith A response).openVwap (sideToIndex (oppSide response.side)) = 0 :=
      hopp
    simp only [settleWith, if_neg hbranch, decreaseWith, if_neg hstays, hopp, hprice, setVwap,
      zero_div, zero_mul]
    constructor
    · rw [← hindex, Function.update_eq_self]
      rfl
    · simp [filledWith]

/-- Onto or from a short position, a fill at price zero that realises nothing
agrees. -/
theorem Representable.agrees_of_idle (h : Representable info response)
    (hprice : response.price = 0) (hshort : info.exactPosition response < 0)
    (hsign : ¬ ChangesSign info.position (info.exactPosition response))
    (hflip : ¬ info.TakesFlip .machine response)
    (hmachine : info.IncreasesWith .machine response ∨ info.vwap (oppSide response.side) = 0)
    (hexact : info.IncreasesWith .unbounded response ∨ info.vwap (oppSide response.side) = 0) :
    Agrees info response := by
  have hturns : ¬ info.TakesFlip .unbounded response := fun htakes =>
    hsign (changesSign_iff.mpr htakes.2)
  have hfirst := settleWith_idle (by simp [Arithmetic.machine]) hprice hflip hmachine
  have hsecond := settleWith_idle (by simp [Arithmetic.unbounded]) hprice hturns hexact
  have hshortMachine : (info.settleWith .machine response).position < 0 := by
    rwa [position_settleWith, h.position_filledWith]
  have hshortExact : (info.settleWith .unbounded response).position < 0 := by
    rwa [position_settleWith]
  have hsizeMachine : Arithmetic.machine.abs (info.settleWith .machine response).position ≠ 0 := by
    rw [position_settleWith, h.position_filledWith]
    by_cases hmin : info.exactPosition response = kIntMin
    · rw [hmin, Arithmetic.machine_abs_kIntMin]
      decide
    · rw [Arithmetic.machine_abs_of_ne h.after hmin]
      omega
  have hsizeExact : Arithmetic.unbounded.abs (info.settleWith .unbounded response).position ≠
      0 := by
    rw [Arithmetic.unbounded_abs]
    omega
  rw [position_settleWith] at hshortMachine hshortExact
  exact
    { position := by rw [position_addFillWith, position_addFillWith, h.filledWith]
      openVwap := by
        rw [openVwap_addFillWith hshortMachine.ne, openVwap_addFillWith hshortExact.ne, hfirst.1,
          hsecond.1]
      realPnl := by
        rw [realPnl_addFillWith, realPnl_addFillWith, hfirst.2, hsecond.2]
      unrealPnl := by
        rw [unrealPnl_addFillWith hshortMachine.ne, unrealPnl_addFillWith hshortExact.ne,
          unrealPnl_revalueWith_short (by simpa using hshortMachine) hsizeMachine,
          unrealPnl_revalueWith_short (by simpa using hshortExact) hsizeExact]
        simp [vwap, hfirst.1, hsecond.1, hprice]
      flip := iff_of_false hflip hsign }

/-- Marks that agree on the least position have price zero. -/
theorem Representable.price_of_agrees (h : Representable info response)
    (hafter : info.exactPosition response = kIntMin) (hagrees : Agrees info response) :
    response.price = 0 := by
  have hposition : (info.filledWith .unbounded response).position = kIntMin := hafter
  have hopen : (info.filledWith .unbounded response).position ≠ 0 := by
    rw [hposition]
    decide
  have hsame := hagrees.openVwap
  have hmark := hagrees.unrealPnl
  rw [openVwap_addFillWith (by rwa [h.filledWith]), openVwap_addFillWith hopen] at hsame
  have hshort : (info.settleWith .machine response).position = kIntMin := by
    rw [position_settleWith, h.filledWith, hposition]
  have hexact : (info.settleWith .unbounded response).position = kIntMin := by
    rw [position_settleWith, hposition]
  rw [unrealPnl_addFillWith (by rwa [h.filledWith]), unrealPnl_addFillWith hopen,
    unrealPnl_revalueWith_short (by rw [hshort]; decide) (by rw [hshort]; decide),
    unrealPnl_revalueWith_short (by rw [hexact]; decide) (by rw [hexact]; decide),
    hshort, hexact, Arithmetic.machine_abs_kIntMin, Arithmetic.unbounded_abs] at hmark
  have hvwap : (info.settleWith .machine response).vwap .kBid =
      (info.settleWith .unbounded response).vwap .kBid := congrFun hsame _
  rw [hvwap, sub_right_inj] at hmark
  have hzero : (response.price.toNat : ℚ) = 0 := by
    norm_num [kIntMin] at hmark
    linarith
  rw [Nat.cast_eq_zero] at hzero
  exact UInt64.toNat_inj.mp hzero

/-- A fill onto the least position agrees if its price is zero. -/
theorem Representable.agrees_onto_iff (h : Representable info response)
    (hbefore : info.position ≠ kIntMin) (hafter : info.exactPosition response = kIntMin) :
    Agrees info response ↔ response.price = 0 := by
  have hbranch : 0 ≤ info.position * sideToValue response.side := by
    obtain ⟨hlower, -⟩ := h.before
    have hqty := h.qty
    rw [kIntMin] at hbefore
    rw [exactPosition, kIntMin] at hafter
    rcases h.side with hside | hside <;> simp only [hside, sideToValue] at hafter ⊢ <;> omega
  have hmachine := (h.increasesWith_iff hbefore).mpr hbranch
  constructor
  · exact h.price_of_agrees hafter
  · intro hprice
    refine h.agrees_of_idle hprice ?_ (h.not_changesSign hbranch) ?_ (.inl hmachine) (.inl hbranch)
    · rw [hafter]
      decide
    · exact fun htakes => htakes.1 hmachine

section FromLeast

variable (h : Representable info response) (hbefore : info.position = kIntMin)
include h hbefore

theorem Representable.short_from : info.exactPosition response < 0 := by
  have hqty := h.qty
  have hafter := h.after
  rw [exactPosition, hbefore, kIntMin]
  rcases h.side with hside | hside <;> simp only [hside, sideToValue] <;> omega

theorem Representable.not_changesSign_from :
    ¬ ChangesSign info.position (info.exactPosition response) := by
  have hshort := h.short_from hbefore
  rw [ChangesSign, hbefore, kIntMin]
  omega

/-- The least position is never increased. -/
theorem Representable.not_increasesWith_from : ¬ info.IncreasesWith .machine response := by
  rw [IncreasesWith, hbefore, not_le]
  exact Arithmetic.machine_product_kIntMin h.side

theorem Representable.takesFlip_from : info.TakesFlip .machine response ↔
    wrapInt (info.exactPosition response * info.position) < 0 := by
  rw [TakesFlip, and_iff_right (h.not_increasesWith_from hbefore), FlipsWith,
    h.position_filledWith]
  rfl

/-- The whole cost is realised, whatever the quantity is. -/
theorem Representable.realPnl_from : (info.settleWith .machine response).realPnl =
    info.realPnl + (info.vwap (oppSide response.side) - kIntMin * response.price.toNat) *
      sideToValue response.side := by
  have hmin : min (Arithmetic.machine.toInt response.execQty) kIntMin = kIntMin := by
    simp only [Arithmetic.machine, castInt_of_lt h.qty, kIntMin]
    omega
  have hne : (kIntMin : ℚ) ≠ 0 := by decide
  rw [settleWith, if_neg (h.not_increasesWith_from hbefore), realPnl_decreaseWith, hbefore,
    Arithmetic.machine_abs_kIntMin, hmin, mul_sub, mul_div_cancel₀ _ hne, realPnl_filledWith,
    vwap_filledWith]

/-- A fill that moves the position is a purchase. -/
theorem Representable.side_from (hmoved : info.exactPosition response ≠ kIntMin) :
    response.side = .kAsk := by
  obtain ⟨hlower, -⟩ := h.after
  rw [exactPosition, hbefore, kIntMin] at hmoved hlower
  rcases h.side with hside | hside
  · exact hside
  · simp only [hside, sideToValue] at hmoved hlower
    omega

/-- The profit over unbounded integers, if the position does not move. -/
theorem Representable.realPnl_unmoved (hafter : info.exactPosition response = kIntMin) :
    (info.settleWith .unbounded response).realPnl = info.realPnl := by
  have hqty : response.execQty.toNat = 0 := by
    rw [exactPosition, hbefore] at hafter
    rcases h.side with hside | hside <;> simp only [hside, sideToValue] at hafter <;> omega
  by_cases hincreases : info.IncreasesWith .unbounded response
  · rw [settleWith, if_pos hincreases, increaseWith, realPnl_setVwap, realPnl_filledWith]
  · rw [settleWith, if_neg hincreases, realPnl_decreaseWith, realPnl_filledWith]
    simp [Arithmetic.unbounded, hqty]

/-- Over unbounded integers, a fill that moves the least position decreases it. -/
theorem Representable.decreases_from (hmoved : info.exactPosition response ≠ kIntMin) :
    ¬ info.IncreasesWith .unbounded response := by
  rw [IncreasesWith, h.side_from hbefore hmoved, hbefore]
  decide

/-- A fill that moves the least position agrees only if the position cost
nothing. -/
theorem Representable.vwap_of_agrees (hagrees : Agrees info response)
    (hmoved : info.exactPosition response ≠ kIntMin) :
    info.vwap (oppSide response.side) = 0 := by
  have hshort := h.short_from hbefore
  have hsign := h.not_changesSign_from hbefore
  have hstays : ¬ (info.filledWith .machine response).FlipsWith .machine info.position :=
    fun hflips => hsign (hagrees.flip.mp ⟨h.not_increasesWith_from hbefore, hflips⟩)
  have hturns : ¬ (info.filledWith .unbounded response).FlipsWith .unbounded info.position :=
    fun hflips => hsign (changesSign_iff.mpr hflips)
  have hopen : (info.filledWith .unbounded response).position ≠ 0 := hshort.ne
  have hopenMachine : (info.filledWith .machine response).position ≠ 0 := by
    rw [h.position_filledWith]
    exact hshort.ne
  have hsame := hagrees.openVwap
  rw [openVwap_addFillWith hopenMachine, openVwap_addFillWith hopen] at hsame
  have hopp : (info.settleWith .machine response).vwap (oppSide response.side) =
      (info.settleWith .unbounded response).vwap (oppSide response.side) := congrFun hsame _
  rw [settleWith, settleWith, if_neg (h.not_increasesWith_from hbefore),
    if_neg (h.decreases_from hbefore hmoved), vwap_decreaseWith_of_not_flips hstays,
    vwap_decreaseWith_of_not_flips hturns, vwap_filledWith, vwap_filledWith, h.position_filledWith,
    Arithmetic.machine_abs_of_ne h.after hmoved, hbefore, Arithmetic.machine_abs_kIntMin] at hopp
  have hsize : ((info.exactPosition response).natAbs : ℚ) ≠ 0 := by
    rw [Nat.cast_ne_zero]
    omega
  have hleft : (kIntMin : ℚ) = -0x80000000 := rfl
  have hright : (Arithmetic.unbounded.abs kIntMin : ℚ) = 0x80000000 := rfl
  have hnew : Arithmetic.unbounded.abs (info.filledWith .unbounded response).position =
      (info.exactPosition response).natAbs := rfl
  rw [hleft, hright, hnew, Int.cast_natCast, mul_left_inj' hsize] at hopp
  linarith

/-- A fill that moves the least position agrees only if both its price and the
cost of the position are zero. -/
theorem Representable.free_of_agrees (hagrees : Agrees info response)
    (hmoved : info.exactPosition response ≠ kIntMin) :
    response.price = 0 ∧ info.vwap (oppSide response.side) = 0 := by
  have hfree := h.vwap_of_agrees hbefore hagrees hmoved
  refine ⟨?_, hfree⟩
  have hreal := hagrees.realPnl
  rw [realPnl_addFillWith, realPnl_addFillWith, h.realPnl_from hbefore, settleWith,
    if_neg (h.decreases_from hbefore hmoved), realPnl_decreaseWith, realPnl_filledWith,
    vwap_filledWith, hfree, h.side_from hbefore hmoved] at hreal
  have htraded : (0 : ℚ) ≤ (min (Arithmetic.unbounded.toInt response.execQty)
      (Arithmetic.unbounded.abs info.position) : Int) := by
    rw [Int.cast_nonneg_iff]
    exact le_min (Int.natCast_nonneg _) (Int.natCast_nonneg _)
  have hleast : (kIntMin : ℚ) = -0x80000000 := rfl
  simp only [sideToValue, Int.cast_one, mul_one, zero_div, zero_sub, hleast] at hreal
  set traded := ((min (Arithmetic.unbounded.toInt response.execQty)
    (Arithmetic.unbounded.abs info.position) : Int) : ℚ)
  have hzero : (0x80000000 + traded) * (response.price.toNat : ℚ) = 0 := by
    linear_combination hreal
  rcases mul_eq_zero.mp hzero with hsum | hprice
  · linarith
  · rw [Nat.cast_eq_zero] at hprice
    exact UInt64.toNat_inj.mp hprice

/-- A fill from the least position agrees if its price is zero, the position cost
nothing, and the product of the positions does not turn negative. -/
theorem Representable.agrees_from_iff : Agrees info response ↔
    response.price = 0 ∧ info.vwap (oppSide response.side) = 0 ∧
      ¬ wrapInt (info.exactPosition response * info.position) < 0 := by
  have hsign := h.not_changesSign_from hbefore
  constructor
  · intro hagrees
    have hstays : ¬ wrapInt (info.exactPosition response * info.position) < 0 := fun hwrap =>
      hsign (hagrees.flip.mp ((h.takesFlip_from hbefore).mpr hwrap))
    by_cases hafter : info.exactPosition response = kIntMin
    · have hprice := h.price_of_agrees hafter hagrees
      have hreal := hagrees.realPnl
      rw [realPnl_addFillWith, realPnl_addFillWith, h.realPnl_from hbefore,
        h.realPnl_unmoved hbefore hafter, add_eq_left, mul_eq_zero, hprice] at hreal
      have hvalue : (sideToValue response.side : ℚ) ≠ 0 := by
        rcases h.side with hside | hside <;> rw [hside] <;> decide
      refine ⟨hprice, ?_, hstays⟩
      simpa using hreal.resolve_right hvalue
    · obtain ⟨hprice, hfree⟩ := h.free_of_agrees hbefore hagrees hafter
      exact ⟨hprice, hfree, hstays⟩
  · rintro ⟨hprice, hfree, hstays⟩
    exact h.agrees_of_idle hprice (h.short_from hbefore) hsign
      (mt (h.takesFlip_from hbefore).mp hstays) (.inr hfree) (.inr hfree)

end FromLeast

/-- On machine integers `addFill` computes what it computes on unbounded ones, and
flips exactly when the position changes sign, if and only if no expression that
matters leaves its type. -/
theorem agrees_iff_staysExact (info : PositionInfo) (response : MEClientResponse)
    (h : Representable info response) : Agrees info response ↔ info.StaysExact response := by
  rw [StaysExact]
  split
  · rename_i hbefore
    exact h.agrees_from_iff hbefore
  · rename_i hbefore
    split
    · rename_i hafter
      exact h.agrees_onto_iff hbefore hafter
    · rename_i hafter
      split
      · rename_i hbranch
        exact h.agrees_increase_iff hbefore hafter hbranch
      · rename_i hbranch
        exact h.agrees_decrease_iff hbefore hafter (not_le.mp hbranch)

/-- A long position, bought at one price. -/
def held (position : Int) (price : ℚ) : PositionInfo where
  position
  openVwap := Function.update (fun _ => 0) (sideToIndex .kAsk) (position * price)

def sold (execQty : Qty) (price : Price) : MEClientResponse :=
  { type := .filled, side := .kBid, price, execQty }

theorem agrees_held_ten : Representable (held 10 100) (sold 15 120) ∧
    Agrees (held 10 100) (sold 15 120) := by
  have hrepresentable : Representable (held 10 100) (sold 15 120) :=
    { side := by decide, before := by decide, after := by decide, qty := by decide }
  refine ⟨hrepresentable, ?_⟩
  exact (agrees_iff_staysExact _ _ hrepresentable).mpr (by decide +kernel)

/-- The product of the positions is `-2^32`, which wraps to zero: the position
turns and the flip is missed. -/
theorem not_agrees_held_sixteen_bits :
    Representable (held 65536 1) (sold 131072 2) ∧ ¬ Agrees (held 65536 1) (sold 131072 2) := by
  constructor
  · exact { side := by decide, before := by decide, after := by decide, qty := by decide }
  · intro hagrees
    have hmissed : ((held 65536 1).addFillWith .machine (sold 131072 2)).vwap .kBid ≠
        ((held 65536 1).addFillWith .unbounded (sold 131072 2)).vwap .kBid := by
      decide +kernel
    exact hmissed (congrFun hagrees.openVwap _)

end PositionInfo

end CryptoBot.Positions

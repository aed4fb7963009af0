/-
# The two routes in double precision

In doubles a response that executes nothing can still move the accumulators.  On the side
against an open position the keeper divides the cost of the position by its size and
multiplies it back, and the product of the rounded quotient need not be the cost again.

So the comparison of the routes needs one more condition than in exact arithmetic: every
response that is no fill must find the accumulators in a state from which this round trip
returns.  The condition reads the state before the response.  Numbers are compared up to
the sign of zero, because the profit of nothing is a zero of either sign.
-/

import CryptoBot.Math.Doubles
import CryptoBot.Math.Machine
import CryptoBot.Positions.PositionKeeper

namespace CryptoBot.Positions

open CryptoBot.Common CryptoBot.Math CryptoBot.Math.Doubles CryptoBot.Orders

namespace PositionInfo

/-! ## Infos with the same books -/

/-- The parts that a fill reads are the same numbers. -/
structure SameBooks (first second : PositionInfo Float) : Prop where
  position : first.position = second.position
  volume : Same first.volume second.volume
  realPnl : Same first.realPnl second.realPnl
  vwap : ∀ side, Same (first.vwap side) (second.vwap side)

namespace SameBooks

variable {first second third : PositionInfo Float}

theorem refl (info : PositionInfo Float) : SameBooks info info :=
  ⟨rfl, .refl _, .refl _, fun _ => .refl _⟩

theorem trans (h : SameBooks first second) (h' : SameBooks second third) :
    SameBooks first third where
  position := h.position.trans h'.position
  volume := h.volume.trans h'.volume
  realPnl := h.realPnl.trans h'.realPnl
  vwap side := (h.vwap side).trans (h'.vwap side)

/-- The valuation is not part of the books. -/
theorem of_core (h : SameBooks first.core second.core) : SameBooks first second :=
  ⟨h.position, h.volume, h.realPnl, h.vwap⟩

theorem core (h : SameBooks first second) : SameBooks first.core second.core :=
  ⟨h.position, h.volume, h.realPnl, h.vwap⟩

theorem setVwap (h : SameBooks first second) (side : Side) {value value' : Float}
    (hvalue : Same value value') :
    SameBooks (first.setVwap side value) (second.setVwap side value') where
  position := h.position
  volume := h.volume
  realPnl := h.realPnl
  vwap other := by
    by_cases hother : other = side
    · subst hother
      rw [vwap_setVwap_self, vwap_setVwap_self]
      exact hvalue
    · rw [vwap_setVwap_of_ne _ _ hother, vwap_setVwap_of_ne _ _ hother]
      exact h.vwap other

theorem withRealPnl (h : SameBooks first second) {profit profit' : Float}
    (hprofit : Same profit profit') :
    SameBooks { first with realPnl := profit } { second with realPnl := profit' } :=
  ⟨h.position, h.volume, hprofit, h.vwap⟩

theorem withFill (h : SameBooks first second) (position : Int) {volume volume' : Float}
    (hvolume : Same volume volume') :
    SameBooks { first with position := position, volume := volume }
      { second with position := position, volume := volume' } :=
  ⟨rfl, hvolume, h.realPnl, h.vwap⟩

theorem increase (h : SameBooks first second) (side : Side) (execQty : Qty) (price : Price) :
    SameBooks (first.increase side execQty price) (second.increase side execQty price) :=
  h.setVwap side ((h.vwap side).add (.refl _))

theorem decrease (h : SameBooks first second) (oldPosition : Int) (side : Side) (execQty : Qty)
    (price : Price) : SameBooks (first.decrease oldPosition side execQty price)
      (second.decrease oldPosition side execQty price) := by
  have hunit := (h.vwap (oppSide side)).div_right (oldPosition.natAbs : Float)
  have hcost := hunit.mul (.refl (first.position.natAbs : Float))
  have hunitProfit := hunit.sub (.refl (price.toNat : Float))
  have hprofit := ((Same.refl ((min (castInt execQty) oldPosition.natAbs : Int) : Float)).mul
    hunitProfit).mul (.refl (sideToValue side : Float))
  have hnext := (h.setVwap (oppSide side) hcost).withRealPnl (h.realPnl.add hprofit)
  simp only [PositionInfo.decrease, ← h.position]
  split
  · exact (hnext.setVwap side (.refl _)).setVwap (oppSide side) (.refl _)
  · exact hnext

theorem settle (h : SameBooks first second) (response : MEClientResponse) :
    SameBooks (first.settle response) (second.settle response) := by
  have hposition : second.nextPosition response.side response.execQty =
      first.nextPosition response.side response.execQty := by
    rw [nextPosition, nextPosition, h.position]
  have hvolume := h.volume.add (.refl (response.execQty.toNat : Float))
  have hnext := h.withFill (first.nextPosition response.side response.execQty) hvolume
  simp only [PositionInfo.settle, hposition, ← h.position]
  split
  · exact hnext.increase _ _ _
  · exact hnext.decrease _ _ _ _

theorem addFill (h : SameBooks first second) (response : MEClientResponse) :
    SameBooks (first.addFill response) (second.addFill response) := by
  have hsettled := h.settle response
  simp only [PositionInfo.addFill, ← hsettled.position]
  split
  · have hflat := (hsettled.setVwap .kBid (.refl 0)).setVwap .kAsk (.refl 0)
    exact of_core hflat.core
  · exact of_core hsettled.core

/-- Equal books are worth the same at a price. -/
theorem same_unrealPnl_revalue (h : SameBooks first second) (price : Float) :
    Same (first.revalue price).unrealPnl (second.revalue price).unrealPnl := by
  have hsize := Same.refl (first.position.natAbs : Float)
  have hask := (h.vwap .kAsk).div_right (first.position.natAbs : Float)
  have hbid := (h.vwap .kBid).div_right (first.position.natAbs : Float)
  simp only [revalue, ← h.position]
  split
  · exact ((Same.refl price).sub hask).mul hsize
  · exact (hbid.sub (.refl price)).mul hsize

end SameBooks

/-! ## A response that executes nothing -/

theorem isFinite_sideToValue (side : Side) : (sideToValue side : Float).isFinite := by
  cases side <;> decide +kernel

variable {info : PositionInfo Float} {response : MEClientResponse}

/-- The cost of a side, divided by the size of the position and multiplied by it, is the cost
again, and the profit of a unit at the price is a number. -/
def RoundsBack (info : PositionInfo Float) (side : Side) (price : Price) : Prop :=
  let unit := info.vwap side / info.position.natAbs
  Same (unit * info.position.natAbs) (info.vwap side) ∧ (unit - price.toNat).isFinite

instance (side : Side) (price : Price) : Decidable (info.RoundsBack side price) :=
  inferInstanceAs (Decidable (_ ∧ _))

/-- The response executes nothing and, against an open position, rounds nothing. -/
def Unmoved (info : PositionInfo Float) (response : MEClientResponse) : Prop :=
  response.execQty = 0 ∧ (0 ≤ info.position * sideToValue response.side ∨
    info.RoundsBack (oppSide response.side) response.price)

instance : Decidable (info.Unmoved response) := inferInstanceAs (Decidable (_ ∧ _))

theorem sameBooks_settle_of_unmoved (htidy : info.Tidy) (h : info.Unmoved response) :
    SameBooks (info.settle response) info := by
  obtain ⟨hzero, hrounds⟩ := h
  have hposition : info.nextPosition response.side response.execQty = info.position := by
    rw [nextPosition_eq, hzero]
    simpa using htidy.fits
  have hvolume : Same (info.volume + (response.execQty.toNat : Float)) info.volume := by
    rw [hzero]
    exact same_add_of_isZero _ (by decide +kernel)
  have hnext := (SameBooks.refl info).withFill info.position hvolume
  simp only [settle, hposition]
  split
  · have hcost : (response.price * response.execQty).toNat = 0 := by
      rw [hzero, UInt64.toNat_mul]
      simp
    rw [increase, hcost]
    have hcost := same_add_of_isZero (info.vwap response.side) isZero_natCast_zero
    have hbooks := hnext.setVwap response.side hcost
    rwa [setVwap_vwap] at hbooks
  · rename_i hbranch
    have hnone : min (castInt response.execQty) (info.position.natAbs : Int) = 0 := by
      rw [hzero, castInt_of_lt (by decide)]
      exact min_eq_left (Int.natCast_nonneg _)
    have hkept : ¬ info.position * info.position < 0 := not_lt.mpr (mul_self_nonneg _)
    obtain ⟨hcost, hfinite⟩ := hrounds.resolve_left hbranch
    have hprofit : IsZero (((0 : Int) : Float) * (info.vwap (oppSide response.side) /
        info.position.natAbs - response.price.toNat) * (sideToValue response.side : Float)) :=
      isZero_mul_of_isFinite (isZero_mul_of_isFinite isZero_intCast_zero hfinite)
        (isFinite_sideToValue _)
    have hreal := same_add_of_isZero info.realPnl hprofit
    have hbooks := (hnext.setVwap (oppSide response.side) hcost).withRealPnl hreal
    simp only [decrease, hkept, if_false, hnone]
    rwa [setVwap_vwap] at hbooks

/-- Such a response moves the mark, at most. -/
theorem sameBooks_addFill_of_unmoved (htidy : info.Tidy) (h : info.Unmoved response) :
    SameBooks (info.addFill response) info := by
  have hsettled := sameBooks_settle_of_unmoved htidy h
  simp only [addFill]
  split
  · rename_i hflat
    obtain ⟨hask, hbid⟩ := htidy.flat (hsettled.position.symm.trans hflat)
    have hcleared := (hsettled.setVwap .kBid (.of_eq hbid.symm)).setVwap .kAsk
      (.of_eq hask.symm)
    rw [setVwap_vwap, setVwap_vwap] at hcleared
    exact .of_core hcleared.core
  · exact .of_core hsettled.core

end PositionInfo

/-! ## Lists of responses -/

/-- Responses that move nothing can be left out, but for the valuation. -/
theorem sameBooks_filled_filter {responses : List MEClientResponse}
    (h : EveryStep (fun before response =>
      response.type ≠ .filled → (filled Float before).Unmoved response) responses) :
    PositionInfo.SameBooks (filled Float responses)
      (filled Float (responses.filter fun response => response.type = .filled)) := by
  induction responses using List.reverseRecOn with
  | nil => exact .refl _
  | append_singleton responses response ih =>
      obtain ⟨hbefore, hresponse⟩ := EveryStep.concat_iff.mp h
      have hbooks := ih hbefore
      rw [filled_concat, List.filter_append]
      by_cases htype : response.type = .filled
      · rw [List.filter_cons_of_pos (by simpa using htype), List.filter_nil, filled_concat]
        exact hbooks.addFill response
      · rw [List.filter_cons_of_neg (by simpa using htype), List.filter_nil, List.append_nil]
        exact (PositionInfo.sameBooks_addFill_of_unmoved (tidy_filled responses)
          (hresponse htype)).trans hbooks

theorem same_totalPnl_filled (fills : List MEClientResponse) : Same (filled Float fills).totalPnl
    ((filled Float fills).unrealPnl + (filled Float fills).realPnl) := by
  rcases List.eq_nil_or_concat' fills with rfl | ⟨before, last, rfl⟩
  · decide +kernel
  · rw [filled_concat]
    exact .refl _

/-- A price converted to a double. -/
def priceD (price : Price) : Float := price.toNat

/-- The last fill of one list is at the price of that of the other, as a double. -/
def SameMark (first second : List MEClientResponse) : Prop :=
  (lastPrice first).map priceD = (lastPrice second).map priceD

instance (first second : List MEClientResponse) : Decidable (SameMark first second) :=
  inferInstanceAs (Decidable (_ = _))

theorem SameMark.priceD_getD {first second : List MEClientResponse} (h : SameMark first second) :
    priceD ((lastPrice first).getD 0) = priceD ((lastPrice second).getD 0) := by
  have hdefault := congrArg (Option.getD · (priceD 0)) h
  simpa only [Option.getD_map] using hdefault

/-- Keeping only the fills of a pair changes no number if the rest moves nothing and, unless
the fills net to zero, marks the position at the last price. -/
theorem agree_filled_of_unmoved {responses : List MEClientResponse}
    (h : EveryStep (fun before response =>
      response.type ≠ .filled → (filled Float before).Unmoved response) responses)
    (hmark : ((0x100000000 : Nat) : Int) ∣
        netQty (responses.filter fun response => response.type = .filled) ∨
      SameMark responses (responses.filter fun response => response.type = .filled)) :
    Agree Same (filled Float responses)
      (filled Float (responses.filter fun response => response.type = .filled)) := by
  have hbooks := sameBooks_filled_filter h
  set fills := responses.filter fun response => response.type = .filled with hfills
  have hunreal : Same (filled Float responses).unrealPnl (filled Float fills).unrealPnl := by
    rw [unrealPnl_filled, unrealPnl_filled fills, hbooks.position]
    split
    · exact .refl _
    · rename_i hopen
      have hprice := hmark.resolve_left fun hdvd => hopen (by
        rw [position_filled]
        exact Int.bmod_eq_zero_of_dvd hdvd)
      have hvalue := hprice.priceD_getD
      rw [priceD, priceD] at hvalue
      rw [hvalue]
      exact hbooks.core.same_unrealPnl_revalue _
  exact
    { position := hbooks.position
      volume := hbooks.volume
      realPnl := hbooks.realPnl
      unrealPnl := hunreal
      totalPnl := ((same_totalPnl_filled responses).trans (hunreal.add hbooks.realPnl)).trans
        (same_totalPnl_filled fills).symm }

/-! ## The routes -/

/-- The info of a pair in the keeper of Binance. -/
def ExchangePositionKeeper.binanceInfo (keepers : ExchangePositionKeeper Float)
    (tradingPair : TradingPair) : PositionInfo Float :=
  ((keepers.position .kBinance).map (·.tickerPosition tradingPair)).getD {}

/-- Every response that is no fill and reaches the keeper moves nothing there. -/
def MovesNothing (keepers : ExchangePositionKeeper Float) (before : List MEClientResponse)
    (response : MEClientResponse) : Prop :=
  response.exchangeId = .kBinance → response.type ≠ .filled →
    ((busRoute keepers before).binanceInfo response.tradingPair).Unmoved response

instance (keepers : ExchangePositionKeeper Float) (before : List MEClientResponse)
    (response : MEClientResponse) : Decidable (MovesNothing keepers before response) :=
  inferInstanceAs (Decidable (_ → _ → _))

theorem unmoved_reaching {keepers : ExchangePositionKeeper Float}
    (hkeeper : keepers.position .kBinance = some {}) {responses : List MEClientResponse}
    (h : EveryStep (MovesNothing keepers) responses) (tradingPair : TradingPair) :
    EveryStep (fun before response =>
      response.type ≠ .filled → (filled Float before).Unmoved response)
      (reaching tradingPair responses) := by
  apply EveryStep.filter
  intro before response after hsplit hreaches htype
  obtain ⟨hexchange, rfl⟩ := of_decide_eq_true hreaches
  obtain ⟨keeper, hposition, hinfo⟩ := busRoute_eq hkeeper before
  have hunmoved := h before response after hsplit hexchange htype
  rwa [ExchangePositionKeeper.binanceInfo, hposition, Option.map_some, Option.getD_some, hinfo]
    at hunmoved

/-- The symbol the examples trade. -/
def pairsReverse (symbol : String) : Option TradingPair :=
  if symbol = "BTCUSDT" then some ⟨2, 1⟩ else none

/-- An order accepted at 100 and filled for 100. -/
def acceptedThenFilled : List MEClientResponse :=
  [FamilyLimitOrder.parse pairsReverse
      { symbol := some "BTCUSDT", clientOrderId := some 1, status := some "NEW", price := some 100,
        side := some "BUY", executedQty := some 0, leavesQty := some 1 },
    FamilyLimitOrder.parse pairsReverse
      { symbol := some "BTCUSDT", clientOrderId := some 1, status := some "FILLED",
        cummulativeQuoteQty := some 100, side := some "BUY", executedQty := some 1,
        leavesQty := some 0 }]

/-- One bought at 100, then the rest of the order cancelled. -/
def filledThenCanceled : List MEClientResponse :=
  [FamilyLimitOrder.parse pairsReverse
      { symbol := some "BTCUSDT", clientOrderId := some 1, status := some "PARTIALLY_FILLED",
        cummulativeQuoteQty := some 100, side := some "BUY", executedQty := some 1,
        leavesQty := some 1 },
    FamilyCancelOrder.parse pairsReverse
      { symbol := some "BTCUSDT", origClientOrderId := some 1, status := some "CANCELED" }]

/-- Seven bought for 60106, an order to sell accepted, one more bought.  The accepted order
executes nothing, but 60106 divided by 7 and multiplied by 7 is another double. -/
def roundedApart : List MEClientResponse :=
  [{ exchangeId := .kBinance, type := .filled, tradingPair := ⟨2, 1⟩, side := .kAsk, price := 100,
      execQty := 1 },
    { exchangeId := .kBinance, type := .filled, tradingPair := ⟨2, 1⟩, side := .kAsk,
      price := 10001, execQty := 6 },
    { exchangeId := .kBinance, type := .accepted, tradingPair := ⟨2, 1⟩, side := .kBid,
      price := 105, execQty := 0 },
    { exchangeId := .kBinance, type := .filled, tradingPair := ⟨2, 1⟩, side := .kAsk, price := 102,
      execQty := 1 }]

example : ¬ Same (filled Float (reaching ⟨2, 1⟩ roundedApart)).totalPnl
    (filled Float (fillsOf ⟨2, 1⟩ roundedApart)).totalPnl := by
  decide +kernel

end CryptoBot.Positions

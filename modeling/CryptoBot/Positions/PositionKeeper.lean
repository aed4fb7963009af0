/-
# The two routes into the position keeper

The bus hands every response to `exchange::PositionKeeper`, which adds it as a
fill to the keeper of its exchange.  The trade engine adds only the responses of
type FILLED.  This module compares the two over the same responses.

A response that is no fill leaves the position and the realised profit alone
only if its executed quantity is zero, and even then it moves the mark of an
open position to its price.  In exact arithmetic that is all: the comparison
names the sequences on which the routes agree.
-/

import Mathlib.Algebra.Order.BigOperators.Group.List
import CryptoBot.Positions.PositionInfo
import CryptoBot.Orders.BinanceParser

namespace CryptoBot.Positions

open CryptoBot.Common CryptoBot.Orders

/-- A new pair starts zeroed. -/
structure PositionKeeper (D : Type := ℚ) [OfNat D 0] where
  tickerPosition : TradingPair → PositionInfo D := fun _ => {}

/-- The keepers of `exchange::PositionKeeper`. -/
structure ExchangePositionKeeper (D : Type := ℚ) [OfNat D 0] where
  position : ExchangeId → Option (PositionKeeper D)

section Routes

variable {D : Type} [OfNat D 0] [Add D] [Sub D] [Mul D] [Div D] [NatCast D] [IntCast D]

namespace PositionKeeper

variable (keeper : PositionKeeper D)

def addFill (response : MEClientResponse) : PositionKeeper D :=
  ⟨Function.update keeper.tickerPosition response.tradingPair
    ((keeper.tickerPosition response.tradingPair).addFill response)⟩

/-- `TradeEngine::OnOrderResponse`, as far as the keeper is concerned. -/
def onOrderResponse (response : MEClientResponse) : PositionKeeper D :=
  if response.type = .filled then keeper.addFill response else keeper

end PositionKeeper

namespace ExchangePositionKeeper

variable (keepers : ExchangePositionKeeper D)

def addFill (response : Option MEClientResponse) : ExchangePositionKeeper D :=
  match response with
  | none => keepers
  | some response =>
      if response.exchangeId = .kInvalid then keepers
      else
        match keepers.position response.exchangeId with
        | none => keepers
        | some keeper =>
            ⟨Function.update keepers.position response.exchangeId
              (some (keeper.addFill response))⟩

def handleResponse (event : Option BusEventResponse) : ExchangePositionKeeper D :=
  match event with
  | none => keepers
  | some event => keepers.addFill event.response

end ExchangePositionKeeper

/-- The keepers after the bus delivered the responses. -/
def busRoute (keepers : ExchangePositionKeeper D) (responses : List MEClientResponse) :
    ExchangePositionKeeper D :=
  responses.foldl (fun keepers response => keepers.handleResponse (some ⟨some response⟩)) keepers

/-- The keeper after the trade engine saw the responses. -/
def engineRoute (keeper : PositionKeeper D) (responses : List MEClientResponse) :
    PositionKeeper D :=
  responses.foldl PositionKeeper.onOrderResponse keeper

/-- Position, volume and profit of two infos are the same numbers. -/
structure Agree {D : Type} [OfNat D 0] (same : D → D → Prop) (first second : PositionInfo D) :
    Prop where
  position : first.position = second.position
  volume : same first.volume second.volume
  realPnl : same first.realPnl second.realPnl
  unrealPnl : same first.unrealPnl second.unrealPnl
  totalPnl : same first.totalPnl second.totalPnl

/-! ## One pair at a time -/

variable (D) in
/-- The info of a pair after a list of fills. -/
def filled (fills : List MEClientResponse) : PositionInfo D :=
  fills.foldl (fun info response => info.addFill response) {}

theorem filled_concat (fills : List MEClientResponse) (response : MEClientResponse) :
    filled D (fills ++ [response]) = (filled D fills).addFill response := by
  simp [filled]

/-- The responses of a pair that reach the keeper of an exchange. -/
def reaching (tradingPair : TradingPair) (responses : List MEClientResponse) :
    List MEClientResponse :=
  responses.filter fun response =>
    response.exchangeId = .kBinance ∧ response.tradingPair = tradingPair

/-- The fills of a pair. -/
def fillsOf (tradingPair : TradingPair) (responses : List MEClientResponse) :
    List MEClientResponse :=
  responses.filter fun response => response.type = .filled ∧ response.tradingPair = tradingPair

theorem busRoute_eq {keepers : ExchangePositionKeeper D}
    (hkeeper : keepers.position .kBinance = some {}) (responses : List MEClientResponse) :
    ∃ keeper, (busRoute keepers responses).position .kBinance = some keeper ∧
      ∀ tradingPair, keeper.tickerPosition tradingPair =
        filled D (reaching tradingPair responses) := by
  induction responses using List.reverseRecOn with
  | nil => exact ⟨{}, hkeeper, fun _ => rfl⟩
  | append_singleton responses response ih =>
      obtain ⟨keeper, hbinance, hinfo⟩ := ih
      have hrun : busRoute keepers (responses ++ [response]) =
          (busRoute keepers responses).addFill (some response) := by
        simp [busRoute, ExchangePositionKeeper.handleResponse]
      by_cases hexchange : response.exchangeId = .kBinance
      · refine ⟨keeper.addFill response, ?_, fun tradingPair => ?_⟩
        · simp [hrun, ExchangePositionKeeper.addFill, hexchange, hbinance]
        · by_cases hpair : response.tradingPair = tradingPair
          · subst hpair
            simp [reaching, hexchange, PositionKeeper.addFill, hinfo, filled_concat]
          · simp [reaching, hpair, PositionKeeper.addFill, hinfo,
              Function.update_of_ne (Ne.symm hpair)]
      · refine ⟨keeper, ?_, fun tradingPair => ?_⟩
        · rw [hrun, ExchangePositionKeeper.addFill]
          split
          · exact hbinance
          · split
            · exact hbinance
            · exact (Function.update_of_ne (Ne.symm hexchange) _ _).trans hbinance
        · simp [reaching, hexchange, hinfo]

theorem engineRoute_eq (responses : List MEClientResponse) (tradingPair : TradingPair) :
    (engineRoute (D := D) {} responses).tickerPosition tradingPair =
      filled D (fillsOf tradingPair responses) := by
  induction responses using List.reverseRecOn with
  | nil => rfl
  | append_singleton responses response ih =>
      have hrun : engineRoute (D := D) {} (responses ++ [response]) =
          (engineRoute (D := D) {} responses).onOrderResponse response := by
        simp [engineRoute]
      by_cases htype : response.type = .filled
      · by_cases hpair : response.tradingPair = tradingPair
        · subst hpair
          simp [hrun, fillsOf, htype, PositionKeeper.onOrderResponse,
            PositionKeeper.addFill, ih, filled_concat]
        · simp [hrun, fillsOf, hpair, htype, PositionKeeper.onOrderResponse,
            PositionKeeper.addFill, ih, Function.update_of_ne (Ne.symm hpair)]
      · simp [hrun, fillsOf, htype, PositionKeeper.onOrderResponse, ih]

/-! ## What a fill reads and writes -/

namespace PositionInfo

variable (info : PositionInfo D)

omit [Add D] [Sub D] [Mul D] [Div D] [NatCast D] [IntCast D] in
theorem setVwap_vwap (side : Side) : info.setVwap side (info.vwap side) = info := by
  simp [setVwap, vwap]

/-- The info without the valuation that every fill recomputes. -/
def core : PositionInfo D := { info with unrealPnl := 0, totalPnl := 0 }

theorem decrease_core (oldPosition : Int) (side : Side) (execQty : Qty) (price : Price) :
    info.core.decrease oldPosition side execQty price =
      (info.decrease oldPosition side execQty price).core := by
  by_cases hflip : info.position * oldPosition < 0
  · have hcore : info.core.position * oldPosition < 0 := hflip
    simp only [decrease, if_pos hflip, if_pos hcore]
    rfl
  · have hcore : ¬ info.core.position * oldPosition < 0 := hflip
    simp only [decrease, if_neg hflip, if_neg hcore]
    rfl

theorem settle_core (response : MEClientResponse) :
    info.core.settle response = (info.settle response).core := by
  have hposition : info.core.nextPosition response.side response.execQty =
      info.nextPosition response.side response.execQty := rfl
  simp only [settle, hposition]
  -- The new position is opaque here: unfolding its words would not help.
  generalize info.nextPosition response.side response.execQty = position
  by_cases hbranch : info.position * sideToValue response.side ≥ 0
  · have hcore : info.core.position * sideToValue response.side ≥ 0 := hbranch
    rw [if_pos hbranch, if_pos hcore]
    rfl
  · have hcore : ¬ info.core.position * sideToValue response.side ≥ 0 := hbranch
    rw [if_neg hbranch, if_neg hcore, ← decrease_core]
    rfl

/-- A fill does not read the valuation. -/
theorem addFill_core (response : MEClientResponse) :
    info.core.addFill response = info.addFill response := by
  by_cases hflat : (info.settle response).position = 0
  · have hcore : (info.settle response).core.position = 0 := hflat
    simp only [addFill, settle_core, if_pos hflat, if_pos hcore]
    rfl
  · have hcore : ¬ (info.settle response).core.position = 0 := hflat
    simp only [addFill, settle_core, if_neg hflat, if_neg hcore]
    rfl

theorem position_addFill (response : MEClientResponse) :
    (info.addFill response).position = info.nextPosition response.side response.execQty := by
  rw [← position_settle]
  simp only [addFill]
  split <;> rfl

theorem volume_addFill (response : MEClientResponse) :
    (info.addFill response).volume = info.volume + response.execQty.toNat := by
  rw [← volume_settle]
  simp only [addFill]
  split <;> rfl

/-- A fill values the position at its price. -/
theorem unrealPnl_addFill (response : MEClientResponse) :
    (info.addFill response).unrealPnl =
      if (info.addFill response).position = 0 then 0
      else ((info.addFill response).core.revalue response.price.toNat).unrealPnl := by
  rw [position_addFill, ← position_settle]
  simp only [addFill]
  split <;> rfl

/-- The position fits into an `int`, and a flat one has no cost. -/
structure Tidy : Prop where
  fits : Int.bmod info.position 0x100000000 = info.position
  flat : info.position = 0 → info.vwap .kAsk = 0 ∧ info.vwap .kBid = 0

omit [Add D] [Sub D] [Mul D] [Div D] [NatCast D] [IntCast D] in
theorem tidy_init : Tidy ({} : PositionInfo D) := by
  constructor
  · exact Int.zero_bmod
  · intro _
    exact ⟨rfl, rfl⟩

theorem tidy_addFill (response : MEClientResponse) : Tidy (info.addFill response) := by
  constructor
  · rw [position_addFill, nextPosition_eq]
    exact Int.bmod_bmod
  · intro hflat
    rw [position_addFill, ← position_settle] at hflat
    simp only [addFill, if_pos hflat]
    constructor
    · exact vwap_setVwap_self ((info.settle response).setVwap .kBid 0) .kAsk 0
    · calc (((info.settle response).setVwap .kBid 0).setVwap .kAsk 0).vwap .kBid
          = ((info.settle response).setVwap .kBid 0).vwap .kBid :=
            vwap_setVwap_of_ne _ _ (by decide)
        _ = 0 := vwap_setVwap_self _ _ _

end PositionInfo

/-! ## Lists of fills -/

theorem tidy_filled (fills : List MEClientResponse) : (filled D fills).Tidy := by
  rcases List.eq_nil_or_concat fills with rfl | ⟨before, last, rfl⟩
  · exact PositionInfo.tidy_init
  · rw [List.concat_eq_append, filled_concat]
    exact PositionInfo.tidy_addFill _ last

/-- The signed quantity of a list of fills. -/
def netQty (fills : List MEClientResponse) : Int :=
  (fills.map fun response => response.execQty.toNat * sideToValue response.side).sum

theorem position_filled (fills : List MEClientResponse) :
    (filled D fills).position = Int.bmod (netQty fills) 0x100000000 := by
  induction fills using List.reverseRecOn with
  | nil => exact Int.zero_bmod.symm
  | append_singleton fills response ih =>
      rw [filled_concat, PositionInfo.position_addFill, PositionInfo.nextPosition_eq, ih,
        Int.bmod_add_bmod]
      simp [netQty]

/-- The price of the last fill. -/
def lastPrice (fills : List MEClientResponse) : Option Price :=
  fills.getLast?.map (·.price)

/-- The valuation of an info is the one at the last price. -/
theorem unrealPnl_filled (fills : List MEClientResponse) :
    (filled D fills).unrealPnl =
      if (filled D fills).position = 0 then 0
      else ((filled D fills).core.revalue (((lastPrice fills).getD 0).toNat)).unrealPnl := by
  rcases List.eq_nil_or_concat fills with rfl | ⟨before, last, rfl⟩
  · rfl
  · rw [List.concat_eq_append, filled_concat, PositionInfo.unrealPnl_addFill]
    simp [lastPrice]

end Routes

/-! ## Exact arithmetic -/

namespace PositionInfo

variable {info : PositionInfo}

/-- An empty fill leaves the accumulators as they are. -/
theorem settle_of_execQty_eq_zero (htidy : info.Tidy) {response : MEClientResponse}
    (hzero : response.execQty = 0) : info.settle response = info := by
  have hposition : info.nextPosition response.side response.execQty = info.position := by
    rw [nextPosition_eq, hzero]
    simpa using htidy.fits
  have hsame : { info with
      position := info.nextPosition response.side response.execQty
      volume := info.volume + response.execQty.toNat } = info := by
    rw [hposition, hzero]
    simp
  rw [settle, hsame]
  split
  · have hcost : (response.price * response.execQty).toNat = 0 := by
      rw [hzero, UInt64.toNat_mul]
      simp
    rw [increase, hcost]
    simpa using setVwap_vwap info response.side
  · rename_i hbranch
    have hopen : info.position ≠ 0 := by
      intro hflat
      simp [hflat] at hbranch
    have hunit : info.vwap (oppSide response.side) / info.position.natAbs * info.position.natAbs =
        info.vwap (oppSide response.side) := by
      apply div_mul_cancel₀
      rw [Nat.cast_ne_zero]
      omega
    have hnone : min (castInt response.execQty) (info.position.natAbs : Int) = 0 := by
      rw [hzero, castInt_of_lt (by decide)]
      exact min_eq_left (Int.natCast_nonneg _)
    have hkept : ¬ info.position * info.position < 0 := not_lt.mpr (mul_self_nonneg _)
    simp only [decrease, hkept, if_false, hunit, hnone, setVwap_vwap]
    simp

/-- An empty fill only moves the mark. -/
theorem core_addFill_of_execQty_eq_zero (htidy : info.Tidy) {response : MEClientResponse}
    (hzero : response.execQty = 0) : (info.addFill response).core = info.core := by
  simp only [addFill, settle_of_execQty_eq_zero htidy hzero]
  split
  · rename_i hflat
    obtain ⟨hask, hbid⟩ := htidy.flat hflat
    have hsetBid : info.setVwap .kBid 0 = info := by
      rw [← hbid, setVwap_vwap]
    have hsetAsk : info.setVwap .kAsk 0 = info := by
      rw [← hask, setVwap_vwap]
    rw [hsetBid, hsetAsk]
    rfl
  · rfl

/-- An open position is worth different profits at different prices. -/
theorem revalue_injective (hopen : info.position ≠ 0) {first second : ℚ}
    (h : (info.revalue first).unrealPnl = (info.revalue second).unrealPnl) : first = second := by
  have hne : (info.position.natAbs : ℚ) ≠ 0 := by
    rw [Nat.cast_ne_zero]
    omega
  simp only [revalue] at h
  split at h
  · have hsub := mul_right_cancel₀ hne h
    linarith
  · have hsub := mul_right_cancel₀ hne h
    linarith

end PositionInfo

theorem volume_filled (fills : List MEClientResponse) :
    (filled ℚ fills).volume = ((fills.map fun response => response.execQty.toNat).sum : Nat) := by
  induction fills using List.reverseRecOn with
  | nil => rfl
  | append_singleton fills response ih =>
      rw [filled_concat, PositionInfo.volume_addFill, ih]
      simp

theorem totalPnl_filled (fills : List MEClientResponse) :
    (filled ℚ fills).totalPnl = (filled ℚ fills).unrealPnl + (filled ℚ fills).realPnl := by
  rcases List.eq_nil_or_concat fills with rfl | ⟨before, last, rfl⟩
  · simp [filled]
  · rw [List.concat_eq_append, filled_concat]
    rfl

/-- Responses that fill nothing can be left out, but for the valuation. -/
theorem core_filled_filter (responses : List MEClientResponse)
    (hempty : ∀ response ∈ responses, response.type ≠ .filled → response.execQty = 0) :
    (filled ℚ responses).core =
      (filled ℚ (responses.filter fun response => response.type = .filled)).core := by
  induction responses using List.reverseRecOn with
  | nil => rfl
  | append_singleton responses response ih =>
      have hcore := ih fun earlier hmem => hempty earlier (by simp [hmem])
      rw [filled_concat, List.filter_append]
      by_cases htype : response.type = .filled
      · rw [← PositionInfo.addFill_core, hcore, PositionInfo.addFill_core]
        simp [htype, filled_concat]
      · have hzero := hempty response (by simp) htype
        rw [PositionInfo.core_addFill_of_execQty_eq_zero (tidy_filled responses) hzero, hcore]
        simp [htype]

/-! ## Agreement -/

/-- The kept part of a list trades as much as the list. -/
theorem sum_execQty_filter (responses : List MEClientResponse) :
    (responses.map fun response => response.execQty.toNat).sum =
      ((responses.filter fun response => response.type = .filled).map
        fun response => response.execQty.toNat).sum +
      ((responses.filter fun response => ¬ response.type = .filled).map
        fun response => response.execQty.toNat).sum := by
  induction responses with
  | nil => rfl
  | cons response rest ih =>
      by_cases htype : response.type = .filled
      · simp [htype] at ih ⊢
        omega
      · simp [htype] at ih ⊢
        omega

theorem empty_of_volume_eq {responses : List MEClientResponse}
    (h : (filled ℚ responses).volume =
      (filled ℚ (responses.filter fun response => response.type = .filled)).volume) :
    ∀ response ∈ responses, response.type ≠ .filled → response.execQty = 0 := by
  intro response hmem htype
  rw [volume_filled, volume_filled, Nat.cast_inj, sum_execQty_filter responses] at h
  have hsum : ((responses.filter fun response => ¬ response.type = .filled).map
      fun response => response.execQty.toNat).sum = 0 := by
    omega
  have hzero := List.sum_eq_zero_iff.mp hsum response.execQty.toNat
    (List.mem_map.mpr ⟨response, by simp [hmem, htype], rfl⟩)
  rw [← UInt64.toNat_inj, hzero]
  rfl

/-- An open position comes from some response. -/
theorem exists_lastPrice {responses : List MEClientResponse}
    (hopen : (filled ℚ responses).position ≠ 0) : ∃ price, lastPrice responses = some price := by
  rcases List.eq_nil_or_concat responses with rfl | ⟨before, last, rfl⟩
  · exact (hopen rfl).elim
  · exact ⟨last.price, by simp [lastPrice]⟩

/-- Equal books of an open position tell its last price. -/
theorem lastPrice_eq_of_unrealPnl_eq {first second : List MEClientResponse}
    (hcore : (filled ℚ first).core = (filled ℚ second).core)
    (hopen : (filled ℚ second).position ≠ 0)
    (hunreal : (filled ℚ first).unrealPnl = (filled ℚ second).unrealPnl) :
    lastPrice first = lastPrice second := by
  have hposition : (filled ℚ first).position = (filled ℚ second).position :=
    (congrArg PositionInfo.position hcore :)
  have hopenFirst : (filled ℚ first).position ≠ 0 := by
    rw [hposition]
    exact hopen
  rw [unrealPnl_filled, unrealPnl_filled second, if_neg hopen, if_neg hopenFirst, hcore] at hunreal
  have hopenCore : (filled ℚ second).core.position ≠ 0 := hopen
  have hprice := PositionInfo.revalue_injective hopenCore hunreal
  obtain ⟨firstPrice, hfirst⟩ := exists_lastPrice hopenFirst
  obtain ⟨secondPrice, hsecond⟩ := exists_lastPrice hopen
  rw [hfirst, hsecond] at hprice ⊢
  have hword : firstPrice.toNat = secondPrice.toNat := by exact_mod_cast hprice
  rw [UInt64.toNat_inj.mp hword]

/-- Keeping only the fills of a pair changes nothing if and only if the rest
fills nothing and, unless the fills net to zero, quotes the last price. -/
theorem agree_filled_iff (responses : List MEClientResponse) :
    Agree Eq (filled ℚ responses)
        (filled ℚ (responses.filter fun response => response.type = .filled)) ↔
      (∀ response ∈ responses, response.type ≠ .filled → response.execQty = 0) ∧
        (((0x100000000 : Nat) : Int) ∣
            netQty (responses.filter fun response => response.type = .filled) ∨
          lastPrice responses =
            lastPrice (responses.filter fun response => response.type = .filled)) := by
  set fills := responses.filter fun response => response.type = .filled with hfills
  have hflat : (filled ℚ fills).position = 0 ↔ ((0x100000000 : Nat) : Int) ∣ netQty fills := by
    rw [position_filled]
    exact ⟨Int.dvd_of_bmod_eq_zero, fun hdvd => Int.bmod_eq_zero_of_dvd hdvd⟩
  constructor
  · intro hagree
    have hempty := empty_of_volume_eq hagree.volume
    refine ⟨hempty, ?_⟩
    have hcore := core_filled_filter responses hempty
    rw [← hfills] at hcore
    by_cases hzero : (filled ℚ fills).position = 0
    · exact .inl (hflat.mp hzero)
    · exact .inr (lastPrice_eq_of_unrealPnl_eq hcore hzero hagree.unrealPnl)
  · rintro ⟨hempty, hmark⟩
    have hcore := core_filled_filter responses hempty
    rw [← hfills] at hcore
    have hposition : (filled ℚ responses).position = (filled ℚ fills).position :=
      (congrArg PositionInfo.position hcore :)
    have hreal : (filled ℚ responses).realPnl = (filled ℚ fills).realPnl :=
      (congrArg PositionInfo.realPnl hcore :)
    have hvolume : (filled ℚ responses).volume = (filled ℚ fills).volume :=
      (congrArg PositionInfo.volume hcore :)
    have hunreal : (filled ℚ responses).unrealPnl = (filled ℚ fills).unrealPnl := by
      rw [unrealPnl_filled, unrealPnl_filled fills, hposition, hcore]
      rcases hmark with hdvd | hprice
      · rw [if_pos (hflat.mpr hdvd), if_pos (hflat.mpr hdvd)]
      · rw [hprice]
    refine ⟨hposition, hvolume, hreal, hunreal, ?_⟩
    rw [totalPnl_filled, totalPnl_filled fills, hunreal, hreal]

theorem fillsOf_eq {responses : List MEClientResponse}
    (hbinance : ∀ response ∈ responses, response.type = .filled → response.exchangeId = .kBinance)
    (tradingPair : TradingPair) :
    fillsOf tradingPair responses =
      (reaching tradingPair responses).filter fun response => response.type = .filled := by
  rw [reaching, List.filter_filter, fillsOf]
  apply List.filter_congr
  intro response hmem
  by_cases htype : response.type = .filled
  · simp [htype, hbinance response hmem htype]
  · simp [htype]

/-- The fills that the parsers return are fills of Binance. -/
theorem binance_of_parsed {pairsReverse : String → Option TradingPair}
    {response : MEClientResponse}
    (hparsed : (∃ reply, response = FamilyLimitOrder.parse pairsReverse reply) ∨
      ∃ reply, response = FamilyCancelOrder.parse pairsReverse reply)
    (htype : response.type = .filled) : response.exchangeId = .kBinance := by
  rcases hparsed with ⟨reply, rfl⟩ | ⟨reply, rfl⟩
  · rcases FamilyLimitOrder.exchangeId_parse pairsReverse reply with hempty | hexchange
    · simp [hempty] at htype
    · exact hexchange
  · rcases FamilyCancelOrder.exchangeId_parse pairsReverse reply with hempty | ⟨hexchange, -⟩
    · simp [hempty] at htype
    · exact hexchange

/-- The routes agree on every pair if and only if no other response carries an
executed quantity and, for each pair whose fills do not net to zero, the last
response quotes the price of the last fill. -/
theorem routes_agree_iff (keepers : ExchangePositionKeeper)
    (hkeeper : keepers.position .kBinance = some {}) (responses : List MEClientResponse)
    (hbinance : ∀ response ∈ responses, response.type = .filled →
      response.exchangeId = .kBinance) :
    (∃ keeper, (busRoute keepers responses).position .kBinance = some keeper ∧
      ∀ tradingPair, Agree Eq (keeper.tickerPosition tradingPair)
        ((engineRoute (D := ℚ) {} responses).tickerPosition tradingPair)) ↔
      (∀ response ∈ responses, response.exchangeId = .kBinance → response.type ≠ .filled →
        response.execQty = 0) ∧
      ∀ tradingPair,
        ((0x100000000 : Nat) : Int) ∣ netQty (fillsOf tradingPair responses) ∨
          lastPrice (reaching tradingPair responses) =
            lastPrice (fillsOf tradingPair responses) := by
  obtain ⟨keeper, hposition, hinfo⟩ := busRoute_eq hkeeper responses
  have hpair (tradingPair : TradingPair) :
      Agree Eq (keeper.tickerPosition tradingPair)
          ((engineRoute (D := ℚ) {} responses).tickerPosition tradingPair) ↔
        (∀ response ∈ reaching tradingPair responses, response.type ≠ .filled →
          response.execQty = 0) ∧
        (((0x100000000 : Nat) : Int) ∣ netQty (fillsOf tradingPair responses) ∨
          lastPrice (reaching tradingPair responses) =
            lastPrice (fillsOf tradingPair responses)) := by
    rw [hinfo, engineRoute_eq, fillsOf_eq hbinance]
    exact agree_filled_iff _
  constructor
  · rintro ⟨found, hfound, hagree⟩
    obtain rfl : keeper = found := Option.some.inj (hposition.symm.trans hfound)
    constructor
    · intro response hmem hexchange htype
      exact ((hpair response.tradingPair).mp (hagree _)).1 response
        (by simp [reaching, hmem, hexchange]) htype
    · intro tradingPair
      exact ((hpair tradingPair).mp (hagree tradingPair)).2
  · rintro ⟨hempty, hmark⟩
    refine ⟨keeper, hposition, fun tradingPair => (hpair tradingPair).mpr ⟨?_, hmark tradingPair⟩⟩
    intro response hmem htype
    simp only [reaching, List.mem_filter, decide_eq_true_eq] at hmem
    exact hempty response hmem.1 hmem.2.1 htype

/-- The only keeper is the one of Binance, and it is new. -/
def binanceKeeper {D : Type} [OfNat D 0] : ExchangePositionKeeper D :=
  ⟨Function.update (fun _ => none) .kBinance (some {})⟩

end CryptoBot.Positions

/-
# Depth queries

A strategy asks the component for one level of a book: the price and quantity at
a depth counted from the best price, or the invalid pair beyond the last level.
The query walks the tree, and the quantities were rewritten in place inside its
nodes, so the answer is right only if the tree is in order and holds the last
writes.

What the answer should be is said of the quantities alone: the level at depth
`n` is the one with `n` better levels.  The containers enter through the
representation invariant, and the ladder gives positions their ranks.
-/

import CryptoBot.Book.Component
import CryptoBot.Book.TopOfBook

namespace CryptoBot.Book

open CryptoBot.Common CryptoBot.MarketData CryptoBot.Math

namespace OrderBookComponent

variable {containers : Containers} (component : OrderBookComponent containers)

/-- The body the two queries share; they differ in the tree they walk. -/
def getPriceAndQtyAtLevel (priceMap : MarketOrderBook2 containers → BookSide containers)
    (exchangeId : ExchangeId) (tradingPair : TradingPair) (level : Nat) : Price × Qty :=
  match component.orderBooks exchangeId with
  | none => (kPriceInvalid, kQtyInvalid)
  | some innerMap =>
      match innerMap tradingPair with
      | none => (kPriceInvalid, kQtyInvalid)
      | some orderBook =>
          let priceMap := priceMap orderBook.book
          if h : level ≥ priceMap.nodes.length then (kPriceInvalid, kQtyInvalid)
          else
            let orderAtPrice := priceMap.level (priceMap.nodes.get ⟨level, Nat.lt_of_not_ge h⟩)
            (orderAtPrice.firstMktOrder.price, orderAtPrice.firstMktOrder.qty)

/-- `AsyncGetPriceAndQtyAtLevelBid`. -/
def getPriceAndQtyAtLevelBid : ExchangeId → TradingPair → Nat → Price × Qty :=
  component.getPriceAndQtyAtLevel (·.bids)

/-- `AsyncGetPriceAndQtyAtLevelAsk`. -/
def getPriceAndQtyAtLevelAsk : ExchangeId → TradingPair → Nat → Price × Qty :=
  component.getPriceAndQtyAtLevel (·.asks)

end OrderBookComponent

/-! ## The law of one side -/

/-- The answers of a query over all depths.  There are as many levels as prices
with a quantity; the answer at a depth is the price with that many better ones
and its quantity, and beyond the last level it is the invalid pair. -/
structure AnswersDepth (r : Price → Price → Prop) (values : Price → Qty)
    (query : Nat → Price × Qty) : Prop where
  finite : {price | values price ≠ 0}.Finite
  within : ∀ level < {price | values price ≠ 0}.ncard,
    IsRanked r values level (query level).1 (query level).2
  beyond : ∀ level, {price | values price ≠ 0}.ncard ≤ level →
    query level = (kPriceInvalid, kQtyInvalid)
  monotone : ∀ first second, first < second → second < {price | values price ≠ 0}.ncard →
    r (query first).1 (query second).1
  top : IsTop r values (query 0)

/-- Walking the entries of a ladder answers every depth. -/
theorem answersDepth_entries {r : Price → Price → Prop} [IsStrictTotalOrder Price r]
    (ladder : Ladder r Qty) :
    AnswersDepth r ladder.get fun level =>
      (ladder.entries[level]?).getD (kPriceInvalid, kQtyInvalid) where
  finite := by
    apply (ladder.entries.map Prod.fst).toFinset.finite_toSet.subset
    intro price hprice
    rw [List.coe_toFinset]
    exact ladder.get_ne_zero_iff.mp hprice
  within level h := by
    rw [ladder.ncard_support] at h
    rw [List.getElem?_eq_getElem h, Option.getD_some]
    exact ladder.isRanked_entries h
  beyond level h := by
    rw [ladder.ncard_support] at h
    rw [List.getElem?_eq_none h, Option.getD_none]
  monotone first second hless h := by
    rw [ladder.ncard_support] at h
    rw [List.getElem?_eq_getElem h, List.getElem?_eq_getElem (by omega), Option.getD_some,
      Option.getD_some]
    exact ladder.sorted_entries hless h
  top := by
    rw [isTop_get_iff, LadderBook.quote, Ladder.best, List.head?_eq_getElem?]

/-! ## The law of the queries -/

namespace OrderBookComponent

variable {containers : Containers} {component : OrderBookComponent containers}
  {exchangeId : ExchangeId} {tradingPair : TradingPair}

/-- The query of a registered book reads the enumeration of the tree. -/
theorem getPriceAndQtyAtLevel_of_find {orderBook : Subscribed containers}
    (h : component.find exchangeId tradingPair = some orderBook)
    (priceMap : MarketOrderBook2 containers → BookSide containers)
    {r : Price → Price → Prop} {side : Side} {values : Price → Qty}
    (hrepresents : (priceMap orderBook.book).Represents r side values) (level : Nat) :
    component.getPriceAndQtyAtLevel priceMap exchangeId tradingPair level =
      ((priceMap orderBook.book).levels[level]?).getD (kPriceInvalid, kQtyInvalid) := by
  obtain ⟨innerMap, hinner, hbook⟩ := Option.bind_eq_some_iff.mp h
  simp only [getPriceAndQtyAtLevel, hinner, hbook, BookSide.levels, List.getElem?_map]
  split
  · rename_i hbeyond
    rw [List.getElem?_eq_none hbeyond, Option.map_none, Option.getD_none]
  · rename_i hwithin
    have hlevel : level < (priceMap orderBook.book).nodes.length := Nat.lt_of_not_ge hwithin
    rw [List.getElem?_eq_getElem hlevel, Option.map_some, Option.getD_some, List.get_eq_getElem,
      hrepresents.prices _ (List.getElem_mem hlevel)]

theorem answersDepth_of_find {orderBook : Subscribed containers}
    (h : component.find exchangeId tradingPair = some orderBook)
    (priceMap : MarketOrderBook2 containers → BookSide containers)
    {r : Price → Price → Prop} [IsStrictTotalOrder Price r] {side : Side} {values : Price → Qty}
    (hrepresents : (priceMap orderBook.book).Represents r side values) :
    AnswersDepth r values
      (component.getPriceAndQtyAtLevel priceMap exchangeId tradingPair) := by
  have hanswers := answersDepth_entries hrepresents.ladder
  rw [hrepresents.get_ladder] at hanswers
  have hquery : component.getPriceAndQtyAtLevel priceMap exchangeId tradingPair =
      fun level => (hrepresents.ladder.entries[level]?).getD (kPriceInvalid, kQtyInvalid) := by
    funext level
    exact getPriceAndQtyAtLevel_of_find h priceMap hrepresents level
  rw [hquery]
  exact hanswers

/-- After every run the queries of a registered book answer for the fold of the
messages since its registration, on both sides and at every depth. -/
theorem depth_run (containers : Containers) (marketType : MarketType) (events : List Event)
    (exchangeId : ExchangeId) (tradingPair : TradingPair)
    (hregistered : .addOrderBook exchangeId tradingPair ∈ events)
    (hsided : ∀ message ∈ history exchangeId tradingPair events, message.WellSided) :
    let component := (machine containers marketType).run events
    let levels := Levels.fold (history exchangeId tradingPair events)
    AnswersDepth (· > ·) levels.bids
        (component.getPriceAndQtyAtLevelBid exchangeId tradingPair) ∧
      AnswersDepth (· < ·) levels.asks
        (component.getPriceAndQtyAtLevelAsk exchangeId tradingPair) := by
  intro component levels
  have hfind : component.find exchangeId tradingPair =
      some ⟨(MarketOrderBook2.machine containers).run (history exchangeId tradingPair events),
        [(exchangeId, tradingPair)]⟩ := by
    rw [find_run, bookOf, if_pos hregistered]
  have hrefines := (simulation containers hsided).1
  have hlevels : levels = (LadderBook.machine.run (history exchangeId tradingPair events)).levels :=
    (LadderBook.levels_run _).symm
  rw [hlevels]
  exact ⟨answersDepth_of_find hfind (·.bids) hrefines.bids,
    answersDepth_of_find hfind (·.asks) hrefines.asks⟩

/-- The updates of a book among those of another one, with an overwritten and a
removed level. -/
def depthRun : List Event :=
  [.addOrderBook .kBinance ⟨1, 2⟩,
    .newSnapshot (some
      { exchangeId := .kBinance
        tradingPair := ⟨1, 2⟩
        bids := [⟨99, 7⟩, ⟨100, 5⟩]
        asks := [⟨103, 1⟩, ⟨101, 4⟩] }),
    .addOrderBook .kBybit ⟨1, 2⟩,
    .newDiff (some
      { exchangeId := .kBinance
        tradingPair := ⟨1, 2⟩
        bids := [⟨98, 2⟩, ⟨99, 0⟩]
        asks := [⟨102, 6⟩, ⟨103, 9⟩] }),
    .meMarketUpdate (some
      { exchangeId := .kBybit
        tradingPair := ⟨1, 2⟩
        side := .kBid
        price := 105
        qty := 3 })]

theorem depth_depthRun :
    (List.range 4).map (((machine .lists .kSpot).run depthRun).getPriceAndQtyAtLevelBid
        .kBinance ⟨1, 2⟩) =
        [(100, 5), (98, 2), (kPriceInvalid, kQtyInvalid), (kPriceInvalid, kQtyInvalid)] ∧
      (List.range 4).map (((machine .lists .kSpot).run depthRun).getPriceAndQtyAtLevelAsk
        .kBinance ⟨1, 2⟩) =
        [(101, 4), (102, 6), (103, 9), (kPriceInvalid, kQtyInvalid)] ∧
      IsTop (· > ·) (Levels.fold (history .kBinance ⟨1, 2⟩ depthRun)).bids
        (((machine .lists .kSpot).run depthRun).getPriceAndQtyAtLevelBid .kBinance ⟨1, 2⟩ 0) := by
  refine ⟨by decide, by decide, ?_⟩
  exact (depth_run .lists .kSpot depthRun .kBinance ⟨1, 2⟩ (by decide) (by decide)).1.top

end OrderBookComponent

end CryptoBot.Book

/-
# The two legs of a trade

A trade of `CrossArbitrage` has two legs, a purchase on one exchange and a sale on
the other.  `LaunchPayload` checks both prices before it starts a leg, and then
runs the legs one after the other.  Each leg checks the configuration of its pair,
and the order manager checks that the slot of its pair and side is free.

The checks of one leg are not made before the other leg is sent, so a trade can
end with one leg.  `allOrNothing_iff` says for which states it does not.
-/

import CryptoBot.Orders.OrderManager
import CryptoBot.Strategy.CrossArbitrage

namespace CryptoBot.Strategy

open CryptoBot.Common CryptoBot.Orders

/-- What a call of the strategy makes the order manager do, with the requests it
sends. -/
def serve (orderManager : OrderManager) : Call → OrderManager × List RequestNewOrder
  | .newOrder exchangeId tradingPair price side qty =>
      let (orderManager, request) := orderManager.newOrder exchangeId tradingPair price side qty
      (orderManager, request.toList)
  | .buySomeAsset _ _ | .sellSomeAsset _ _ => (orderManager, [])

/-- The calls in order. -/
def serveAll (orderManager : OrderManager) : List Call → OrderManager × List RequestNewOrder
  | [] => (orderManager, [])
  | call :: rest =>
      let (orderManager, sent) := serve orderManager call
      let (orderManager, later) := serveAll orderManager rest
      (orderManager, sent ++ later)

/-- The strategy with its order manager. -/
structure Trader where
  strategy : CrossArbitrage
  orderManager : OrderManager := {}

namespace Trader

/-- `OnNewSignal`, with the requests the order manager sends for it. -/
def onNewSignal (trader : Trader) (signal : Signal) : Trader × List RequestNewOrder :=
  let (strategy, calls) := trader.strategy.onNewSignal signal
  let (orderManager, requests) := serveAll trader.orderManager calls
  ({ strategy, orderManager }, requests)

end Trader

/-- One purchase and one sale, or nothing. -/
def AllOrNothing (requests : List RequestNewOrder) : Prop :=
  requests = [] ∨ (requests.map (·.side)).Perm [.kAsk, .kBid]

instance : DecidablePred AllOrNothing := fun _ => inferInstanceAs (Decidable (_ ∨ _))

namespace CrossArbitrage

variable (strategy : CrossArbitrage)

/-- The exchanges to buy and to sell on, if the stored prices show a spread. -/
def spread : Option (ExchangeId × ExchangeId) :=
  if strategy.hasSpread strategy.exch1 strategy.exch2 then
    some (strategy.exch1, strategy.exch2)
  else if strategy.hasSpread strategy.exch2 strategy.exch1 then
    some (strategy.exch2, strategy.exch1)
  else none

/-- The working pair of the exchange is configured, and the order manager has a
free slot for it on this side. -/
def LegReady (orderManager : OrderManager) (exchange : ExchangeId) (side : Side) : Prop :=
  (strategy.tickerCfg (strategy.workingPair exchange)).isSome ∧
    orderManager.Free (strategy.workingPair exchange) side

/-- If there is a spread, both legs are ready or neither is. -/
def LegsMatch (orderManager : OrderManager) : Prop :=
  ∀ buy sell, strategy.spread = some (buy, sell) →
    (strategy.LegReady orderManager buy .kAsk ↔ strategy.LegReady orderManager sell .kBid)

/-! ## One leg -/

@[simp]
theorem workingPair_touchPair (touched exchange : ExchangeId) :
    (strategy.touchPair touched).workingPair exchange = strategy.workingPair exchange := by
  by_cases h : exchange = touched
  · subst h
    simp [touchPair, workingPair]
  · simp [touchPair, workingPair, Function.update_of_ne h]

/-- The order of a leg whose price is valid, if its pair is configured. -/
def legOrder (exchangeId : ExchangeId) (tradingPair : TradingPair) (price : Price) (side : Side)
    (cfg : Option TradeEngineCfg) : List Call :=
  (cfg.map fun cfg => Call.newOrder exchangeId tradingPair price side cfg.clip).toList

theorem buySomeAsset_of_price {exchangeId : ExchangeId} {bbo : Book.BBO}
    (hprice : strategy.prices exchangeId = some bbo) (hvalid : bbo.askPrice ≠ kPriceInvalid)
    (pair : TradingPair) : strategy.buySomeAsset exchangeId pair =
      .buySomeAsset exchangeId pair ::
        legOrder exchangeId pair bbo.askPrice .kAsk (strategy.tickerCfg pair) := by
  cases hcfg : strategy.tickerCfg pair <;> simp [buySomeAsset, legOrder, hprice, hcfg, hvalid]

theorem sellSomeAsset_of_price {exchangeId : ExchangeId} {bbo : Book.BBO}
    (hprice : strategy.prices exchangeId = some bbo) (hvalid : bbo.bidPrice ≠ kPriceInvalid)
    (tradingPair : TradingPair) : strategy.sellSomeAsset exchangeId tradingPair =
      .sellSomeAsset exchangeId tradingPair ::
        legOrder exchangeId tradingPair bbo.bidPrice .kBid (strategy.tickerCfg tradingPair) := by
  cases hcfg : strategy.tickerCfg tradingPair <;>
    simp [sellSomeAsset, legOrder, hprice, hcfg, hvalid]

/-- A spread gives both legs a price, so each leg makes its order unless its pair
is not configured. -/
theorem trade_of_hasSpread {buy sell : ExchangeId} (hspread : strategy.hasSpread buy sell = true)
    (hbuy : (strategy.prices buy).isSome) (hsell : (strategy.prices sell).isSome) :
    ∃ askPrice bidPrice, (strategy.trade buy sell).2 =
      (.buySomeAsset buy (strategy.workingPair buy) ::
        legOrder buy (strategy.workingPair buy) askPrice .kAsk
          (strategy.tickerCfg (strategy.workingPair buy))) ++
      (.sellSomeAsset sell (strategy.workingPair sell) ::
        legOrder sell (strategy.workingPair sell) bidPrice .kBid
          (strategy.tickerCfg (strategy.workingPair sell))) := by
  obtain ⟨buyBBO, hbuyBBO⟩ := Option.isSome_iff_exists.mp hbuy
  obtain ⟨sellBBO, hsellBBO⟩ := Option.isSome_iff_exists.mp hsell
  simp only [hasSpread, price, hbuyBBO, hsellBBO, Option.getD_some, Bool.and_eq_true,
    Bool.not_eq_true', Bool.or_eq_false_iff, decide_eq_false_iff_not] at hspread
  obtain ⟨⟨hbid, hask⟩, -⟩ := hspread
  refine ⟨buyBBO.askPrice, sellBBO.bidPrice, ?_⟩
  simp only [trade, workingPair_touchPair]
  rw [buySomeAsset_of_price (strategy.touchPair buy) hbuyBBO hask,
    sellSomeAsset_of_price ((strategy.touchPair buy).touchPair sell) hsellBBO hbid]
  rfl

end CrossArbitrage

/-! ## What the order manager sends -/

open CrossArbitrage (legOrder)

theorem serveAll_append (orderManager : OrderManager) (first second : List Call) :
    serveAll orderManager (first ++ second) =
      ((serveAll (serveAll orderManager first).1 second).1,
        (serveAll orderManager first).2 ++
          (serveAll (serveAll orderManager first).1 second).2) := by
  induction first generalizing orderManager with
  | nil => simp [serveAll]
  | cons call rest ih => simp [serveAll, ih]

theorem orderIsLive_iff {orderManager : OrderManager} {tradingPair : TradingPair} {side : Side} :
    OrderManager.orderIsLive (orderManager.getOrder tradingPair side) = true ↔
      ¬ orderManager.Free tradingPair side := by
  simp [OrderManager.orderIsLive, OrderManager.Free]

section Leg

variable (orderManager : OrderManager) (exchangeId : ExchangeId) (tradingPair : TradingPair)
  (price : Price) (side : Side) (cfg : Option TradeEngineCfg)

/-- A leg that is ready sends one request. -/
theorem sides_serveAll_legOrder (hcfg : cfg.isSome) (hfree : orderManager.Free tradingPair side) :
    (serveAll orderManager (legOrder exchangeId tradingPair price side cfg)).2.map (·.side) =
      [side] := by
  obtain ⟨cfg, rfl⟩ := Option.isSome_iff_exists.mp hcfg
  have hidle : ¬ OrderManager.orderIsLive (orderManager.getOrder tradingPair side) = true :=
    fun hlive => orderIsLive_iff.mp hlive hfree
  simp [legOrder, serveAll, serve, OrderManager.newOrder, hidle]

theorem serveAll_legOrder_of_not (h : ¬ (cfg.isSome ∧ orderManager.Free tradingPair side)) :
    (serveAll orderManager (legOrder exchangeId tradingPair price side cfg)).2 = [] := by
  cases cfg with
  | none => rfl
  | some cfg =>
      have hlive : OrderManager.orderIsLive (orderManager.getOrder tradingPair side) = true :=
        orderIsLive_iff.mpr fun hfree => h ⟨rfl, hfree⟩
      simp [legOrder, serveAll, serve, OrderManager.newOrder, hlive]

/-- A leg leaves the other slots alone. -/
theorem free_serveAll_legOrder {other : TradingPair} {otherSide : Side}
    (hother : (other, otherSide) ≠ (tradingPair, side)) :
    (serveAll orderManager (legOrder exchangeId tradingPair price side cfg)).1.Free
      other otherSide ↔ orderManager.Free other otherSide := by
  cases cfg with
  | none => rfl
  | some cfg =>
      simp only [legOrder, Option.map_some, Option.toList_some, serveAll, serve]
      rcases orderManager.newOrder_cases exchangeId tradingPair price side cfg.clip with
        hlive | ⟨-, hsent⟩
      · rw [hlive]
        exact orderManager.free_touch_iff tradingPair other otherSide
      · rw [hsent, OrderManager.Free, OrderManager.Free]
        exact orderManager.getOrder_setOrder_of_ne hother _ ▸ Iff.rfl

end Leg

/-! ## Both legs -/

theorem allOrNothing_iff_sides {requests : List RequestNewOrder} {sides : List Side}
    (h : requests.map (·.side) = sides) :
    AllOrNothing requests ↔ sides = [] ∨ sides.Perm [.kAsk, .kBid] := by
  rw [AllOrNothing, h, ← h, List.map_eq_nil_iff]

/-- The calls of a trade send one request for each leg that is ready. -/
theorem allOrNothing_trade_iff {strategy : CrossArbitrage} {buy sell : ExchangeId}
    (hspread : strategy.hasSpread buy sell = true) (hbuy : (strategy.prices buy).isSome)
    (hsell : (strategy.prices sell).isSome) (orderManager : OrderManager) :
    AllOrNothing (serveAll orderManager (strategy.trade buy sell).2).2 ↔
      (strategy.LegReady orderManager buy .kAsk ↔ strategy.LegReady orderManager sell .kBid) := by
  obtain ⟨askPrice, bidPrice, hcalls⟩ := strategy.trade_of_hasSpread hspread hbuy hsell
  rw [hcalls, serveAll_append]
  simp only [serveAll, serve, List.nil_append]
  set bought := serveAll orderManager (legOrder buy (strategy.workingPair buy) askPrice .kAsk
    (strategy.tickerCfg (strategy.workingPair buy))) with hbought
  have hslot : (strategy.workingPair sell, Side.kBid) ≠ (strategy.workingPair buy, .kAsk) := by
    simp
  have hfree : bought.1.Free (strategy.workingPair sell) .kBid ↔
      orderManager.Free (strategy.workingPair sell) .kBid :=
    free_serveAll_legOrder orderManager buy _ askPrice .kAsk _ hslot
  have hready : strategy.LegReady bought.1 sell .kBid ↔ strategy.LegReady orderManager sell .kBid :=
    and_congr_right fun _ => hfree
  rw [← hready]
  by_cases hfirst : strategy.LegReady orderManager buy .kAsk
  · have hsent := sides_serveAll_legOrder orderManager buy _ askPrice .kAsk _ hfirst.1 hfirst.2
    by_cases hsecond : strategy.LegReady bought.1 sell .kBid
    · have hsold := sides_serveAll_legOrder bought.1 sell _ bidPrice .kBid _ hsecond.1 hsecond.2
      rw [allOrNothing_iff_sides (by rw [List.map_append, hbought, hsent, hsold])]
      exact iff_of_true (.inr (List.Perm.refl _)) (iff_of_true hfirst hsecond)
    · have hsold := serveAll_legOrder_of_not bought.1 sell _ bidPrice .kBid _ hsecond
      rw [allOrNothing_iff_sides (by rw [hsold, List.append_nil, hbought, hsent])]
      exact iff_of_false (by decide) fun hboth => hsecond (hboth.mp hfirst)
  · have hsent : bought.2 = [] :=
      serveAll_legOrder_of_not orderManager buy _ askPrice .kAsk _ hfirst
    by_cases hsecond : strategy.LegReady bought.1 sell .kBid
    · have hsold := sides_serveAll_legOrder bought.1 sell _ bidPrice .kBid _ hsecond.1 hsecond.2
      rw [allOrNothing_iff_sides (by rw [hsent, List.nil_append, hsold])]
      exact iff_of_false (by decide) fun hboth => hfirst (hboth.mpr hsecond)
    · have hsold := serveAll_legOrder_of_not bought.1 sell _ bidPrice .kBid _ hsecond
      rw [hsent, hsold]
      exact iff_of_true (.inl rfl) (iff_of_false hfirst hsecond)

namespace CrossArbitrage

variable (strategy : CrossArbitrage)

/-- `LaunchPayload` reads both prices, which lists both exchanges. -/
theorem isSome_prices_touched {exchange : ExchangeId}
    (h : exchange = strategy.exch1 ∨ exchange = strategy.exch2) :
    (((strategy.touchPrice strategy.exch2).touchPrice strategy.exch1).prices exchange).isSome := by
  by_cases hfirst : exchange = strategy.exch1
  · simp [touchPrice, hfirst]
  · obtain rfl := h.resolve_left hfirst
    simp [touchPrice, Function.update_of_ne hfirst]

theorem launchPayload_of_spread {buy sell : ExchangeId}
    (h : strategy.spread = some (buy, sell)) : strategy.hasSpread buy sell = true ∧
      (buy = strategy.exch1 ∨ buy = strategy.exch2) ∧
      (sell = strategy.exch1 ∨ sell = strategy.exch2) ∧ strategy.launchPayload =
        ((strategy.touchPrice strategy.exch2).touchPrice strategy.exch1).trade buy sell := by
  rw [spread] at h
  split at h
  · rename_i hfirst
    cases h
    exact ⟨hfirst, .inl rfl, .inr rfl, by simp [launchPayload_eq, hfirst]⟩
  · rename_i hfirst
    split at h
    · rename_i hsecond
      cases h
      exact ⟨hsecond, .inr rfl, .inl rfl, by simp [launchPayload_eq, hfirst, hsecond]⟩
    · cases h

theorem launchPayload_of_none (h : strategy.spread = none) : strategy.launchPayload.2 = [] := by
  rw [spread] at h
  split at h
  · cases h
  · rename_i hfirst
    split at h
    · cases h
    · rename_i hsecond
      simp [launchPayload_eq, hfirst, hsecond]

theorem allOrNothing_launchPayload_iff (orderManager : OrderManager) :
    AllOrNothing (serveAll orderManager strategy.launchPayload.2).2 ↔
      strategy.LegsMatch orderManager := by
  cases hspread : strategy.spread with
  | none =>
      rw [strategy.launchPayload_of_none hspread]
      exact iff_of_true (.inl rfl) (by simp [LegsMatch, hspread])
  | some exchanges =>
      obtain ⟨buy, sell⟩ := exchanges
      obtain ⟨hprices, hbuy, hsell, hpayload⟩ := strategy.launchPayload_of_spread hspread
      have hkept : ((strategy.touchPrice strategy.exch2).touchPrice strategy.exch1).hasSpread
          buy sell = true := by
        simpa only [hasSpread, price_touchPrice] using hprices
      rw [hpayload, allOrNothing_trade_iff hkept (strategy.isSome_prices_touched hbuy)
        (strategy.isSome_prices_touched hsell)]
      simp only [LegsMatch, hspread, Option.some.injEq, Prod.mk.injEq]
      constructor
      · rintro hmatch _ _ ⟨rfl, rfl⟩
        exact hmatch
      · intro hmatch
        exact hmatch buy sell ⟨rfl, rfl⟩

end CrossArbitrage

namespace Trader

/-- A signal makes both requests or none, if and only if the prices it leaves show
no spread or the two legs are ready alike. -/
theorem allOrNothing_iff (trader : Trader) (signal : Signal) :
    AllOrNothing (trader.onNewSignal signal).2 ↔
      (trader.strategy.processSignal signal).LegsMatch trader.orderManager :=
  (trader.strategy.processSignal signal).allOrNothing_launchPayload_iff trader.orderManager

/-- An ask is known and an earlier sale of the pair is still pending: the purchase
is sent alone. -/
def pendingSale : Trader where
  strategy := CrossArbitrage.twoExchanges.processSignal (.bAskUpdated .kBinance ⟨2, 1⟩ 100 1)
  orderManager := (({} : OrderManager).newOrder .kBybit ⟨2, 1⟩ 95 .kBid 1).1

theorem not_allOrNothing_pendingSale :
    ¬ AllOrNothing (pendingSale.onNewSignal (.bBidUpdated .kBybit ⟨2, 1⟩ 110 1)).2 := by
  decide

end Trader

end CryptoBot.Strategy

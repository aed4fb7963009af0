/-
# The cross-exchange arbitrage strategy

`CrossArbitrage` stores the best bid and ask of each exchange as they are
signalled, and after every signal looks for a bid on one of its two exchanges
above the ask on the other.  It then buys where the ask is and sells where the
bid is.

The comparison is written as `bid - ask > 0` on unsigned words, which holds
whenever the two differ.  `tradesOnSpread_iff` is the exact condition on the
quotes under which a run of the strategy trades on real spreads only.
-/

import CryptoBot.Book.MarketOrderBook

namespace CryptoBot.Strategy

open CryptoBot.Common CryptoBot.Math
open CryptoBot.Book (BBO)

/-- `strategy::cross_arbitrage::Event`, by its `EventType`. -/
inductive Signal
  | bBidUpdated (exchange : ExchangeId) (tradingPair : TradingPair) (price : Price) (qty : Qty)
  | bAskUpdated (exchange : ExchangeId) (tradingPair : TradingPair) (price : Price) (qty : Qty)
  | noEvent
  deriving DecidableEq, Repr

/-- The calls made while a signal is handled. -/
inductive Call
  | buySomeAsset (exchangeId : ExchangeId) (pair : TradingPair)
  | sellSomeAsset (exchangeId : ExchangeId) (tradingPair : TradingPair)
  | newOrder (exchangeId : ExchangeId) (tradingPair : TradingPair) (price : Price) (side : Side)
      (qty : Qty)
  deriving DecidableEq, Repr

/-- `clip` is the only field of `TradeEngineCfg` the strategy reads. -/
structure TradeEngineCfg where
  clip : Qty := 0
  deriving DecidableEq, Repr

structure CrossArbitrage where
  prices : ExchangeId → Option BBO
  workingPairs : ExchangeId → Option TradingPair
  exch1 : ExchangeId
  exch2 : ExchangeId
  tickerCfg : TradingPair → Option TradeEngineCfg

namespace CrossArbitrage

/-- The constructor: the first and the last exchange of the list are the two the
strategy compares, and every exchange with a working pair gets an invalid BBO. -/
def new (workingPairs : ExchangeId → Option TradingPair) (exchanges : List ExchangeId)
    (nonempty : exchanges ≠ []) (tickerCfg : TradingPair → Option TradeEngineCfg) :
    CrossArbitrage where
  prices exchange := (workingPairs exchange).map fun _ => {}
  workingPairs := workingPairs
  exch1 := exchanges.head nonempty
  exch2 := exchanges.getLast nonempty
  tickerCfg := tickerCfg

variable (strategy : CrossArbitrage)

/-- The value of `prices_[exchange]`. -/
def price (exchange : ExchangeId) : BBO := (strategy.prices exchange).getD {}

/-- The value of `working_pairs_[exchange]`. -/
def workingPair (exchange : ExchangeId) : TradingPair :=
  (strategy.workingPairs exchange).getD {}

/-- `prices_[exchange]` inserts an invalid BBO for a new exchange. -/
def touchPrice (exchange : ExchangeId) : CrossArbitrage :=
  { strategy with
    prices := Function.update strategy.prices exchange (some (strategy.price exchange)) }

/-- `working_pairs_[exchange]` inserts a default pair for a new exchange. -/
def touchPair (exchange : ExchangeId) : CrossArbitrage :=
  { strategy with
    workingPairs :=
      Function.update strategy.workingPairs exchange (some (strategy.workingPair exchange)) }

def buySomeAsset (exchangeId : ExchangeId) (pair : TradingPair) : List Call :=
  .buySomeAsset exchangeId pair ::
    match strategy.prices exchangeId, strategy.tickerCfg pair with
    | some bbo, some cfg =>
        if bbo.askPrice = kPriceInvalid then []
        else [.newOrder exchangeId pair bbo.askPrice .kAsk cfg.clip]
    | _, _ => []

def sellSomeAsset (exchangeId : ExchangeId) (tradingPair : TradingPair) : List Call :=
  .sellSomeAsset exchangeId tradingPair ::
    match strategy.prices exchangeId, strategy.tickerCfg tradingPair with
    | some bbo, some cfg =>
        if bbo.bidPrice = kPriceInvalid then []
        else [.newOrder exchangeId tradingPair bbo.bidPrice .kBid cfg.clip]
    | _, _ => []

def processSignal : Signal → CrossArbitrage
  | .bBidUpdated exchange _ price qty =>
      { strategy with
        prices := Function.update strategy.prices exchange
          (some { strategy.price exchange with bidPrice := price, bidQty := qty }) }
  | .bAskUpdated exchange _ price qty =>
      { strategy with
        prices := Function.update strategy.prices exchange
          (some { strategy.price exchange with askPrice := price, askQty := qty }) }
  | .noEvent => strategy

/-- Both prices are valid and their difference, an unsigned word, is positive. -/
def hasSpread (buy sell : ExchangeId) : Bool :=
  !(decide ((strategy.price sell).bidPrice = kPriceInvalid) ||
      decide ((strategy.price buy).askPrice = kPriceInvalid)) &&
    decide ((strategy.price sell).bidPrice - (strategy.price buy).askPrice > 0)

/-- Buy on one exchange and sell on the other. -/
def trade (buy sell : ExchangeId) : CrossArbitrage × List Call :=
  let strategy := strategy.touchPair buy
  let calls := strategy.buySomeAsset buy (strategy.workingPair buy)
  let strategy := strategy.touchPair sell
  (strategy, calls ++ strategy.sellSomeAsset sell (strategy.workingPair sell))

/-- The conditions read the prices of both exchanges, in some order, before
anything is decided. -/
def launchPayload : CrossArbitrage × List Call :=
  let strategy := (strategy.touchPrice strategy.exch2).touchPrice strategy.exch1
  if strategy.hasSpread strategy.exch1 strategy.exch2 then
    strategy.trade strategy.exch1 strategy.exch2
  else if strategy.hasSpread strategy.exch2 strategy.exch1 then
    strategy.trade strategy.exch2 strategy.exch1
  else (strategy, [])

def onNewSignal (signal : Signal) : CrossArbitrage × List Call :=
  (strategy.processSignal signal).launchPayload

/-- The strategy as a machine that makes calls. -/
def machine : Machine CrossArbitrage Signal Call where
  init := strategy
  step := onNewSignal

/-! ## What a signal makes the strategy do -/

theorem price_touchPrice (touched exchange : ExchangeId) :
    (strategy.touchPrice touched).price exchange = strategy.price exchange := by
  by_cases h : exchange = touched
  · subst h
    simp [touchPrice, price]
  · simp [touchPrice, price, Function.update_of_ne h]

/-- `LaunchPayload` decides on the stored prices. -/
theorem launchPayload_eq :
    strategy.launchPayload =
      (let ready := (strategy.touchPrice strategy.exch2).touchPrice strategy.exch1
      if strategy.hasSpread strategy.exch1 strategy.exch2 then
        ready.trade strategy.exch1 strategy.exch2
      else if strategy.hasSpread strategy.exch2 strategy.exch1 then
        ready.trade strategy.exch2 strategy.exch1
      else (ready, [])) := by
  simp only [launchPayload, hasSpread, price_touchPrice]
  rfl

/-- The calls buy on one exchange and sell on the other. -/
def Trades (calls : List Call) (buy sell : ExchangeId) : Prop :=
  (∃ pair, .buySomeAsset buy pair ∈ calls) ∧ ∃ tradingPair, .sellSomeAsset sell tradingPair ∈ calls

/-- A leg makes no calls besides orders on its exchange. -/
def OnlyOrders (exchangeId : ExchangeId) (calls : List Call) : Prop :=
  ∀ call ∈ calls, ∃ tradingPair price side qty,
    call = .newOrder exchangeId tradingPair price side qty

theorem buySomeAsset_eq (exchangeId : ExchangeId) (pair : TradingPair) :
    ∃ orders, strategy.buySomeAsset exchangeId pair = .buySomeAsset exchangeId pair :: orders ∧
      OnlyOrders exchangeId orders := by
  refine ⟨_, rfl, ?_⟩
  split
  · split
    · simp [OnlyOrders]
    · intro call hcall
      exact ⟨_, _, _, _, List.mem_singleton.mp hcall⟩
  · simp [OnlyOrders]

theorem sellSomeAsset_eq (exchangeId : ExchangeId) (tradingPair : TradingPair) :
    ∃ orders,
      strategy.sellSomeAsset exchangeId tradingPair =
        .sellSomeAsset exchangeId tradingPair :: orders ∧
      OnlyOrders exchangeId orders := by
  refine ⟨_, rfl, ?_⟩
  split
  · split
    · simp [OnlyOrders]
    · intro call hcall
      exact ⟨_, _, _, _, List.mem_singleton.mp hcall⟩
  · simp [OnlyOrders]

theorem OnlyOrders.notMem_buy {exchangeId : ExchangeId} {orders : List Call}
    (h : OnlyOrders exchangeId orders) (exchange : ExchangeId) (pair : TradingPair) :
    Call.buySomeAsset exchange pair ∉ orders := by
  intro hmem
  obtain ⟨_, _, _, _, heq⟩ := h _ hmem
  cases heq

theorem OnlyOrders.notMem_sell {exchangeId : ExchangeId} {orders : List Call}
    (h : OnlyOrders exchangeId orders) (exchange : ExchangeId) (pair : TradingPair) :
    Call.sellSomeAsset exchange pair ∉ orders := by
  intro hmem
  obtain ⟨_, _, _, _, heq⟩ := h _ hmem
  cases heq

/-- The legs of a trade make no other legs. -/
theorem trades_trade_iff {buy sell first second : ExchangeId} :
    Trades (strategy.trade buy sell).2 first second ↔ first = buy ∧ second = sell := by
  obtain ⟨buyOrders, hbuy, hbuyOrders⟩ :=
    (strategy.touchPair buy).buySomeAsset_eq buy ((strategy.touchPair buy).workingPair buy)
  obtain ⟨sellOrders, hsell, hsellOrders⟩ :=
    ((strategy.touchPair buy).touchPair sell).sellSomeAsset_eq sell
      (((strategy.touchPair buy).touchPair sell).workingPair sell)
  simp only [Trades, trade, hbuy, hsell, List.cons_append, List.mem_cons, List.mem_append,
    Call.buySomeAsset.injEq, Call.sellSomeAsset.injEq, reduceCtorEq, hbuyOrders.notMem_buy,
    hbuyOrders.notMem_sell, hsellOrders.notMem_buy, hsellOrders.notMem_sell, false_or, or_false,
    exists_and_left, exists_eq, and_true]

theorem trades_launchPayload_iff {first second : ExchangeId} :
    Trades strategy.launchPayload.2 first second ↔
      (strategy.hasSpread strategy.exch1 strategy.exch2 = true ∧
          first = strategy.exch1 ∧ second = strategy.exch2) ∨
        (strategy.hasSpread strategy.exch1 strategy.exch2 = false ∧
          strategy.hasSpread strategy.exch2 strategy.exch1 = true ∧
          first = strategy.exch2 ∧ second = strategy.exch1) := by
  rw [launchPayload_eq]
  cases hfirst : strategy.hasSpread strategy.exch1 strategy.exch2 with
  | true => simp [trades_trade_iff]
  | false =>
      cases hsecond : strategy.hasSpread strategy.exch2 strategy.exch1 with
      | true => simp [trades_trade_iff]
      | false => simp [Trades]

/-! ## Real spreads -/

/-- The bid on `sell` and the ask on `buy` are valid, and the bid is higher. -/
def RealSpread (buy sell : ExchangeId) : Prop :=
  (strategy.price sell).bidPrice ≠ kPriceInvalid ∧ (strategy.price buy).askPrice ≠ kPriceInvalid ∧
    (strategy.price sell).bidPrice > (strategy.price buy).askPrice

/-- The bid on `sell` and the ask on `buy` are valid, and the bid is lower. -/
def InvertedSpread (buy sell : ExchangeId) : Prop :=
  (strategy.price sell).bidPrice ≠ kPriceInvalid ∧ (strategy.price buy).askPrice ≠ kPriceInvalid ∧
    (strategy.price sell).bidPrice < (strategy.price buy).askPrice

instance : DecidableRel strategy.RealSpread :=
  fun _ _ => inferInstanceAs (Decidable (_ ∧ _))

instance : DecidableRel strategy.InvertedSpread :=
  fun _ _ => inferInstanceAs (Decidable (_ ∧ _))

/-- The unsigned difference does not tell the two apart. -/
theorem hasSpread_iff {buy sell : ExchangeId} :
    strategy.hasSpread buy sell = true ↔
      strategy.RealSpread buy sell ∨ strategy.InvertedSpread buy sell := by
  have hdifference (bid ask : Price) : bid - ask > 0 ↔ bid > ask ∨ bid < ask := by
    grind
  simp only [hasSpread, RealSpread, InvertedSpread, Bool.and_eq_true, Bool.not_eq_true',
    Bool.or_eq_false_iff, decide_eq_false_iff_not, decide_eq_true_eq, hdifference, ne_eq,
    and_or_left, and_assoc]

/-- The bid of the second exchange is not below the ask of the first one, and
unless it is above, the bid of the first exchange is not below the ask of the
second one. -/
def SoundQuotes : Prop :=
  ¬ strategy.InvertedSpread strategy.exch1 strategy.exch2 ∧
    (strategy.RealSpread strategy.exch1 strategy.exch2 ∨
      ¬ strategy.InvertedSpread strategy.exch2 strategy.exch1)

instance : Decidable strategy.SoundQuotes :=
  inferInstanceAs (Decidable (_ ∧ _))

theorem not_real_of_inverted {buy sell : ExchangeId} (h : strategy.InvertedSpread buy sell) :
    ¬ strategy.RealSpread buy sell := by
  rintro ⟨-, -, hhigher⟩
  have hlower := h.2.2
  grind

/-- One decision is right exactly on sound quotes. -/
theorem launchPayload_real_iff :
    (∀ buy sell, Trades strategy.launchPayload.2 buy sell → strategy.RealSpread buy sell) ↔
      strategy.SoundQuotes := by
  simp only [trades_launchPayload_iff]
  constructor
  · intro hreal
    refine ⟨fun hinverted => ?_, ?_⟩
    · have htrades := strategy.hasSpread_iff.mpr (.inr hinverted)
      exact strategy.not_real_of_inverted hinverted (hreal _ _ (.inl ⟨htrades, rfl, rfl⟩))
    · cases hfirst : strategy.hasSpread strategy.exch1 strategy.exch2 with
      | true => exact .inl (hreal _ _ (.inl ⟨hfirst, rfl, rfl⟩))
      | false =>
          right
          intro hinverted
          have htrades := strategy.hasSpread_iff.mpr (.inr hinverted)
          exact strategy.not_real_of_inverted hinverted
            (hreal _ _ (.inr ⟨hfirst, htrades, rfl, rfl⟩))
  · rintro ⟨hfirst, hsecond⟩ buy sell (⟨htrades, rfl, rfl⟩ | ⟨hsilent, htrades, rfl, rfl⟩)
    · exact (strategy.hasSpread_iff.mp htrades).resolve_right hfirst
    · have hnotReal : ¬ strategy.RealSpread strategy.exch1 strategy.exch2 := fun hreal => by
        rw [strategy.hasSpread_iff.mpr (.inl hreal)] at hsilent
        cases hsilent
      exact (strategy.hasSpread_iff.mp htrades).resolve_right (hsecond.resolve_left hnotReal)

/-- In every step of the run, a trade is made on a real spread of the prices
stored at that time. -/
def TradesOnSpread (signals : List Signal) : Prop :=
  EveryStep (fun before signal => ∀ buy sell,
    Trades (strategy.machine.emitted before signal) buy sell →
      ((strategy.machine.run before).processSignal signal).RealSpread buy sell) signals

/-- A run trades on real spreads only, exactly when the quotes are sound after
each of its signals. -/
theorem tradesOnSpread_iff (signals : List Signal) :
    strategy.TradesOnSpread signals ↔
      EveryStep (fun before signal =>
        ((strategy.machine.run before).processSignal signal).SoundQuotes) signals := by
  constructor
  · intro htrades before signal after heq
    exact (launchPayload_real_iff _).mp (htrades before signal after heq)
  · intro hsound before signal after heq
    exact (launchPayload_real_iff _).mpr (hsound before signal after heq)

/-- Two exchanges trading one pair with a clip of one. -/
def twoExchanges : CrossArbitrage :=
  .new (fun exchange => if exchange = .kBinance ∨ exchange = .kBybit then some ⟨2, 1⟩ else none)
    [.kBinance, .kBybit] (by decide) (fun pair => if pair = ⟨2, 1⟩ then some ⟨1⟩ else none)

/-- The bid on Bybit is below the ask on Binance, and the strategy buys at 100
to sell at 90. -/
theorem not_tradesOnSpread_twoExchanges :
    ¬ twoExchanges.TradesOnSpread
      [.bAskUpdated .kBinance ⟨2, 1⟩ 100 1, .bBidUpdated .kBybit ⟨2, 1⟩ 90 1] := by
  intro htrades
  have hreal := htrades [.bAskUpdated .kBinance ⟨2, 1⟩ 100 1] (.bBidUpdated .kBybit ⟨2, 1⟩ 90 1) []
    rfl .kBinance .kBybit ⟨⟨⟨2, 1⟩, by decide⟩, ⟨2, 1⟩, by decide⟩
  exact absurd hreal.2.2 (by decide)

end CrossArbitrage

end CryptoBot.Strategy

/-
# From the order book to the strategy

`cross_arbitrage::OrderBook` publishes what changes at the top of its book: after
`updateBBO` a message with the price and quantity of the side that was refreshed
goes to the channel of the trade engine.  `CrossArbitrage::ProcessSignal` takes
the messages from the channel and rebuilds the two sides from them.

A message carries a copy of its side at the time it is sent, and the book goes on
while the message waits.  Each side is a source, a queue and a copy in the sense
of `Mirror`: the strategy sees the book as it was, never out of order, and as it
is once the channel is empty.
-/

import CryptoBot.Book.SharedBook
import CryptoBot.Math.Mirror
import CryptoBot.Strategy.CrossArbitrage

namespace CryptoBot.Strategy

open CryptoBot.Common CryptoBot.MarketData CryptoBot.Math
open CryptoBot.Book (BBO Containers MarketOrderBook MarketOrderBook2)

/-- `position_keeper::UpdateBBO`.  It points to the BBO of its book. -/
structure UpdateBBO where
  exchangeId : ExchangeId
  tradingPair : TradingPair
  deriving DecidableEq, Repr

/-- `cross_arbitrage::OrderBook`.  A channel may be missing. -/
structure OrderBook (containers : Containers) where
  book : MarketOrderBook containers
  tradingPair : TradingPair
  exchange : ExchangeId
  orderbookTradeengineChannel : Option (List Signal)
  orderbookPositionkeeperChannel : Option (List UpdateBBO)

namespace OrderBook

variable {containers : Containers} (orderBook : OrderBook containers)

/-- One message to each channel. -/
def sendMessages (signals : List Signal) (updates : List UpdateBBO) (signal : Signal) :
    OrderBook containers :=
  { orderBook with
    orderbookTradeengineChannel := some (signals ++ [signal])
    orderbookPositionkeeperChannel :=
      some (updates ++ [⟨orderBook.exchange, orderBook.tradingPair⟩]) }

/-- At most one side is published, the bid if both were refreshed. -/
def updateBBO (updateBid updateAsk : Bool) : OrderBook containers :=
  let orderBook := { orderBook with book := orderBook.book.updateBBO updateBid updateAsk }
  match orderBook.orderbookTradeengineChannel, orderBook.orderbookPositionkeeperChannel with
  | none, _ => orderBook
  | some _, none => orderBook
  | some signals, some updates =>
      let bbo := orderBook.book.bbo
      if updateBid then
        orderBook.sendMessages signals updates
          (.bBidUpdated orderBook.exchange orderBook.tradingPair bbo.bidPrice bbo.bidQty)
      else if updateAsk then
        orderBook.sendMessages signals updates
          (.bAskUpdated orderBook.exchange orderBook.tradingPair bbo.askPrice bbo.askQty)
      else orderBook

def onMarketUpdate (marketUpdate : MEMarketUpdate) : OrderBook containers :=
  match orderBook.book.process marketUpdate with
  | (book, none) => { orderBook with book }
  | (book, some (updateBid, updateAsk)) => { orderBook with book }.updateBBO updateBid updateAsk

/-- A new book with both channels, which are empty. -/
def new (containers : Containers) (exchange : ExchangeId) (tradingPair : TradingPair) :
    OrderBook containers where
  book := .new containers
  tradingPair := tradingPair
  exchange := exchange
  orderbookTradeengineChannel := some []
  orderbookPositionkeeperChannel := some []

end OrderBook

/-- A book and the strategy at the other end of its channel. -/
structure PriceFeed (containers : Containers) where
  orderBook : OrderBook containers
  strategy : CrossArbitrage

namespace PriceFeed

/-- The book handles an update, or the strategy takes a signal. -/
inductive Event
  | onMarketUpdate (marketUpdate : MEMarketUpdate)
  | processSignal
  deriving DecidableEq, Repr

variable {containers : Containers}

def step (feed : PriceFeed containers) : Event → PriceFeed containers
  | .onMarketUpdate marketUpdate =>
      { feed with orderBook := feed.orderBook.onMarketUpdate marketUpdate }
  | .processSignal =>
      match feed.orderBook.orderbookTradeengineChannel with
      | some (signal :: rest) =>
          { orderBook := { feed.orderBook with orderbookTradeengineChannel := some rest }
            strategy := feed.strategy.processSignal signal }
      | some [] | none => feed

/-- The feed after the first events of a run. -/
def after (feed : PriceFeed containers) (events : List Event) (now : Nat) : PriceFeed containers :=
  (events.take now).foldl step feed

/-! ## The sides of a feed -/

/-- The price and the quantity of a side. -/
def sideOf (isBids : Bool) (bbo : BBO) : Price × Qty :=
  if isBids then (bbo.bidPrice, bbo.bidQty) else (bbo.askPrice, bbo.askQty)

/-- What a signal says about a side. -/
def signalOf (isBids : Bool) : Signal → Option (Price × Qty)
  | .bBidUpdated _ _ price qty => if isBids then some (price, qty) else none
  | .bAskUpdated _ _ price qty => if isBids then none else some (price, qty)
  | .noEvent => none

/-- The signals on their way to the strategy. -/
def pending (feed : PriceFeed containers) : List Signal :=
  feed.orderBook.orderbookTradeengineChannel.getD []

/-- The price of the exchange that the strategy has stored. -/
def seen (feed : PriceFeed containers) : BBO := feed.strategy.price feed.orderBook.exchange

/-- A side of the book, its messages and the strategy's copy of it. -/
def view (isBids : Bool) (feed : PriceFeed containers) : Mirror (Price × Qty) where
  source := sideOf isBids feed.orderBook.book.bbo
  queue := feed.pending.filterMap (signalOf isBids)
  copy := sideOf isBids feed.seen

theorem eq_of_sideOf {first second : BBO} (hbids : sideOf true first = sideOf true second)
    (hasks : sideOf false first = sideOf false second) : first = second := by
  cases first
  cases second
  simp_all [sideOf]

/-- Both channels are there, and the signals are about this exchange. -/
structure Attached (feed : PriceFeed containers) : Prop where
  tradeengine : feed.orderBook.orderbookTradeengineChannel = some feed.pending
  positionkeeper : feed.orderBook.orderbookPositionkeeperChannel.isSome
  own : ∀ signal ∈ feed.pending, ∃ tradingPair price qty,
    signal = .bBidUpdated feed.orderBook.exchange tradingPair price qty ∨
      signal = .bAskUpdated feed.orderBook.exchange tradingPair price qty

end PriceFeed

/-! ## One update of the book -/

/-- What an update does to the BBO and to the channels: nothing, or it refreshes
one side and publishes it. -/
theorem OrderBook.onMarketUpdate_cases {containers : Containers} (orderBook : OrderBook containers)
    {signals : List Signal} {updates : List UpdateBBO}
    (hsignals : orderBook.orderbookTradeengineChannel = some signals)
    (hupdates : orderBook.orderbookPositionkeeperChannel = some updates)
    (marketUpdate : MEMarketUpdate) :
    (orderBook.onMarketUpdate marketUpdate).exchange = orderBook.exchange ∧
      (orderBook.onMarketUpdate marketUpdate).orderbookPositionkeeperChannel.isSome ∧
      ((orderBook.onMarketUpdate marketUpdate).book.bbo = orderBook.book.bbo ∧
          (orderBook.onMarketUpdate marketUpdate).orderbookTradeengineChannel = some signals ∨
        (∃ price qty, (orderBook.onMarketUpdate marketUpdate).book.bbo =
            { orderBook.book.bbo with bidPrice := price, bidQty := qty } ∧
          (orderBook.onMarketUpdate marketUpdate).orderbookTradeengineChannel = some (signals ++
            [.bBidUpdated orderBook.exchange orderBook.tradingPair price qty])) ∨
        ∃ price qty, (orderBook.onMarketUpdate marketUpdate).book.bbo =
            { orderBook.book.bbo with askPrice := price, askQty := qty } ∧
          (orderBook.onMarketUpdate marketUpdate).orderbookTradeengineChannel = some (signals ++
            [.bAskUpdated orderBook.exchange orderBook.tradingPair price qty])) := by
  have hbbo := orderBook.book.bbo_process marketUpdate
  have hflags := @orderBook.book.flags_process _ marketUpdate
  rw [OrderBook.onMarketUpdate]
  generalize orderBook.book.process marketUpdate = processed at hbbo hflags ⊢
  obtain ⟨book, flags⟩ := processed
  cases flags with
  | none => simp_all
  | some flags =>
      obtain ⟨updateBid, updateAsk⟩ := flags
      cases updateBid <;> cases updateAsk <;>
        simp_all [OrderBook.updateBBO, OrderBook.sendMessages, MarketOrderBook.updateBBO]

namespace PriceFeed

variable {containers : Containers} {feed : PriceFeed containers}

/-! ## One event -/

theorem exchange_onMarketUpdate (h : feed.Attached) (marketUpdate : MEMarketUpdate) :
    (feed.orderBook.onMarketUpdate marketUpdate).exchange = feed.orderBook.exchange := by
  obtain ⟨updates, hupdates⟩ := Option.isSome_iff_exists.mp h.positionkeeper
  exact (feed.orderBook.onMarketUpdate_cases h.tradeengine hupdates marketUpdate).1

/-- A signal that was published carries the side it is about, and leaves the other
side alone. -/
theorem Attached.publish (h : feed.Attached) {next : PriceFeed containers} {signal : Signal}
    (hseen : next.seen = feed.seen) (hexchange : next.orderBook.exchange = feed.orderBook.exchange)
    (hkeeper : next.orderBook.orderbookPositionkeeperChannel.isSome)
    (hchannel : next.orderBook.orderbookTradeengineChannel = some (feed.pending ++ [signal]))
    (hown : ∃ tradingPair price qty,
      signal = .bBidUpdated feed.orderBook.exchange tradingPair price qty ∨
        signal = .bAskUpdated feed.orderBook.exchange tradingPair price qty)
    {isBids : Bool} (hside : signalOf isBids signal = some (sideOf isBids next.orderBook.book.bbo) ∨
      signalOf isBids signal = none ∧
        sideOf isBids next.orderBook.book.bbo = sideOf isBids feed.orderBook.book.bbo) :
    next.Attached ∧ Mirror.Step (view isBids feed) (view isBids next) := by
  have hpending : next.pending = feed.pending ++ [signal] := by
    rw [pending, hchannel, Option.getD_some]
  refine ⟨⟨by rw [hchannel, hpending], hkeeper, ?_⟩, ?_⟩
  · rw [hpending, hexchange]
    intro queued hmem
    rcases List.mem_append.mp hmem with hmem | hmem
    · exact h.own queued hmem
    · rw [List.mem_singleton.mp hmem]
      exact hown
  · rcases hside with hside | ⟨hother, hside⟩
    · have hview : view isBids next = ⟨sideOf isBids next.orderBook.book.bbo,
          (view isBids feed).queue ++ [sideOf isBids next.orderBook.book.bbo],
          (view isBids feed).copy⟩ := by
        simp [view, hpending, hside, hseen]
      rw [hview]
      exact .publish _ _
    · have hview : view isBids next = view isBids feed := by
        simp [view, hpending, hother, hside, hseen]
      rw [hview]
      exact .idle _

/-- A side is left alone by an update, or refreshed and published. -/
theorem Attached.onMarketUpdate (h : feed.Attached) (marketUpdate : MEMarketUpdate)
    (isBids : Bool) : (feed.step (.onMarketUpdate marketUpdate)).Attached ∧
      Mirror.Step (view isBids feed) (view isBids (feed.step (.onMarketUpdate marketUpdate))) := by
  obtain ⟨updates, hupdates⟩ := Option.isSome_iff_exists.mp h.positionkeeper
  obtain ⟨hexchange, hkeeper, hcases⟩ :=
    feed.orderBook.onMarketUpdate_cases h.tradeengine hupdates marketUpdate
  set next := feed.step (.onMarketUpdate marketUpdate) with hnext
  have hbook : next.orderBook = feed.orderBook.onMarketUpdate marketUpdate := rfl
  have hseen : next.seen = feed.seen := by
    rw [seen, hbook, hexchange]
    rfl
  rw [← hbook] at hexchange hkeeper hcases
  rcases hcases with ⟨hbbo, hchannel⟩ | ⟨price, qty, hbbo, hchannel⟩ | ⟨price, qty, hbbo, hchannel⟩
  · have hpending : next.pending = feed.pending := by rw [pending, hchannel, Option.getD_some]
    refine ⟨⟨by rw [hchannel, hpending], hkeeper, by rw [hpending, hexchange]; exact h.own⟩, ?_⟩
    have hsame : view isBids next = view isBids feed := by
      rw [view, view, hbbo, hpending, hseen]
    rw [hsame]
    exact .idle _
  · refine h.publish hseen hexchange hkeeper hchannel ⟨_, _, _, .inl rfl⟩ ?_
    rw [hbbo]
    cases isBids <;> simp [signalOf, sideOf]
  · refine h.publish hseen hexchange hkeeper hchannel ⟨_, _, _, .inr rfl⟩ ?_
    rw [hbbo]
    cases isBids <;> simp [signalOf, sideOf]

/-- A signal that is taken moves the copy of the side it is about. -/
theorem step_of_taken {next : PriceFeed containers} {signal : Signal} {rest : List Signal}
    (hpending : feed.pending = signal :: rest) (hrest : next.pending = rest)
    (hbbo : next.orderBook.book.bbo = feed.orderBook.book.bbo) {isBids : Bool}
    (hside : signalOf isBids signal = some (sideOf isBids next.seen) ∨
      signalOf isBids signal = none ∧ sideOf isBids next.seen = sideOf isBids feed.seen) :
    Mirror.Step (view isBids feed) (view isBids next) := by
  rcases hside with hside | ⟨hother, hside⟩
  · have hview : view isBids feed = ⟨(view isBids next).source,
        (view isBids next).copy :: (view isBids next).queue, (view isBids feed).copy⟩ := by
      simp [view, hpending, hrest, hbbo, hside]
    rw [hview]
    exact .consume _ _ _ _
  · have hview : view isBids next = view isBids feed := by
      simp [view, hpending, hrest, hbbo, hother, hside]
    rw [hview]
    exact .idle _

/-- The strategy takes the oldest signal, if there is one. -/
theorem Attached.processSignal (h : feed.Attached) (isBids : Bool) :
    (feed.step .processSignal).Attached ∧
      Mirror.Step (view isBids feed) (view isBids (feed.step .processSignal)) := by
  cases hpending : feed.pending with
  | nil =>
      have hsame : feed.step .processSignal = feed := by
        simp [step, h.tradeengine, hpending]
      rw [hsame]
      exact ⟨h, .idle _⟩
  | cons signal rest =>
      set next := feed.step .processSignal with hnext
      have hstep : next =
          { orderBook := { feed.orderBook with orderbookTradeengineChannel := some rest }
            strategy := feed.strategy.processSignal signal } := by
        simp [hnext, step, h.tradeengine, hpending]
      have hrest : next.pending = rest := by simp [hstep, pending]
      refine ⟨⟨?_, ?_, ?_⟩, ?_⟩
      · rw [hrest, hstep]
      · rw [hstep]
        exact h.positionkeeper
      · intro queued hmem
        rw [hrest] at hmem
        have hown := h.own queued (by simp [hpending, hmem])
        rwa [hstep]
      · apply step_of_taken hpending hrest (by rw [hstep])
        have hseen : next.seen =
            (feed.strategy.processSignal signal).price feed.orderBook.exchange := by
          rw [hstep]
          rfl
        rw [hseen]
        obtain ⟨tradingPair, price, qty, rfl | rfl⟩ := h.own signal (by simp [hpending]) <;>
          cases isBids <;>
          simp [signalOf, sideOf, seen, CrossArbitrage.processSignal, CrossArbitrage.price]

theorem exchange_step (h : feed.Attached) (event : Event) :
    (feed.step event).orderBook.exchange = feed.orderBook.exchange := by
  cases event with
  | onMarketUpdate marketUpdate => exact exchange_onMarketUpdate h marketUpdate
  | processSignal =>
      rw [step]
      split <;> rfl

theorem Attached.step (h : feed.Attached) (event : Event) (isBids : Bool) :
    (feed.step event).Attached ∧
      Mirror.Step (view isBids feed) (view isBids (feed.step event)) := by
  cases event with
  | onMarketUpdate marketUpdate => exact h.onMarketUpdate marketUpdate isBids
  | processSignal => exact h.processSignal isBids

/-! ## Runs -/

theorem after_succ (feed : PriceFeed containers) (events : List Event) (now : Nat) :
    feed.after events (now + 1) = feed.after events now ∨
      ∃ event, feed.after events (now + 1) = (feed.after events now).step event := by
  rw [after, after, List.take_add_one, List.foldl_append]
  cases events[now]? with
  | none => exact .inl rfl
  | some event => exact .inr ⟨event, rfl⟩

theorem Attached.after (h : feed.Attached) (events : List Event) (now : Nat) :
    (feed.after events now).Attached := by
  induction now with
  | zero => simpa [PriceFeed.after] using h
  | succ now ih =>
      rcases feed.after_succ events now with hsame | ⟨event, hstep⟩
      · rwa [hsame]
      · rw [hstep]
        exact (ih.step event true).1

theorem Attached.view_after_succ (h : feed.Attached) (events : List Event) (isBids : Bool)
    (now : Nat) : Mirror.Step (view isBids (feed.after events now))
      (view isBids (feed.after events (now + 1))) := by
  rcases feed.after_succ events now with hsame | ⟨event, hstep⟩
  · rw [hsame]
    exact .idle _
  · rw [hstep]
    exact ((h.after events now).step event isBids).2

/-- The feed of a new book with both channels. -/
def start (containers : Containers) (exchange : ExchangeId) (tradingPair : TradingPair)
    (strategy : CrossArbitrage) : PriceFeed containers where
  orderBook := .new containers exchange tradingPair
  strategy := strategy

theorem attached_start (exchange : ExchangeId) (tradingPair : TradingPair)
    (strategy : CrossArbitrage) : (start containers exchange tradingPair strategy).Attached where
  tradeengine := rfl
  positionkeeper := rfl
  own := by
    intro signal hmem
    simp [start, OrderBook.new, pending] at hmem

theorem Attached.exchange_after (h : feed.Attached) (events : List Event) (now : Nat) :
    (feed.after events now).orderBook.exchange = feed.orderBook.exchange := by
  induction now with
  | zero => simp [PriceFeed.after]
  | succ now ih =>
      rcases feed.after_succ events now with hsame | ⟨event, hstep⟩
      · rw [hsame, ih]
      · rw [hstep, exchange_step (h.after events now), ih]

/-- One side of a run is a mirror. -/
theorem exists_points_of_side (containers : Containers) (exchange : ExchangeId)
    (tradingPair : TradingPair) {strategy : CrossArbitrage} (hfresh : strategy.price exchange = {})
    (events : List Event) (isBids : Bool) :
    ∃ point : Nat → Nat, Monotone point ∧ ∀ now, point now ≤ now ∧
      let run := (start containers exchange tradingPair strategy).after events
      sideOf isBids ((run now).strategy.price exchange) =
          sideOf isBids (run (point now)).orderBook.book.bbo ∧
        ((run now).orderBook.orderbookTradeengineChannel = some [] →
          sideOf isBids ((run now).strategy.price exchange) =
            sideOf isBids (run now).orderBook.book.bbo) := by
  set feed := start containers exchange tradingPair strategy with hfeed
  have hattached : feed.Attached := attached_start exchange tradingPair strategy
  have hsource : (view isBids (feed.after events 0)).copy =
      (view isBids (feed.after events 0)).source := by
    simp [view, PriceFeed.after, hfeed, start, seen, OrderBook.new, MarketOrderBook.new, hfresh]
  have hqueue : (view isBids (feed.after events 0)).queue = [] := by
    simp [view, PriceFeed.after, hfeed, start, pending, OrderBook.new]
  obtain ⟨point, hmonotone, hpoint⟩ :=
    Mirror.exists_points hsource hqueue (hattached.view_after_succ events isBids)
  refine ⟨point, hmonotone, fun now => ?_⟩
  obtain ⟨hle, hcopy, hdrained⟩ := hpoint now
  have hexchange : (feed.after events now).orderBook.exchange = exchange :=
    hattached.exchange_after events now
  simp only [view, seen, hexchange] at hcopy hdrained
  refine ⟨hle, hcopy, fun hempty => hdrained ?_⟩
  simp [pending, hempty]

/-- At every time of a run each side of the stored price is that side of the BBO
at an earlier time, the times of a side never go back, and once the channel is
empty the stored price is the BBO. -/
def MirrorsBook (exchange : ExchangeId) (run : Nat → PriceFeed containers) : Prop :=
  ∃ bidPoint askPoint : Nat → Nat, Monotone bidPoint ∧ Monotone askPoint ∧
    ∀ now, bidPoint now ≤ now ∧ askPoint now ≤ now ∧
      ((run now).strategy.price exchange).bidPrice =
        (run (bidPoint now)).orderBook.book.bbo.bidPrice ∧
      ((run now).strategy.price exchange).bidQty =
        (run (bidPoint now)).orderBook.book.bbo.bidQty ∧
      ((run now).strategy.price exchange).askPrice =
        (run (askPoint now)).orderBook.book.bbo.askPrice ∧
      ((run now).strategy.price exchange).askQty =
        (run (askPoint now)).orderBook.book.bbo.askQty ∧
      ((run now).orderBook.orderbookTradeengineChannel = some [] →
        (run now).strategy.price exchange = (run now).orderBook.book.bbo)

/-- The strategy's view mirrors the book, in every interleaving of updates and
signals. -/
theorem strategy_mirrors_book (containers : Containers) (exchange : ExchangeId)
    (tradingPair : TradingPair) (strategy : CrossArbitrage) (hfresh : strategy.price exchange = {})
    (events : List Event) :
    MirrorsBook exchange ((start containers exchange tradingPair strategy).after events) := by
  obtain ⟨bidPoint, hbidMonotone, hbid⟩ :=
    exists_points_of_side containers exchange tradingPair hfresh events true
  obtain ⟨askPoint, haskMonotone, hask⟩ :=
    exists_points_of_side containers exchange tradingPair hfresh events false
  refine ⟨bidPoint, askPoint, hbidMonotone, haskMonotone, fun now => ?_⟩
  obtain ⟨hbidLe, hbidSide, hbidDrained⟩ := hbid now
  obtain ⟨haskLe, haskSide, haskDrained⟩ := hask now
  have hbidFields := Prod.mk.inj hbidSide
  have haskFields := Prod.mk.inj haskSide
  refine ⟨hbidLe, haskLe, hbidFields.1, hbidFields.2, haskFields.1, haskFields.2, fun hempty => ?_⟩
  exact eq_of_sideOf (hbidDrained hempty) (haskDrained hempty)

/-- The constructor leaves every price invalid. -/
theorem price_new (workingPairs : ExchangeId → Option TradingPair) (exchanges : List ExchangeId)
    (nonempty : exchanges ≠ []) (tickerCfg : TradingPair → Option TradeEngineCfg)
    (exchange : ExchangeId) :
    (CrossArbitrage.new workingPairs exchanges nonempty tickerCfg).price exchange = {} := by
  cases hpair : workingPairs exchange <;> simp [CrossArbitrage.new, CrossArbitrage.price, hpair]

/-- Two bids and an ask, with one signal taken in between. -/
theorem twoExchanges_mirrors_book :
    CrossArbitrage.twoExchanges.price .kBinance = {} ∧
      MirrorsBook .kBinance ((start .lists .kBinance ⟨2, 1⟩ CrossArbitrage.twoExchanges).after
        [.onMarketUpdate { side := .kBid, price := 8, qty := 3 }, .processSignal,
          .onMarketUpdate { side := .kBid, price := 9, qty := 1 },
          .onMarketUpdate { side := .kAsk, price := 12, qty := 2 }]) :=
  have hfresh := price_new _ _ _ _ _
  ⟨hfresh, strategy_mirrors_book .lists .kBinance ⟨2, 1⟩ CrossArbitrage.twoExchanges hfresh _⟩

end PriceFeed

end CryptoBot.Strategy

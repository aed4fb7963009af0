/-
# The components on the bus

`AsyncSend` hands an event to every subscriber of its publisher, in the order of
the subscriptions, and a subscriber posts the handling of the event to its
executor.  The generators, the order book components and the Red Panda component
each have a strand, which runs what was posted in the order of the posts.  The
arbitrage strategy posts to the thread pool itself, so that its handlers may run
in any order; that one of them runs at a time is an assumption here, as it is in
the model of the strategy.

This is the program that trades many pairs: four bid/ask generators, an order
book component for each market type, the strategy, and Red Panda.  The components
that fetch snapshots and diffs are the outside.
-/

import CryptoBot.Arbitrage.Strategy
import CryptoBot.Book.Publication
import CryptoBot.Bus.Stopping
import CryptoBot.Math.Mailbox
import CryptoBot.Sync.Binance
import CryptoBot.Sync.Bybit

namespace CryptoBot.Bus

open CryptoBot.Common CryptoBot.MarketData CryptoBot.Math CryptoBot.Sync CryptoBot.Book
open CryptoBot.Arbitrage

universe u v

namespace CoBus

variable {κ : Type u} [DecidableEq κ] {ε : Type v} (bus : CoBus κ)

/-- The subscribers that get the event, in the order in which they do.  A null event goes to nobody
and a null subscriber is left out. -/
def asyncSend (publisher : κ) : Option ε → List (κ × ε)
  | none => []
  | some event => (bus.subscribersOf (some publisher)).filterMap fun component =>
      component.map fun component => (component, event)

/-- The calls of `Subscribe` in turn, on a bus without subscribers. -/
def subscribeAll (placement : Placement (Option κ × List (Option κ)))
    (subscriptions : List (κ × κ)) : CoBus κ :=
  subscriptions.foldl
    (fun bus subscription =>
      bus.subscribe placement (some subscription.1) (some subscription.2))
    ⟨.empty, fun _ => false⟩

theorem subscribersOf_subscribe (placement : Placement (Option κ × List (Option κ)))
    (publisher other subscriber : Option κ) :
    (bus.subscribe placement publisher subscriber).subscribersOf other =
      bus.subscribersOf other ++ if other = publisher then [subscriber] else [] := by
  rw [subscribe, subscribersOf, UnorderedMap.find_set]
  by_cases hother : other = publisher
  · simp [hother]
  · simp [hother, subscribersOf]

/-- Each publisher has the subscribers that were subscribed to it, with repetitions. -/
theorem subscribersOf_subscribeAll (placement : Placement (Option κ × List (Option κ)))
    (subscriptions : List (κ × κ)) (publisher : κ) :
    (subscribeAll placement subscriptions).subscribersOf (some publisher) =
      (subscriptions.filter fun subscription => subscription.1 = publisher).map
        fun subscription => some subscription.2 := by
  induction subscriptions using List.reverseRecOn with
  | nil => rfl
  | append_singleton subscriptions last ih =>
      rw [subscribeAll, List.foldl_concat]
      rw [← subscribeAll, subscribersOf_subscribe, ih]
      by_cases hlast : last.1 = publisher
      · simp [hlast]
      · simp [hlast, Ne.symm hlast]

theorem map_asyncSend_subscribeAll (placement : Placement (Option κ × List (Option κ)))
    (subscriptions : List (κ × κ)) (publisher : κ) (event : ε) :
    ((subscribeAll placement subscriptions).asyncSend publisher (some event)).map Prod.fst =
      (subscriptions.filter fun subscription => subscription.1 = publisher).map Prod.snd := by
  rw [asyncSend, subscribersOf_subscribeAll, List.filterMap_map]
  simp [Function.comp_def]

end CoBus

/-! ## The components -/

/-- The bid/ask generators. -/
inductive Feed
  | bybit | futuresBybit | spotBinance | futuresBinance
  deriving DecidableEq, Repr

namespace Feed

def exchangeId : Feed → ExchangeId
  | .bybit | .futuresBybit => .kBybit
  | .spotBinance | .futuresBinance => .kBinance

/-- The market type of the order book component that subscribes to the generator. -/
def marketType : Feed → MarketType
  | .bybit | .spotBinance => .kSpot
  | .futuresBybit | .futuresBinance => .kFutures

def generator : Feed → Generator
  | .bybit | .futuresBybit => Bybit.generator
  | .spotBinance => Binance.generator .spot
  | .futuresBinance => Binance.generator .futures

/-- The levels of Bybit are published one by one, the books of Binance as a whole. -/
def publish : Feed → Sync.Action → List BookMessage
  | .bybit | .futuresBybit => CallbackHandler.publish
  | .spotBinance | .futuresBinance => CallbackBatchHandler.publish

theorem exchangeId_generator (feed : Feed) : feed.generator.exchangeId = feed.exchangeId := by
  cases feed <;> rfl

theorem ext {first second : Feed} (hexchange : first.exchangeId = second.exchangeId)
    (hmarket : first.marketType = second.marketType) : first = second := by
  cases first <;> cases second <;> simp_all [exchangeId, marketType]

theorem exchangeId_ne_kInvalid (feed : Feed) : feed.exchangeId ≠ .kInvalid := by
  cases feed <;> simp [exchangeId]

end Feed

inductive ComponentId
  | bidAskGenerator (feed : Feed)
  | orderBook (marketType : MarketType)
  | redPanda
  | arbitrageStrategy
  deriving DecidableEq, Repr

/-- The calls of `Subscribe` in `main`, less those of the components that fetch the market data. -/
def subscriptions : List (ComponentId × ComponentId) :=
  [(.bidAskGenerator .bybit, .orderBook .kSpot),
    (.bidAskGenerator .futuresBybit, .orderBook .kFutures),
    (.bidAskGenerator .spotBinance, .orderBook .kSpot),
    (.bidAskGenerator .futuresBinance, .orderBook .kFutures),
    (.orderBook .kSpot, .redPanda),
    (.orderBook .kFutures, .redPanda),
    (.orderBook .kSpot, .arbitrageStrategy),
    (.orderBook .kFutures, .arbitrageStrategy),
    (.arbitrageStrategy, .redPanda)]

/-- The events of the bus, by what they wrap. -/
inductive BusEvent
  | responseNewSnapshot (event : BookSnapshot2)
  | bookDiffSnapshot (event : BookDiffSnapshot2)
  | meMarketUpdate2 (event : MEMarketUpdate2)
  | newBBO (event : NewBBO)
  | arbitrageReport (event : ArbitrageReport)

namespace BusEvent

/-- The event that wraps a message for a book. -/
def ofMessage : BookMessage → Option BusEvent
  | .update event => some (.meMarketUpdate2 event)
  | .snapshot event => event.map .responseNewSnapshot
  | .diff event => event.map .bookDiffSnapshot

/-- The handlers of a generator. -/
def forGenerator : BusEvent → Option Sync.Event
  | .responseNewSnapshot event => some (.responseNewSnapshot event)
  | .bookDiffSnapshot event => some (.bookDiffSnapshot event)
  | .meMarketUpdate2 _ | .newBBO _ | .arbitrageReport _ => none

/-- The handlers of an order book component. -/
def forOrderBook : BusEvent → Option OrderBookComponent.Event
  | .responseNewSnapshot event => some (.newSnapshot (some event))
  | .bookDiffSnapshot event => some (.newDiff (some event))
  | .meMarketUpdate2 event => some (.meMarketUpdate (some event))
  | .newBBO _ | .arbitrageReport _ => none

def forStrategy : BusEvent → Option ArbitrageStrategyComponent.Event
  | .newBBO event => some (.newBBO event)
  | .responseNewSnapshot _ | .bookDiffSnapshot _ | .meMarketUpdate2 _ | .arbitrageReport _ => none

/-- The quote of one venue. -/
def quoteOf (venue : Venue) : BusEvent → Option BBO
  | .newBBO event => if venueOf event = venue then some event.bbo else none
  | .responseNewSnapshot _ | .bookDiffSnapshot _ | .meMarketUpdate2 _ | .arbitrageReport _ => none

end BusEvent

/-- What a generator sends to the bus while its callbacks are called. -/
def Feed.busEvents (feed : Feed) (action : Sync.Action) : List BusEvent :=
  (feed.publish action).filterMap BusEvent.ofMessage

/-! ## Red Panda -/

/-- `ExchangeIdPrinter::ToString`. -/
def exchangeIdName : ExchangeId → String
  | .kBinance => "Binance"
  | .kBybit => "Bybit"
  | .kMexc => "Mexc"
  | .kInvalid => "Invalid"

/-- `MarketTypePrinter::ToString`. -/
def marketTypeName : MarketType → String
  | .kSpot => "Spot"
  | .kFutures => "Futures"
  | .kOptions => "Options"
  | .kInvalid => "Invalid"

/-- `aot::models::OrderBook`.  The venue is a ghost: it says whose quote was printed. -/
structure OrderBookRecord where
  venue : Venue
  exchange : String
  marketType : String
  tradingPair : String
  bestBid : ℚ
  bestAsk : ℚ
  spread : ℚ
  bestBidQty : ℚ
  bestAskQty : ℚ
  deriving DecidableEq

inductive RedPandaMessage
  | orderBook (record : OrderBookRecord)
  | arbitrageReport (report : ArbitrageReport)

namespace RedPanda

def validatePrices (event : NewBBO) : Bool :=
  if event.bbo.bidPrice = kPriceInvalid then false
  else if event.bbo.askPrice = kPriceInvalid then false
  else true

def prepareOrderBook (event : NewBBO) (info : TradingPairInfo) : OrderBookRecord :=
  let askPrice := info.getPriceDouble event.bbo.askPrice
  let bidPrice := info.getPriceDouble event.bbo.bidPrice
  { venue := venueOf event
    exchange := exchangeIdName event.exchangeId
    marketType := marketTypeName event.marketType
    tradingPair := info.httpsJsonRequest
    bestBid := bidPrice
    bestAsk := askPrice
    spread := askPrice - bidPrice
    bestBidQty := info.getQtyDouble event.bbo.bidQty
    bestAskQty := info.getQtyDouble event.bbo.askQty }

/-- `HandleEventAsync` for a quote: one record, or none. -/
def handleNewBBO (pairs : ExchangeTradingPairs) (event : NewBBO) : Option OrderBookRecord :=
  match pairs.getPairInfo event.exchangeId event.tradingPair with
  | none => none
  | some info => if validatePrices event then some (prepareOrderBook event info) else none

def handle (pairs : ExchangeTradingPairs) : BusEvent → List RedPandaMessage
  | .newBBO event => (handleNewBBO pairs event).toList.map .orderBook
  | .arbitrageReport event => [.arbitrageReport event]
  | .responseNewSnapshot _ | .bookDiffSnapshot _ | .meMarketUpdate2 _ => []

def machine (pairs : ExchangeTradingPairs) : Machine Unit BusEvent RedPandaMessage where
  init := ()
  step _ event := ((), handle pairs event)

/-- The records of one venue among the messages. -/
def recordsOf (venue : Venue) : List RedPandaMessage → List OrderBookRecord :=
  List.filterMap fun
    | .orderBook record => if record.venue = venue then some record else none
    | .arbitrageReport _ => none

end RedPanda

/-! ## The system -/

/-- What the program is started with: the pairs it has books for and the cycles of the strategy. -/
structure Setup where
  containers : Containers
  setting : Setting
  registered : List (ExchangeId × TradingPair)
  cycles : List ArbitrageCycle
  placement : Placement (Option ComponentId × List (Option ComponentId))

namespace Setup

variable (setup : Setup)

def State : ComponentId → Type
  | .bidAskGenerator _ => TradingPair → BidAskState
  | .orderBook _ => OrderBookComponent setup.containers
  | .redPanda => Unit
  | .arbitrageStrategy => ArbitrageStrategyComponent

def Output : ComponentId → Type
  | .bidAskGenerator _ => Sync.Action
  | .orderBook _ => NewBBO
  | .redPanda => RedPandaMessage
  | .arbitrageStrategy => Effect

/-- The calls of `AddOrderBook` before the events. -/
def registrations : List OrderBookComponent.Event :=
  setup.registered.map fun registered => .addOrderBook registered.1 registered.2

def component : (id : ComponentId) → Machine (setup.State id) BusEvent (Output id)
  | .bidAskGenerator feed => feed.generator.machine.reading [] BusEvent.forGenerator
  | .orderBook marketType =>
      (OrderBookComponent.machine setup.containers marketType).reading setup.registrations
        BusEvent.forOrderBook
  | .redPanda => RedPanda.machine setup.setting.pairs
  | .arbitrageStrategy =>
      (ArbitrageStrategyComponent.machine setup.setting).reading
        (setup.cycles.map .addArbitrageCycle) BusEvent.forStrategy

def bus : CoBus ComponentId := .subscribeAll setup.placement subscriptions

/-- What a component sends to the bus for each of its outputs. -/
def publish : (id : ComponentId) → Output id → List BusEvent
  | .bidAskGenerator feed, action => feed.busEvents action
  | .orderBook _, newBBO => [.newBBO newBBO]
  | .redPanda, _ => []
  | .arbitrageStrategy, .reported report => [.arbitrageReport report]
  | .arbitrageStrategy, .evaluated _ => []
  | .arbitrageStrategy, .opened _ _ _ => []

def network : Network ComponentId setup.State Output BusEvent where
  component := setup.component
  publish := publish
  receivers publisher event := (setup.bus.asyncSend publisher (some event)).map Prod.fst
  discipline
    | .arbitrageStrategy => .anyOrder
    | .bidAskGenerator _ | .orderBook _ | .redPanda => .inOrder

/-- The interleavings of the components. -/
def machine : Machine (Configuration ComponentId setup.State BusEvent)
    (Move ComponentId BusEvent) Empty :=
  setup.network.machine

/-- Snapshots and diffs come to the generators, and nothing else comes from outside. -/
def FromFeeds (moves : List (Move ComponentId BusEvent)) : Prop :=
  ∀ receiver event, Move.post receiver event ∈ moves → ∃ feed, receiver = .bidAskGenerator feed

end Setup

end CryptoBot.Bus

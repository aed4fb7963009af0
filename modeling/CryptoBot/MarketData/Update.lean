/-
# Market data messages

The messages a venue feed and the order book exchange: single level updates,
full-depth snapshots and depth diffs.  `BookSnapshot2` is the message and
`BookSnapshot` the copy a synchroniser stores; the two differ in the default of
`lastUpdateId`, and that of a fresh stored copy is zero.
-/

import CryptoBot.Common.Conversions
import CryptoBot.Common.TradingPairs

namespace CryptoBot.MarketData

open CryptoBot.Common

inductive MarketUpdateType
  | clear | default
  deriving DecidableEq, Repr

/-- One level of one side: an absolute quantity, zero for a removed level. -/
structure BookSnapshotElem where
  price : Price
  qty : Qty
  deriving DecidableEq, Repr

/-- The level as a write to a map from prices to quantities. -/
def BookSnapshotElem.entry (elem : BookSnapshotElem) : Price × Qty := (elem.price, elem.qty)

/-- A level from the numbers of a message: scaled, cut to an `int` and stored. -/
def BookSnapshotElem.ofDoubles (info : TradingPairInfo) (price qty : ℚ) : BookSnapshotElem where
  price := .ofInt (doubleToInt (price * (10 : ℚ) ^ info.pricePrecission.toNat))
  qty := .ofInt (doubleToInt (qty * (10 : ℚ) ^ info.qtyPrecission.toNat))

/-- The update of the queues, without exchange and pair. -/
structure MEMarketUpdate where
  type : MarketUpdateType := .default
  orderId : OrderId := kOrderIdInvalid
  side : Side := .kInvalid
  price : Price := kPriceInvalid
  qty : Qty := kQtyInvalid
  deriving DecidableEq, Repr

structure MEMarketUpdate2 where
  exchangeId : ExchangeId := .kInvalid
  tradingPair : TradingPair := {}
  type : MarketUpdateType := .default
  orderId : OrderId := kOrderIdInvalid
  side : Side := .kInvalid
  price : Price := kPriceInvalid
  qty : Qty := kQtyInvalid
  deriving DecidableEq, Repr

structure BookSnapshot2 where
  exchangeId : ExchangeId := .kInvalid
  tradingPair : TradingPair := {}
  bids : List BookSnapshotElem := []
  asks : List BookSnapshotElem := []
  lastUpdateId : UInt64 := 0xFFFFFFFFFFFFFFFF
  deriving DecidableEq, Repr

structure BookSnapshot where
  exchangeId : ExchangeId := .kInvalid
  tradingPair : TradingPair := {}
  bids : List BookSnapshotElem := []
  asks : List BookSnapshotElem := []
  lastUpdateId : UInt64 := 0
  deriving DecidableEq, Repr

/-- `BookSnapshot::operator=(BookSnapshot2&&)`. -/
def BookSnapshot.assign (element : BookSnapshot2) : BookSnapshot where
  exchangeId := element.exchangeId
  tradingPair := element.tradingPair
  bids := element.bids
  asks := element.asks
  lastUpdateId := element.lastUpdateId

/-- A depth diff as a parser returns it. -/
structure BookDiffSnapshot where
  exchangeId : ExchangeId := .kInvalid
  tradingPair : TradingPair := {}
  bids : List BookSnapshotElem := []
  asks : List BookSnapshotElem := []
  firstId : UInt64 := 0xFFFFFFFFFFFFFFFF
  lastId : UInt64 := 0xFFFFFFFFFFFFFFFF
  prevId : UInt64 := 0xFFFFFFFFFFFFFFFF
  deriving DecidableEq, Repr

/-- A depth diff: the ids it covers run from `firstId` to `lastId`, and
`prevId`, used by Binance futures only, is the `lastId` of the diff before it. -/
structure BookDiffSnapshot2 where
  exchangeId : ExchangeId := .kInvalid
  tradingPair : TradingPair := {}
  bids : List BookSnapshotElem := []
  asks : List BookSnapshotElem := []
  firstId : UInt64 := 0xFFFFFFFFFFFFFFFF
  lastId : UInt64 := 0xFFFFFFFFFFFFFFFF
  prevId : UInt64 := 0xFFFFFFFFFFFFFFFF
  deriving DecidableEq, Repr

end CryptoBot.MarketData

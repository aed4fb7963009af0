/-
# The market order book

`MarketOrderBook2` keeps the two sides of a book and the cached best bid and
offer.  It is driven by three messages: an update of a single level, a full
snapshot, and a diff.  Each handler first decides per side whether the cache may
have to be refreshed, by comparing the prices it is about to write with the
current best price, then writes the levels, then refreshes the cache on the
sides that were flagged and emits it if any was.

The diff handler flags removals as well as additions; the snapshot handler flags
additions only.  The loops are one definition, `processLevel`, with the side and
this difference as parameters.
-/

import CryptoBot.Book.Side
import CryptoBot.MarketData.Update
import CryptoBot.Math.Machine

namespace CryptoBot.Book

open CryptoBot.Common CryptoBot.MarketData CryptoBot.Math

structure BBO where
  bidPrice : Price := kPriceInvalid
  askPrice : Price := kPriceInvalid
  bidQty : Qty := kQtyInvalid
  askQty : Qty := kQtyInvalid
  deriving DecidableEq, Repr

structure MarketOrderBook2 (containers : Containers) where
  bids : BookSide containers
  asks : BookSide containers
  bbo : BBO

namespace MarketOrderBook2

variable {containers : Containers}

/-- An empty book. -/
def new (containers : Containers) : MarketOrderBook2 containers where
  bids := .new containers
  asks := .new containers
  bbo := {}

variable (book : MarketOrderBook2 containers)

/-! ## Levels -/

def clearOrderBook : MarketOrderBook2 containers :=
  { book with bids := book.bids.clear, asks := book.asks.clear }

def getOrdersAtPrice (price : Price) (isBids : Bool) : Option Addr :=
  if isBids then book.bids.getOrdersAtPrice price else book.asks.getOrdersAtPrice price

/-- Link a block into the containers of the side its level names. -/
def addOrdersAtPrice (node : Addr) (newOrdersAtPrice : MarketOrdersAtPrice) :
    MarketOrderBook2 containers :=
  if newOrdersAtPrice.side = .kAsk then { book with asks := book.asks.link (· < ·) node }
  else if newOrdersAtPrice.side = .kBid then { book with bids := book.bids.link (· > ·) node }
  else book

/-- Every side other than `kBid` is looked up among the asks, but only `kAsk`
erases from the tree of the asks. -/
def removeOrdersAtPrice (side : Side) (price : Price) : MarketOrderBook2 containers :=
  match book.getOrdersAtPrice price (side = .kBid) with
  | none => book
  | some orderAtPrice =>
      let book :=
        if side = .kAsk then { book with asks := book.asks.unlink (· < ·) orderAtPrice } else book
      let book :=
        if side = .kBid then { book with bids := book.bids.unlink (· > ·) orderAtPrice } else book
      if side = .kBid then { book with bids := book.bids.release price orderAtPrice }
      else { book with asks := book.asks.release price orderAtPrice }

/-- Allocate a block in the pool of the bids or of the asks. -/
def allocate (isBids : Bool) (value : MarketOrdersAtPrice) :
    Option Addr × MarketOrderBook2 containers :=
  if isBids then
    let (node, pool) := book.bids.ordersAtPricePool.allocate value
    (node, { book with bids := { book.bids with ordersAtPricePool := pool } })
  else
    let (node, pool) := book.asks.ordersAtPricePool.allocate value
    (node, { book with asks := { book.asks with ordersAtPricePool := pool } })

def addOrder (order : MarketOrder) : MarketOrderBook2 containers :=
  let isBids : Bool := order.side = .kBid
  match book.getOrdersAtPrice order.price isBids with
  | none =>
      let newOrdersAtPrice : MarketOrdersAtPrice := ⟨order.side, order.price, order⟩
      match book.allocate isBids newOrdersAtPrice with
      | (some node, book) => book.addOrdersAtPrice node newOrdersAtPrice
      -- excluded by the unlimited chunk pool
      | (none, book) => book
  | some ordersAtPrice =>
      if isBids then { book with bids := book.bids.overwrite ordersAtPrice order }
      else { book with asks := book.asks.overwrite ordersAtPrice order }

/-! ## The best bid and offer -/

/-- The price and quantity of the first level, or the invalid pair. -/
def quote : Option MarketOrdersAtPrice → Price × Qty
  | some best => (best.firstMktOrder.price, best.firstMktOrder.qty)
  | none => (kPriceInvalid, kQtyInvalid)

def updateBBO (updateBid updateAsk : Bool) : MarketOrderBook2 containers :=
  let book :=
    if updateBid then
      { book with bbo := { book.bbo with
        bidPrice := (quote book.bids.front).1, bidQty := (quote book.bids.front).2 } }
    else book
  if updateAsk then
    { book with bbo := { book.bbo with
      askPrice := (quote book.asks.front).1, askQty := (quote book.asks.front).2 } }
  else book

/-- The tail of every handler: refresh the flagged sides and emit the result. -/
def publish (bidWillBeUpdated askWillBeUpdated : Bool) :
    MarketOrderBook2 containers × List BBO :=
  let book := book.updateBBO bidWillBeUpdated askWillBeUpdated
  (book, if bidWillBeUpdated || askWillBeUpdated then [book.bbo] else [])

/-- The bids are empty or `price` is not below the best of them. -/
def bidTouched (price : Price) : Bool :=
  match book.bids.front with
  | none => true
  | some best => decide (price ≥ best.price)

/-- The asks are empty or `price` is not above the best of them. -/
def askTouched (price : Price) : Bool :=
  match book.asks.front with
  | none => true
  | some best => decide (price ≤ best.price)

/-! ## Handlers -/

/-- One iteration of the loops over the levels of a message.  The flag compares
with the best price before the level is written. -/
def processLevel (side : Side) (touched : MarketOrderBook2 containers → Price → Bool)
    (flagRemovals : Bool) (state : MarketOrderBook2 containers × Bool)
    (level : BookSnapshotElem) : MarketOrderBook2 containers × Bool :=
  let (book, willBeUpdated) := state
  let willBeUpdated := willBeUpdated ||
    ((flagRemovals || decide (level.qty > 0)) && touched book level.price)
  if level.qty > 0 then
    (book.addOrder ⟨kOrderIdInvalid, side, level.price, level.qty⟩, willBeUpdated)
  else (book.removeOrdersAtPrice side level.price, willBeUpdated)

/-- The two loops of a handler, the bids first, and its tail. -/
def processLevels (flagRemovals : Bool) (bids asks : List BookSnapshotElem) :
    MarketOrderBook2 containers × List BBO :=
  let (book, bidWillBeUpdated) :=
    bids.foldl (processLevel .kBid bidTouched flagRemovals) (book, false)
  let (book, askWillBeUpdated) :=
    asks.foldl (processLevel .kAsk askTouched flagRemovals) (book, false)
  book.publish bidWillBeUpdated askWillBeUpdated

/-- `OnMarketUpdate(MEMarketUpdate2)`.  A `CLEAR` is not the end of it: the
level of the message is written to the cleared book. -/
def onMarketUpdate (marketUpdate : MEMarketUpdate2) : MarketOrderBook2 containers × List BBO :=
  let book := if marketUpdate.type = .clear then book.clearOrderBook else book
  let bidWillBeUpdated := decide (marketUpdate.side = .kBid) && book.bidTouched marketUpdate.price
  let askWillBeUpdated := decide (marketUpdate.side = .kAsk) && book.askTouched marketUpdate.price
  let book :=
    if marketUpdate.qty ≠ 0 then
      book.addOrder ⟨kOrderIdInvalid, marketUpdate.side, marketUpdate.price, marketUpdate.qty⟩
    else book.removeOrdersAtPrice marketUpdate.side marketUpdate.price
  book.publish bidWillBeUpdated askWillBeUpdated

/-- `OnMarketUpdate(BookSnapshot2)`. -/
def onMarketSnapshot : Option BookSnapshot2 → MarketOrderBook2 containers × List BBO
  | none => (book, [])
  | some marketSnapshot =>
      book.clearOrderBook.processLevels false marketSnapshot.bids marketSnapshot.asks

/-- `OnMarketUpdate(BookDiffSnapshot2)`. -/
def onMarketDiff : Option BookDiffSnapshot2 → MarketOrderBook2 containers × List BBO
  | none => (book, [])
  | some marketDiff => book.processLevels true marketDiff.bids marketDiff.asks

end MarketOrderBook2

/-- The argument of an `OnMarketUpdate`; snapshots and diffs may be null. -/
inductive BookMessage
  | update (marketUpdate : MEMarketUpdate2)
  | snapshot (marketSnapshot : Option BookSnapshot2)
  | diff (marketDiff : Option BookDiffSnapshot2)
  deriving DecidableEq, Repr

namespace BookMessage

/-- An update names the bids or the asks.  Updates of any other side leak a
block or free one that a tree still links. -/
def WellSided : BookMessage → Prop
  | .update marketUpdate => marketUpdate.side = .kBid ∨ marketUpdate.side = .kAsk
  | .snapshot _ => True
  | .diff _ => True

instance : DecidablePred WellSided
  | .update _ => inferInstanceAs (Decidable (_ ∨ _))
  | .snapshot _ => inferInstanceAs (Decidable True)
  | .diff _ => inferInstanceAs (Decidable True)

end BookMessage

/-- The book as a machine that emits BBO signals. -/
def MarketOrderBook2.machine (containers : Containers) :
    Machine (MarketOrderBook2 containers) BookMessage BBO where
  init := .new containers
  step book
    | .update marketUpdate => book.onMarketUpdate marketUpdate
    | .snapshot marketSnapshot => book.onMarketSnapshot marketSnapshot
    | .diff marketDiff => book.onMarketDiff marketDiff

end CryptoBot.Book

/-
# The order book of the trade engine

`MarketOrderBook` is the predecessor of `MarketOrderBook2`.  It keeps one hash map
and one pool for both sides, so a price is looked up without its side, and only
the trees tell bids and asks apart.  `OnMarketUpdate` ends with a call of the
virtual `updateBBO`, which a subclass extends; up to that call it is `process`.

A CLEAR empties the containers and returns before the call, so the cached BBO
stays.
-/

import CryptoBot.Book.MarketOrderBook
import CryptoBot.Common.MemPool

namespace CryptoBot.Book

open CryptoBot.Common CryptoBot.MarketData CryptoBot.Math

structure MarketOrderBook (containers : Containers) where
  ordersAtPricePool : MemPool MarketOrdersAtPrice
  priceOrdersAtPrice : containers.map.Carrier
  bidsAtPriceMap : containers.tree.Carrier
  asksAtPriceMap : containers.tree.Carrier
  bbo : BBO

namespace MarketOrderBook

variable {containers : Containers}

def new (containers : Containers) : MarketOrderBook containers where
  ordersAtPricePool := .new maxOrdersAtPrice
  priceOrdersAtPrice := containers.map.new
  bidsAtPriceMap := containers.tree.new
  asksAtPriceMap := containers.tree.new
  bbo := {}

variable (book : MarketOrderBook containers)

/-- The comparison of a tree: it reads the prices through the pointers. -/
def before (r : Price → Price → Prop) : Addr → Addr → Prop :=
  Order.Preimage (fun node => (book.ordersAtPricePool.deref node).price) r

instance (r : Price → Price → Prop) [DecidableRel r] : DecidableRel (book.before r) :=
  fun _ _ => inferInstanceAs (Decidable (r _ _))

/-- `*begin()` of a tree, if it is not empty. -/
def front (tree : containers.tree.Carrier) : Option MarketOrdersAtPrice :=
  (containers.tree.toList tree).head?.map book.ordersAtPricePool.deref

/-- The base class's `updateBBO`. -/
def updateBBO (updateBid updateAsk : Bool) : MarketOrderBook containers :=
  let bid := MarketOrderBook2.quote (book.front book.bidsAtPriceMap)
  let ask := MarketOrderBook2.quote (book.front book.asksAtPriceMap)
  let book :=
    if updateBid then { book with bbo := { book.bbo with bidPrice := bid.1, bidQty := bid.2 } }
    else book
  if updateAsk then { book with bbo := { book.bbo with askPrice := ask.1, askQty := ask.2 } }
  else book

def clearOrderBook : MarketOrderBook containers :=
  { book with
    bidsAtPriceMap := containers.tree.clear book.bidsAtPriceMap
    asksAtPriceMap := containers.tree.clear book.asksAtPriceMap
    ordersAtPricePool := (containers.map.entries book.priceOrdersAtPrice).foldl
      (fun pool orderAtPrice => orderAtPrice.2.elim pool pool.deallocated) book.ordersAtPricePool
    priceOrdersAtPrice := containers.map.clear book.priceOrdersAtPrice }

/-- `at(price)`, where a missing key yields the null pointer. -/
def getOrdersAtPrice (price : Price) : Option Addr :=
  (containers.map.find book.priceOrdersAtPrice price).join

def addOrdersAtPrice (node : Addr) : MarketOrderBook containers :=
  let newOrdersAtPrice := book.ordersAtPricePool.deref node
  let book := { book with
    priceOrdersAtPrice := containers.map.emplaceUnique book.priceOrdersAtPrice
      newOrdersAtPrice.price (some node) }
  let book :=
    if newOrdersAtPrice.side = .kAsk then
      { book with
        asksAtPriceMap :=
          containers.tree.insertEqual (book.before (· < ·)) book.asksAtPriceMap node }
    else book
  if newOrdersAtPrice.side = .kBid then
    { book with
      bidsAtPriceMap := containers.tree.insertEqual (book.before (· > ·)) book.bidsAtPriceMap node }
  else book

/-- The block is given back even if it is linked into the tree of the other
side. -/
def removeOrdersAtPrice (side : Side) (price : Price) : MarketOrderBook containers :=
  match book.getOrdersAtPrice price with
  | none => book
  | some orderAtPrice =>
      let book :=
        if side = .kAsk ∧
            containers.tree.count (book.before (· < ·)) book.asksAtPriceMap orderAtPrice ≠ 0 then
          { book with
            asksAtPriceMap :=
              containers.tree.erase (book.before (· < ·)) book.asksAtPriceMap orderAtPrice }
        else book
      let book :=
        if side = .kBid ∧
            containers.tree.count (book.before (· > ·)) book.bidsAtPriceMap orderAtPrice ≠ 0 then
          { book with
            bidsAtPriceMap :=
              containers.tree.erase (book.before (· > ·)) book.bidsAtPriceMap orderAtPrice }
        else book
      { book with
        priceOrdersAtPrice := containers.map.erase
          (containers.map.assign book.priceOrdersAtPrice price none) price
        ordersAtPricePool := book.ordersAtPricePool.deallocated orderAtPrice }

def addOrder (order : MarketOrder) : MarketOrderBook containers :=
  match book.getOrdersAtPrice order.price with
  | none =>
      match book.ordersAtPricePool.allocate ⟨order.side, order.price, order⟩ with
      | .ok (node, pool) => { book with ordersAtPricePool := pool }.addOrdersAtPrice node
      -- excluded while the pool does not run out
      | .error _ => book
  | some ordersAtPrice =>
      { book with
        ordersAtPricePool := book.ordersAtPricePool.modify ordersAtPrice (·.overwrite order) }

/-- A side is empty, or the price is not behind its best. -/
def touched (behind : Price → Price → Bool) (tree : containers.tree.Carrier) (price : Price) :
    Bool :=
  match book.front tree with
  | none => true
  | some best => !behind price best.price

/-- `OnMarketUpdate` up to its call of `updateBBO`, with the arguments of the call
unless it returns before. -/
def process (marketUpdate : MEMarketUpdate) : MarketOrderBook containers × Option (Bool × Bool) :=
  if marketUpdate.type = .clear then (book.clearOrderBook, none)
  else
    let bidWillBeUpdated := decide (marketUpdate.side = .kBid) &&
      book.touched (fun price best => price < best) book.bidsAtPriceMap marketUpdate.price
    let askWillBeUpdated := decide (marketUpdate.side = .kAsk) &&
      book.touched (fun price best => price > best) book.asksAtPriceMap marketUpdate.price
    let book :=
      if marketUpdate.qty ≠ 0 then
        book.addOrder ⟨kOrderIdInvalid, marketUpdate.side, marketUpdate.price, marketUpdate.qty⟩
      else book.removeOrdersAtPrice marketUpdate.side marketUpdate.price
    (book, some (bidWillBeUpdated, askWillBeUpdated))

/-- `OnMarketUpdate` with the base class's `updateBBO`. -/
def onMarketUpdate (marketUpdate : MEMarketUpdate) : MarketOrderBook containers :=
  match book.process marketUpdate with
  | (book, none) => book
  | (book, some (bidWillBeUpdated, askWillBeUpdated)) =>
      book.updateBBO bidWillBeUpdated askWillBeUpdated

/-- The book as a machine; it has no signal. -/
def machine (containers : Containers) : Machine (MarketOrderBook containers) MEMarketUpdate Empty :=
  ⟨.new containers, fun book marketUpdate => (book.onMarketUpdate marketUpdate, [])⟩

/-! ## What the writes leave alone -/

@[simp]
theorem bbo_clearOrderBook : book.clearOrderBook.bbo = book.bbo := rfl

@[simp]
theorem bbo_addOrdersAtPrice (node : Addr) : (book.addOrdersAtPrice node).bbo = book.bbo := by
  simp only [addOrdersAtPrice]
  split <;> split <;> rfl

@[simp]
theorem bbo_removeOrdersAtPrice (side : Side) (price : Price) :
    (book.removeOrdersAtPrice side price).bbo = book.bbo := by
  rw [removeOrdersAtPrice]
  split
  · rfl
  · dsimp only
    split <;> split <;> rfl

@[simp]
theorem bbo_addOrder (order : MarketOrder) : (book.addOrder order).bbo = book.bbo := by
  rw [addOrder]
  split
  · split
    · simp
    · rfl
  · rfl

/-- Only `updateBBO` writes the cached BBO. -/
theorem bbo_process (marketUpdate : MEMarketUpdate) :
    (book.process marketUpdate).1.bbo = book.bbo := by
  rw [process]
  split
  · simp
  · dsimp only
    split <;> simp

@[simp]
theorem ordersAtPricePool_addOrdersAtPrice (node : Addr) :
    (book.addOrdersAtPrice node).ordersAtPricePool = book.ordersAtPricePool := by
  simp only [addOrdersAtPrice]
  split <;> split <;> rfl

@[simp]
theorem ordersAtPricePool_updateBBO (updateBid updateAsk : Bool) :
    (book.updateBBO updateBid updateAsk).ordersAtPricePool = book.ordersAtPricePool := by
  cases updateBid <;> cases updateAsk <;> rfl

/-- An update is for one side, so at most one side is flagged. -/
theorem flags_process {marketUpdate : MEMarketUpdate} {updateBid updateAsk : Bool}
    (h : (book.process marketUpdate).2 = some (updateBid, updateAsk)) :
    ¬ (updateBid = true ∧ updateAsk = true) := by
  rw [process] at h
  split at h
  · cases h
  · cases h
    rintro ⟨hbid, hask⟩
    simp only [Bool.and_eq_true, decide_eq_true_eq] at hbid hask
    rw [hbid.1] at hask
    cases hask.1

/-! ## How long the pool lasts -/

section Pool

variable {book} {size used : Nat} (h : book.ordersAtPricePool.Ready size used)

include h

theorem ready_clearOrderBook : book.clearOrderBook.ordersAtPricePool.Ready size used := by
  rw [clearOrderBook]
  generalize containers.map.entries book.priceOrdersAtPrice = entries
  generalize book.ordersAtPricePool = pool at h ⊢
  induction entries generalizing pool with
  | nil => exact h
  | cons entry entries ih =>
      cases hpointer : entry.2 with
      | none => simpa [hpointer] using ih pool h
      | some node => simpa [hpointer] using ih _ (h.deallocated node)

theorem ready_removeOrdersAtPrice (side : Side) (price : Price) :
    (book.removeOrdersAtPrice side price).ordersAtPricePool.Ready size used := by
  rw [removeOrdersAtPrice]
  split
  · exact h
  · rename_i orderAtPrice _
    dsimp only
    split <;> split <;> exact h.deallocated orderAtPrice

theorem ready_addOrder (hused : used + 1 < size) (order : MarketOrder) :
    (book.addOrder order).ordersAtPricePool.Ready size (used + 1) := by
  rw [addOrder]
  split
  · obtain ⟨node, pool, hallocate, hready⟩ := h.allocate hused ⟨order.side, order.price, order⟩
    rw [hallocate]
    dsimp only
    rw [ordersAtPricePool_addOrdersAtPrice]
    exact hready
  · rename_i ordersAtPrice _
    exact (h.modify ordersAtPrice (·.overwrite order)).mono (Nat.le_succ used)

/-- An update takes at most one block. -/
theorem ready_onMarketUpdate (hused : used + 1 < size) (marketUpdate : MEMarketUpdate) :
    (book.onMarketUpdate marketUpdate).ordersAtPricePool.Ready size (used + 1) := by
  have hprocess : (book.process marketUpdate).1.ordersAtPricePool.Ready size (used + 1) := by
    rw [process]
    split
    · exact (ready_clearOrderBook h).mono (Nat.le_succ used)
    · dsimp only
      split
      · exact ready_addOrder h hused _
      · exact (ready_removeOrdersAtPrice h _ _).mono (Nat.le_succ used)
  rw [onMarketUpdate]
  split
  · rename_i heq
    rwa [heq] at hprocess
  · rename_i heq
    rw [heq] at hprocess
    rwa [ordersAtPricePool_updateBBO]

end Pool

/-- A run has used at most one block for each update. -/
theorem ready_run (containers : Containers) {updates : List MEMarketUpdate}
    (h : updates.length < maxOrdersAtPrice) :
    ((machine containers).run updates).ordersAtPricePool.Ready maxOrdersAtPrice
      updates.length := by
  induction updates using List.reverseRecOn with
  | nil => exact MemPool.ready_new (by decide)
  | append_singleton updates marketUpdate ih =>
      rw [List.length_append, List.length_singleton] at h ⊢
      rw [Machine.run_concat]
      exact ready_onMarketUpdate (ih (by omega)) h marketUpdate

end MarketOrderBook

end CryptoBot.Book

/-
# The order book refines a pair of ladders

What the book is for, without its containers: two ladders, one per side, and the
cached best bid and offer.  `LadderBook` handles every message as one `Batch`, a
list of writes per side with or without a clear before them; it scans the writes
for one that touches the best entry and refreshes the cache on that flag.

The containers drop out in `simulation`: a run of the book on messages that name
the bids or the asks goes through the states and the signals of the ladders.
All later laws of the book are proved on the ladders.
-/

import CryptoBot.Book.MarketOrderBook
import CryptoBot.Math.BestTracking

namespace CryptoBot.Book

open CryptoBot.Common CryptoBot.MarketData CryptoBot.Math

/-! ## One side at a time -/

namespace BookSide

variable {containers : Containers} (bookSide : BookSide containers)

section Operations

variable (r : Price → Price → Prop) [DecidableRel r]

/-- `AddOrder` on the side that the order names. -/
def addOrder (order : MarketOrder) : BookSide containers :=
  match bookSide.getOrdersAtPrice order.price with
  | none =>
      match bookSide.ordersAtPricePool.allocate ⟨order.side, order.price, order⟩ with
      | (some node, pool) => { bookSide with ordersAtPricePool := pool }.link r node
      | (none, pool) => { bookSide with ordersAtPricePool := pool }
  | some node => bookSide.overwrite node order

/-- `RemoveOrdersAtPrice` on one side. -/
def removeOrdersAtPrice (price : Price) : BookSide containers :=
  match bookSide.getOrdersAtPrice price with
  | none => bookSide
  | some node => (bookSide.unlink r node).release price node

/-- The side is empty or `price` does not come after its best price. -/
def touched (price : Price) : Bool :=
  match bookSide.front with
  | none => true
  | some best => decide (¬ r best.price price)

/-- One iteration of a loop over the levels of this side. -/
def processLevel (side : Side) (flagRemovals : Bool) (state : BookSide containers × Bool)
    (level : BookSnapshotElem) : BookSide containers × Bool :=
  (if level.qty > 0 then
      state.1.addOrder r ⟨kOrderIdInvalid, side, level.price, level.qty⟩
    else state.1.removeOrdersAtPrice r level.price,
    state.2 || ((flagRemovals || decide (level.qty > 0)) && state.1.touched r level.price))

end Operations

namespace Represents

variable {bookSide} {r : Price → Price → Prop} [DecidableRel r] [IsStrictTotalOrder Price r]
  {side : Side} {values : Price → Qty}

/-- `AddOrder` writes the quantity of the order. -/
theorem addOrder (h : bookSide.Represents r side values) {order : MarketOrder}
    (hside : order.side = side) (hqty : order.qty ≠ 0) :
    (bookSide.addOrder r order).Represents r side
      (Function.update values order.price order.qty) := by
  unfold BookSide.addOrder
  cases hfound : bookSide.getOrdersAtPrice order.price with
  | some node => exact h.overwrite hfound hqty
  | none =>
      obtain ⟨node, hfresh, hresult, hmemory, hlive, hvalid⟩ :=
        h.valid.allocate containers.unlimited ⟨order.side, order.price, order⟩
      rcases hallocate : bookSide.ordersAtPricePool.allocate ⟨order.side, order.price, order⟩
        with ⟨pointer, pool⟩
      rw [hallocate] at hresult hmemory hlive hvalid
      subst hresult
      exact h.link hside hfound hqty hfresh hmemory hlive hvalid

/-- `RemoveOrdersAtPrice` writes zero; a price without a level stays as it is. -/
theorem removeOrdersAtPrice (h : bookSide.Represents r side values) (price : Price) :
    (bookSide.removeOrdersAtPrice r price).Represents r side
      (Function.update values price 0) := by
  unfold BookSide.removeOrdersAtPrice
  cases hfound : bookSide.getOrdersAtPrice price with
  | some node => exact h.remove hfound
  | none =>
      rw [← h.values_eq_zero hfound, Function.update_eq_self]
      exact h

variable {ladder : Ladder r Qty}

theorem touched_eq (h : bookSide.Represents r side ladder.get) (price : Price) :
    bookSide.touched r price = ladder.touches price := by
  unfold touched Ladder.touches
  rw [h.best_eq]
  cases bookSide.front <;> rfl

/-- A loop over levels scans the ladder. -/
theorem foldl_processLevel (h : bookSide.Represents r side ladder.get) (flagRemovals flag : Bool)
    (levels : List BookSnapshotElem) :
    (levels.foldl (processLevel r side flagRemovals) (bookSide, flag)).1.Represents r side
        (ladder.setAll (levels.map BookSnapshotElem.entry)).get ∧
      (levels.foldl (processLevel r side flagRemovals) (bookSide, flag)).2 =
        ((levels.map BookSnapshotElem.entry).foldl (Ladder.scanStep flagRemovals)
          (ladder, flag)).2 := by
  induction levels generalizing bookSide ladder flag with
  | nil => exact ⟨h, rfl⟩
  | cons level levels ih =>
      have hnext : (processLevel r side flagRemovals (bookSide, flag) level).1.Represents r side
          (ladder.set level.price level.qty).get := by
        rw [Ladder.get_set, BookSide.processLevel]
        by_cases hqty : level.qty > 0
        · rw [if_pos hqty]
          exact h.addOrder rfl (UInt64.pos_iff_ne_zero.mp hqty)
        · have hzero : level.qty = 0 := by
            simpa [UInt64.pos_iff_ne_zero] using hqty
          rw [if_neg hqty, hzero]
          exact h.removeOrdersAtPrice level.price
      have hflag : (processLevel r side flagRemovals (bookSide, flag) level).2 =
          (Ladder.scanStep flagRemovals (ladder, flag) level.entry).2 := by
        have hpos : decide (level.qty > 0) = decide (level.qty ≠ 0) :=
          decide_eq_decide.mpr UInt64.pos_iff_ne_zero
        simp only [BookSide.processLevel, h.touched_eq, hpos]
        rfl
      obtain ⟨hstate, hrest⟩ :=
        ih hnext (processLevel r side flagRemovals (bookSide, flag) level).2
      refine ⟨hstate, hrest.trans ?_⟩
      rw [hflag]
      rfl

end Represents

end BookSide

/-! ## The book's operations act on one side -/

namespace MarketOrderBook2

variable {containers : Containers} (book : MarketOrderBook2 containers)

theorem addOrder_bid {order : MarketOrder} (h : order.side = .kBid) :
    book.addOrder order = { book with bids := book.bids.addOrder (· > ·) order } := by
  unfold addOrder BookSide.addOrder getOrdersAtPrice allocate addOrdersAtPrice
  simp only [h, decide_true, if_true]
  cases book.bids.getOrdersAtPrice order.price with
  | some node => rfl
  | none =>
      rcases book.bids.ordersAtPricePool.allocate ⟨.kBid, order.price, order⟩ with
        ⟨_ | node, pool⟩ <;> rfl

theorem addOrder_ask {order : MarketOrder} (h : order.side = .kAsk) :
    book.addOrder order = { book with asks := book.asks.addOrder (· < ·) order } := by
  unfold addOrder BookSide.addOrder getOrdersAtPrice allocate addOrdersAtPrice
  simp only [h, reduceCtorEq, decide_false, Bool.false_eq_true, if_false]
  cases book.asks.getOrdersAtPrice order.price with
  | some node => rfl
  | none =>
      rcases book.asks.ordersAtPricePool.allocate ⟨.kAsk, order.price, order⟩ with
        ⟨_ | node, pool⟩ <;> rfl

theorem removeOrdersAtPrice_bid (price : Price) :
    book.removeOrdersAtPrice .kBid price =
      { book with bids := book.bids.removeOrdersAtPrice (· > ·) price } := by
  unfold removeOrdersAtPrice BookSide.removeOrdersAtPrice getOrdersAtPrice
  simp only [decide_true, if_true]
  cases book.bids.getOrdersAtPrice price <;> rfl

theorem removeOrdersAtPrice_ask (price : Price) :
    book.removeOrdersAtPrice .kAsk price =
      { book with asks := book.asks.removeOrdersAtPrice (· < ·) price } := by
  unfold removeOrdersAtPrice BookSide.removeOrdersAtPrice getOrdersAtPrice
  simp only [reduceCtorEq, decide_false, Bool.false_eq_true, if_false]
  cases book.asks.getOrdersAtPrice price <;> rfl

theorem bidTouched_eq (price : Price) :
    book.bidTouched price = book.bids.touched (· > ·) price := by
  unfold bidTouched BookSide.touched
  cases book.bids.front with
  | none => rfl
  | some best => simp

theorem askTouched_eq (price : Price) :
    book.askTouched price = book.asks.touched (· < ·) price := by
  unfold askTouched BookSide.touched
  cases book.asks.front with
  | none => rfl
  | some best => simp

/-- The operations for `side` act on the part of a book that `put` fills in. -/
structure ActsOn (side : Side) (touched : MarketOrderBook2 containers → Price → Bool)
    (r : Price → Price → Prop) [DecidableRel r]
    (put : BookSide containers → MarketOrderBook2 containers) : Prop where
  addOrder : ∀ bookSide order, order.side = side →
    (put bookSide).addOrder order = put (bookSide.addOrder r order)
  removeOrdersAtPrice : ∀ bookSide price,
    (put bookSide).removeOrdersAtPrice side price = put (bookSide.removeOrdersAtPrice r price)
  touched : ∀ bookSide price, touched (put bookSide) price = bookSide.touched r price

theorem actsOn_bid : ActsOn .kBid bidTouched (· > ·) fun bids => { book with bids := bids } where
  addOrder _ _ hside := addOrder_bid _ hside
  removeOrdersAtPrice _ _ := removeOrdersAtPrice_bid _ _
  touched _ _ := bidTouched_eq _ _

theorem actsOn_ask : ActsOn .kAsk askTouched (· < ·) fun asks => { book with asks := asks } where
  addOrder _ _ hside := addOrder_ask _ hside
  removeOrdersAtPrice _ _ := removeOrdersAtPrice_ask _ _
  touched _ _ := askTouched_eq _ _

/-- A loop over the levels of a side is a loop over that side alone. -/
theorem ActsOn.foldl_processLevel {side : Side}
    {touched : MarketOrderBook2 containers → Price → Bool} {r : Price → Price → Prop}
    [DecidableRel r] {put : BookSide containers → MarketOrderBook2 containers}
    (h : ActsOn side touched r put) (flagRemovals flag : Bool) (bookSide : BookSide containers)
    (levels : List BookSnapshotElem) :
    levels.foldl (processLevel side touched flagRemovals) (put bookSide, flag) =
      (put (levels.foldl (BookSide.processLevel r side flagRemovals) (bookSide, flag)).1,
        (levels.foldl (BookSide.processLevel r side flagRemovals) (bookSide, flag)).2) := by
  induction levels generalizing bookSide flag with
  | nil => rfl
  | cons level levels ih =>
      have hstep : processLevel side touched flagRemovals (put bookSide, flag) level =
          (put (BookSide.processLevel r side flagRemovals (bookSide, flag) level).1,
            (BookSide.processLevel r side flagRemovals (bookSide, flag) level).2) := by
        by_cases hqty : level.qty > 0
        · simp only [processLevel, BookSide.processLevel, if_pos hqty, h.touched]
          rw [h.addOrder _ _ rfl]
        · simp only [processLevel, BookSide.processLevel, if_neg hqty, h.touched,
            h.removeOrdersAtPrice]
      rw [List.foldl_cons, List.foldl_cons, hstep]
      exact ih _ _

/-- The loops of a handler act on the two sides independently. -/
theorem processLevels_eq (flagRemovals : Bool) (bids asks : List BookSnapshotElem) :
    book.processLevels flagRemovals bids asks =
      { book with
        bids := (bids.foldl (BookSide.processLevel (· > ·) .kBid flagRemovals) (book.bids, false)).1
        asks := (asks.foldl (BookSide.processLevel (· < ·) .kAsk flagRemovals)
          (book.asks, false)).1 }.publish
        (bids.foldl (BookSide.processLevel (· > ·) .kBid flagRemovals) (book.bids, false)).2
        (asks.foldl (BookSide.processLevel (· < ·) .kAsk flagRemovals) (book.asks, false)).2 := by
  have hbids := book.actsOn_bid.foldl_processLevel flagRemovals false book.bids bids
  set written : MarketOrderBook2 containers := { book with
    bids := (bids.foldl (BookSide.processLevel (· > ·) .kBid flagRemovals) (book.bids, false)).1 }
  have hasks := written.actsOn_ask.foldl_processLevel flagRemovals false book.asks asks
  rw [processLevels, hbids]
  dsimp only
  rw [hasks]

/-- An update that names the bids is a diff with one bid. -/
theorem onMarketUpdate_bid {marketUpdate : MEMarketUpdate2} (h : marketUpdate.side = .kBid) :
    book.onMarketUpdate marketUpdate =
      (if marketUpdate.type = .clear then book.clearOrderBook else book).processLevels true
        [⟨marketUpdate.price, marketUpdate.qty⟩] [] := by
  unfold onMarketUpdate processLevels
  simp only [h, decide_true, Bool.true_and, reduceCtorEq, decide_false, Bool.false_and,
    List.foldl_cons, List.foldl_nil, processLevel, Bool.true_or, Bool.false_or, gt_iff_lt,
    UInt64.pos_iff_ne_zero]
  split <;> rfl

/-- An update that names the asks is a diff with one ask. -/
theorem onMarketUpdate_ask {marketUpdate : MEMarketUpdate2} (h : marketUpdate.side = .kAsk) :
    book.onMarketUpdate marketUpdate =
      (if marketUpdate.type = .clear then book.clearOrderBook else book).processLevels true
        [] [⟨marketUpdate.price, marketUpdate.qty⟩] := by
  unfold onMarketUpdate processLevels
  simp only [h, decide_true, Bool.true_and, reduceCtorEq, decide_false, Bool.false_and,
    List.foldl_cons, List.foldl_nil, processLevel, Bool.true_or, Bool.false_or, gt_iff_lt,
    UInt64.pos_iff_ne_zero]
  split <;> rfl

end MarketOrderBook2

/-! ## Ladders -/

/-- A message as a list of writes per side. -/
structure Batch where
  clear : Bool
  flagRemovals : Bool
  bids : List (Price × Qty)
  asks : List (Price × Qty)

/-- The writes of a message; a null message writes nothing. -/
def BookMessage.batch : BookMessage → Batch
  | .update marketUpdate =>
      { clear := marketUpdate.type = .clear
        flagRemovals := true
        bids := if marketUpdate.side = .kBid then [(marketUpdate.price, marketUpdate.qty)] else []
        asks := if marketUpdate.side = .kAsk then [(marketUpdate.price, marketUpdate.qty)] else [] }
  | .snapshot (some marketSnapshot) =>
      { clear := true
        flagRemovals := false
        bids := marketSnapshot.bids.map BookSnapshotElem.entry
        asks := marketSnapshot.asks.map BookSnapshotElem.entry }
  | .diff (some marketDiff) =>
      { clear := false
        flagRemovals := true
        bids := marketDiff.bids.map BookSnapshotElem.entry
        asks := marketDiff.asks.map BookSnapshotElem.entry }
  | .snapshot none | .diff none =>
      { clear := false, flagRemovals := true, bids := [], asks := [] }

/-- The book without its containers. -/
structure LadderBook where
  bids : Ladder (fun first second : Price => first > second) Qty
  asks : Ladder (fun first second : Price => first < second) Qty
  bbo : BBO

namespace LadderBook

def new : LadderBook := ⟨.empty, .empty, {}⟩

/-- The best entry, or the invalid pair. -/
def quote (best : Option (Price × Qty)) : Price × Qty :=
  best.getD (kPriceInvalid, kQtyInvalid)

def clear (model : LadderBook) : LadderBook :=
  { model with bids := .empty, asks := .empty }

/-- Refresh the flagged sides of the cache, and emit it if one was. -/
def publish (model : LadderBook) (bidWillBeUpdated askWillBeUpdated : Bool) :
    LadderBook × List BBO :=
  let bbo : BBO :=
    { bidPrice := if bidWillBeUpdated then (quote model.bids.best).1 else model.bbo.bidPrice
      askPrice := if askWillBeUpdated then (quote model.asks.best).1 else model.bbo.askPrice
      bidQty := if bidWillBeUpdated then (quote model.bids.best).2 else model.bbo.bidQty
      askQty := if askWillBeUpdated then (quote model.asks.best).2 else model.bbo.askQty }
  ({ model with bbo := bbo }, if bidWillBeUpdated || askWillBeUpdated then [bbo] else [])

/-- Scan the writes of both sides and publish on their flags. -/
def write (model : LadderBook) (flagRemovals : Bool) (bids asks : List (Price × Qty)) :
    LadderBook × List BBO :=
  { model with
    bids := (model.bids.scan flagRemovals bids).1
    asks := (model.asks.scan flagRemovals asks).1 }.publish
      (model.bids.scan flagRemovals bids).2 (model.asks.scan flagRemovals asks).2

def apply (model : LadderBook) (batch : Batch) : LadderBook × List BBO :=
  (if batch.clear then model.clear else model).write batch.flagRemovals batch.bids batch.asks

/-- The ladders as a machine. -/
def machine : Machine LadderBook BookMessage BBO where
  init := .new
  step model message := model.apply message.batch

end LadderBook

/-- The first node gives the quote of the ladder. -/
theorem Enumerates.quote_eq {level : Addr → MarketOrdersAtPrice} {nodes : List Addr}
    {r : Price → Price → Prop} [IsStrictTotalOrder Price r] {side : Side} {ladder : Ladder r Qty}
    (h : Enumerates level nodes r side ladder.get) :
    MarketOrderBook2.quote (nodes.head?.map level) = LadderBook.quote ladder.best := by
  rw [h.best_eq]
  cases hfirst : nodes.head? with
  | none => rfl
  | some node =>
      have hprice := h.prices node (List.mem_of_mem_head? hfirst)
      simp [MarketOrderBook2.quote, LadderBook.quote, hprice]

/-! ## The simulation -/

/-- The containers hold the levels of the ladders. -/
structure Refines {containers : Containers} (book : MarketOrderBook2 containers)
    (model : LadderBook) : Prop where
  bids : book.bids.Represents (· > ·) .kBid model.bids.get
  asks : book.asks.Represents (· < ·) .kAsk model.asks.get
  bbo : book.bbo = model.bbo

namespace Refines

variable {containers : Containers} {book : MarketOrderBook2 containers} {model : LadderBook}

theorem new (containers : Containers) : Refines (.new containers) .new where
  bids := BookSide.represents_new _ _
  asks := BookSide.represents_new _ _
  bbo := rfl

theorem clearOrderBook (h : Refines book model) : Refines book.clearOrderBook model.clear where
  bids := h.bids.clear
  asks := h.asks.clear
  bbo := h.bbo

theorem quote_eq {r : Price → Price → Prop} [IsStrictTotalOrder Price r] {side : Side}
    {bookSide : BookSide containers} {ladder : Ladder r Qty}
    (h : bookSide.Represents r side ladder.get) :
    MarketOrderBook2.quote bookSide.front = LadderBook.quote ladder.best :=
  h.enumerates.quote_eq

theorem publish (h : Refines book model) (bidWillBeUpdated askWillBeUpdated : Bool) :
    Refines (book.publish bidWillBeUpdated askWillBeUpdated).1
        (model.publish bidWillBeUpdated askWillBeUpdated).1 ∧
      (book.publish bidWillBeUpdated askWillBeUpdated).2 =
        (model.publish bidWillBeUpdated askWillBeUpdated).2 := by
  obtain ⟨hbids, hasks, hbbo⟩ := h
  have hbidQuote := quote_eq hbids
  have haskQuote := quote_eq hasks
  have hresult : (book.updateBBO bidWillBeUpdated askWillBeUpdated).bbo =
      (model.publish bidWillBeUpdated askWillBeUpdated).1.bbo := by
    cases bidWillBeUpdated <;> cases askWillBeUpdated <;>
      simp [MarketOrderBook2.updateBBO, LadderBook.publish, hbidQuote, haskQuote, hbbo]
  have hframe : (book.updateBBO bidWillBeUpdated askWillBeUpdated).bids = book.bids ∧
      (book.updateBBO bidWillBeUpdated askWillBeUpdated).asks = book.asks := by
    cases bidWillBeUpdated <;> cases askWillBeUpdated <;> exact ⟨rfl, rfl⟩
  refine ⟨⟨?_, ?_, hresult⟩, ?_⟩
  · rw [MarketOrderBook2.publish, hframe.1]
    exact hbids
  · rw [MarketOrderBook2.publish, hframe.2]
    exact hasks
  · simp only [MarketOrderBook2.publish, hresult]
    rfl

/-- The loops and the tail of a handler act on the ladders. -/
theorem processLevels (h : Refines book model) (flagRemovals : Bool)
    (bids asks : List BookSnapshotElem) :
    Refines (book.processLevels flagRemovals bids asks).1
        (model.write flagRemovals (bids.map BookSnapshotElem.entry)
          (asks.map BookSnapshotElem.entry)).1 ∧
      (book.processLevels flagRemovals bids asks).2 =
        (model.write flagRemovals (bids.map BookSnapshotElem.entry)
          (asks.map BookSnapshotElem.entry)).2 := by
  obtain ⟨hbids, hbidFlag⟩ := h.bids.foldl_processLevel flagRemovals false bids
  obtain ⟨hasks, haskFlag⟩ := h.asks.foldl_processLevel flagRemovals false asks
  rw [← Ladder.scan_fst _ flagRemovals] at hbids hasks
  rw [book.processLevels_eq, hbidFlag, haskFlag]
  have hwritten : Refines
      { book with
        bids := (bids.foldl (BookSide.processLevel (· > ·) .kBid flagRemovals) (book.bids, false)).1
        asks := (asks.foldl (BookSide.processLevel (· < ·) .kAsk flagRemovals)
          (book.asks, false)).1 }
      { model with
        bids := (model.bids.scan flagRemovals (bids.map BookSnapshotElem.entry)).1
        asks := (model.asks.scan flagRemovals (asks.map BookSnapshotElem.entry)).1 } :=
    ⟨hbids, hasks, h.bbo⟩
  exact hwritten.publish _ _

/-- One message keeps the refinement and emits the same signals. -/
theorem step (h : Refines book model) {message : BookMessage} (hsided : message.WellSided) :
    Refines ((MarketOrderBook2.machine containers).step book message).1
        (LadderBook.machine.step model message).1 ∧
      ((MarketOrderBook2.machine containers).step book message).2 =
        (LadderBook.machine.step model message).2 := by
  cases message with
  | snapshot marketSnapshot =>
      cases marketSnapshot with
      | none => exact ⟨h, rfl⟩
      | some marketSnapshot => exact h.clearOrderBook.processLevels false _ _
  | diff marketDiff =>
      cases marketDiff with
      | none => exact ⟨h, rfl⟩
      | some marketDiff => exact h.processLevels true _ _
  | update marketUpdate =>
      have hcleared : Refines
          (if marketUpdate.type = .clear then book.clearOrderBook else book)
          (if marketUpdate.type = .clear then model.clear else model) := by
        split
        · exact h.clearOrderBook
        · exact h
      simp only [MarketOrderBook2.machine, LadderBook.machine, LadderBook.apply,
        BookMessage.batch, decide_eq_true_eq]
      rcases hsided with hside | hside
      · rw [book.onMarketUpdate_bid hside]
        simpa [hside, BookSnapshotElem.entry] using
          hcleared.processLevels true [⟨marketUpdate.price, marketUpdate.qty⟩] []
      · rw [book.onMarketUpdate_ask hside]
        simpa [hside, BookSnapshotElem.entry] using
          hcleared.processLevels true [] [⟨marketUpdate.price, marketUpdate.qty⟩]

end Refines

/-- A run of the book goes through the states and the signals of the ladders. -/
theorem simulation (containers : Containers) {messages : List BookMessage}
    (hsided : ∀ message ∈ messages, message.WellSided) :
    Refines ((MarketOrderBook2.machine containers).run messages)
        (LadderBook.machine.run messages) ∧
      (MarketOrderBook2.machine containers).trace messages = LadderBook.machine.trace messages :=
  (MarketOrderBook2.machine containers).simulation LadderBook.machine BookMessage.WellSided Refines
    (Refines.new containers) (fun _ _ _ h hsided => h.step hsided) hsided

end CryptoBot.Book

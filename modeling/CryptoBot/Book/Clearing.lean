/-
# Clearing a book

A CLEAR should leave an empty book with an invalid BBO.  Neither book does it in
general.  `MarketOrderBook` empties its containers and returns before it
refreshes the cache, so the old quotes stay.  `MarketOrderBook2` goes on as if
the message were an ordinary update: it writes the level of the message to the
emptied book, and it refreshes the side of the message only.

The laws say when the two books are in the state a CLEAR should leave, and that
apart from this the cached BBO is the top of the book after every update.
-/

import CryptoBot.Book.SharedRepresentation
import CryptoBot.Book.TopOfBook

namespace CryptoBot.Book

open CryptoBot.Common CryptoBot.MarketData CryptoBot.Math

/-! ## The trade engine's book on the ladders -/

/-- The writes of an update to the bids. -/
def bidWrites (marketUpdate : MEMarketUpdate) : List (Price × Qty) :=
  if marketUpdate.side = .kBid then [(marketUpdate.price, marketUpdate.qty)] else []

/-- The writes of an update to the asks. -/
def askWrites (marketUpdate : MEMarketUpdate) : List (Price × Qty) :=
  if marketUpdate.side = .kAsk then [(marketUpdate.price, marketUpdate.qty)] else []

theorem Levels.onUpdate_eq_writes (levels : Levels) {marketUpdate : MEMarketUpdate}
    (h : marketUpdate.type = .default) :
    levels.onUpdate marketUpdate =
      ⟨writes levels.bids (bidWrites marketUpdate),
        writes levels.asks (askWrites marketUpdate)⟩ := by
  simp only [onUpdate, bidWrites, askWrites, h, reduceCtorEq, if_false]
  congr 1 <;> split <;> rfl

theorem scan_bidWrites_snd (ladder : Ladder (fun first second : Price => first > second) Qty)
    (marketUpdate : MEMarketUpdate) :
    (ladder.scan true (bidWrites marketUpdate)).2 =
      (decide (marketUpdate.side = .kBid) && ladder.touches marketUpdate.price) := by
  rw [bidWrites]
  split <;> simp_all [Ladder.scan, Ladder.scanStep]

theorem scan_askWrites_snd (ladder : Ladder (fun first second : Price => first < second) Qty)
    (marketUpdate : MEMarketUpdate) :
    (ladder.scan true (askWrites marketUpdate)).2 =
      (decide (marketUpdate.side = .kAsk) && ladder.touches marketUpdate.price) := by
  rw [askWrites]
  split <;> simp_all [Ladder.scan, Ladder.scanStep]

namespace MarketOrderBook

variable {containers : Containers}

/-- The quantities the trees list. -/
def levels (book : MarketOrderBook containers) : Levels where
  bids price := ((book.levelsOf book.bidNodes).lookup price).getD 0
  asks price := ((book.levelsOf book.askNodes).lookup price).getD 0

variable {book : MarketOrderBook containers} {model : LadderBook} {levels : Levels}
  {marketUpdate : MEMarketUpdate}

theorem Holds.levels_eq (h : book.Holds levels) : book.levels = levels := by
  have hbids := (Shares.owned h).get_ladder
  have hasks := (Shares.opposed h).get_ladder
  cases levels
  simp only [MarketOrderBook.levels, Levels.mk.injEq]
  exact ⟨hbids, hasks⟩

/-- The flags an update of a level ends with. -/
theorem process_flags (h : marketUpdate.type = .default) :
    (book.process marketUpdate).2 =
      some (decide (marketUpdate.side = .kBid) &&
          book.touched (fun price best => price < best) book.bidsAtPriceMap marketUpdate.price,
        decide (marketUpdate.side = .kAsk) &&
          book.touched (fun price best => price > best) book.asksAtPriceMap
            marketUpdate.price) := by
  simp only [process, h, reduceCtorEq, if_false]

/-- A flag compares the price with the best level of a tree, as a ladder with that
best level does. -/
theorem touched_eq_touches {r : Price → Price → Prop} [DecidableRel r] {ladder : Ladder r Qty}
    {tree : containers.tree.Carrier}
    (hbest : ladder.best =
      (book.front tree).map fun best => (best.price, best.firstMktOrder.qty)) (price : Price) :
    book.touched (fun price best => decide (r best price)) tree price = ladder.touches price := by
  rw [touched, Ladder.touches, hbest]
  cases book.front tree with
  | none => rfl
  | some best => exact decide_not.symm

/-- Every block the map leads to is given back. -/
theorem Holds.clearOrderBook (h : book.Holds levels) : book.clearOrderBook.Holds .empty := by
  have hbids : book.clearOrderBook.bidNodes = [] := containers.tree.toList_clear _
  have hasks : book.clearOrderBook.askNodes = [] := containers.tree.toList_clear _
  have hfind : book.clearOrderBook.find = fun _ => none := containers.map.find_clear _
  have hfold (entries : List (Price × Option Addr)) (pool : MemPool MarketOrdersAtPrice)
      (node : Addr) :
      (entries.foldl (fun pool entry => entry.2.elim pool pool.deallocated) pool).InUse node ↔
        pool.InUse node ∧ ∀ entry ∈ entries, entry.2 ≠ some node := by
    induction entries generalizing pool with
    | nil => simp
    | cons entry entries ih =>
        rw [List.foldl_cons, ih]
        cases hpointer : entry.2 with
        | none => simp [hpointer]
        | some other =>
            simp only [Option.elim_some, MemPool.inUse_deallocated, List.forall_mem_cons, hpointer,
              ne_eq, Option.some.injEq]
            tauto
  refine ⟨hbids ▸ .nil, hasks ▸ .nil, ?_, fun node => ?_⟩
  · rw [hbids, hasks, hfind]
    exact .nil
  · rw [hbids, hasks]
    refine iff_of_false ?_ List.not_mem_nil
    intro hinUse
    obtain ⟨hbefore, hnone⟩ := (hfold _ _ node).mp hinUse
    have hmapped := (h.indexes.mapped _ node).mpr ⟨(h.inUse node).mp hbefore, rfl⟩
    exact hnone _ ((containers.map.mem_entries _ _ _).mpr hmapped) rfl

/-- The containers hold the levels of the ladders, and the cache is theirs. -/
structure Refines (book : MarketOrderBook containers) (model : LadderBook) : Prop where
  holds : book.Holds model.levels
  bbo : book.bbo = model.bbo

namespace Refines

theorem new : (MarketOrderBook.new containers).Refines .new := ⟨holds_new, rfl⟩

theorem updateBBO (h : book.Refines model) (updateBid updateAsk : Bool) :
    (book.updateBBO updateBid updateAsk).Refines (model.publish updateBid updateAsk).1 := by
  have hbid : MarketOrderBook2.quote (book.front book.bidsAtPriceMap) =
      LadderBook.quote model.bids.best := (Shares.owned h.holds).quote_eq
  have hask : MarketOrderBook2.quote (book.front book.asksAtPriceMap) =
      LadderBook.quote model.asks.best := (Shares.opposed h.holds).quote_eq
  refine ⟨(holds_updateBBO_iff _ _).mpr h.holds, ?_⟩
  cases updateBid <;> cases updateAsk <;>
    simp [MarketOrderBook.updateBBO, LadderBook.publish, hbid, hask, h.bbo]

/-- The flags of the handler are those of the ladders. -/
theorem touched_bid (h : book.Refines model) (price : Price) :
    book.touched (fun price best => price < best) book.bidsAtPriceMap price =
      model.bids.touches price :=
  touched_eq_touches (Shares.owned h.holds).best_eq price

theorem touched_ask (h : book.Refines model) (price : Price) :
    book.touched (fun price best => price > best) book.asksAtPriceMap price =
      model.asks.touches price :=
  touched_eq_touches (Shares.opposed h.holds).best_eq price

/-- An update of a level is a write to the ladders. -/
theorem onMarketUpdate (h : book.Refines model) (hlevel : IsLevel marketUpdate)
    (hzero : model.levels.opposite marketUpdate = 0)
    (hroom : marketUpdate.qty ≠ 0 → book.HasRoom (orderOf marketUpdate)) :
    (book.onMarketUpdate marketUpdate).Refines
      (model.write true (bidWrites marketUpdate) (askWrites marketUpdate)).1 := by
  have hwritten : (book.process marketUpdate).1.Refines { model with
      bids := (model.bids.scan true (bidWrites marketUpdate)).1
      asks := (model.asks.scan true (askWrites marketUpdate)).1 } := by
    refine ⟨?_, (book.bbo_process marketUpdate).trans h.bbo⟩
    have hprocess := h.holds.process hlevel hzero hroom
    rw [Levels.onUpdate_eq_writes _ hlevel.1] at hprocess
    simpa [LadderBook.levels] using hprocess
  have hflags : (book.process marketUpdate).2 =
      some ((model.bids.scan true (bidWrites marketUpdate)).2,
        (model.asks.scan true (askWrites marketUpdate)).2) := by
    rw [process_flags hlevel.1, h.touched_bid, h.touched_ask, scan_bidWrites_snd,
      scan_askWrites_snd]
  rw [MarketOrderBook.onMarketUpdate]
  rcases hprocess : book.process marketUpdate with ⟨next, flags⟩
  rw [hprocess] at hwritten hflags
  rw [show flags = _ from hflags]
  exact hwritten.updateBBO _ _

end Refines

/-- The state a CLEAR should leave. -/
structure Cleared (book : MarketOrderBook containers) : Prop where
  bids : book.bidNodes = []
  asks : book.askNodes = []
  pool : ∀ node, ¬ book.ordersAtPricePool.InUse node
  bbo : book.bbo = {}

theorem Holds.cleared (h : book.Holds .empty) (hbbo : book.bbo = {}) : book.Cleared := by
  have hbids : book.bidNodes = [] :=
    List.eq_nil_iff_forall_not_mem.mpr fun node hnode =>
      ((Shares.owned h).quantities node hnode).2 rfl
  have hasks : book.askNodes = [] :=
    List.eq_nil_iff_forall_not_mem.mpr fun node hnode =>
      ((Shares.opposed h).quantities node hnode).2 rfl
  refine ⟨hbids, hasks, fun node hnode => ?_, hbbo⟩
  have hmem := (h.inUse node).mp hnode
  rw [hbids, hasks] at hmem
  exact List.not_mem_nil hmem

/-- A CLEAR returns before the refresh of the cache. -/
theorem run_concat_of_clear (updates : List MEMarketUpdate) (h : marketUpdate.type = .clear) :
    (machine containers).run (updates ++ [marketUpdate]) =
      ((machine containers).run updates).clearOrderBook := by
  rw [Machine.run_concat]
  simp [machine, onMarketUpdate, process, h]

/-- After the update the BBO is the top of the book, and a CLEAR has cleared. -/
def ClearsAt (containers : Containers) (before : List MEMarketUpdate)
    (marketUpdate : MEMarketUpdate) : Prop :=
  let book := (machine containers).run (before ++ [marketUpdate])
  IsTopOfBook book.levels book.bbo ∧ (marketUpdate.type = .clear → book.Cleared)

/-- An update of a level names a side, and a price at which the other side has no
level. -/
def OrderlyAt (before : List MEMarketUpdate) (marketUpdate : MEMarketUpdate) : Prop :=
  marketUpdate.type = .default → IsLevel marketUpdate ∧
    (Levels.ofUpdates before).opposite marketUpdate = 0

/-- A CLEAR finds an invalid BBO. -/
def InvalidAt (containers : Containers) (before : List MEMarketUpdate)
    (marketUpdate : MEMarketUpdate) : Prop :=
  marketUpdate.type = .clear → ((machine containers).run before).bbo = {}

/-- The book after a run in which every CLEAR finds an invalid BBO. -/
theorem refines_run {updates : List MEMarketUpdate} (hlasts : PoolLasts containers updates)
    (horderly : EveryStep OrderlyAt updates) (hinvalid : EveryStep (InvalidAt containers) updates) :
    ∃ model, ((machine containers).run updates).Refines model ∧
      model.levels = Levels.ofUpdates updates ∧ model.bbo = model.topOfBook := by
  induction updates using List.reverseRecOn with
  | nil => exact ⟨.new, Refines.new, rfl, rfl⟩
  | append_singleton updates marketUpdate ih =>
      obtain ⟨hlasts, hroom⟩ := EveryStep.concat_iff.mp hlasts
      obtain ⟨horderly, hlevel⟩ := EveryStep.concat_iff.mp horderly
      obtain ⟨hinvalid, hbbo⟩ := EveryStep.concat_iff.mp hinvalid
      obtain ⟨model, hrefines, hlevels, htop⟩ := ih hlasts horderly hinvalid
      rw [Levels.ofUpdates_concat]
      cases htype : marketUpdate.type with
      | clear =>
          rw [run_concat_of_clear updates htype, Levels.onUpdate, if_pos htype]
          exact ⟨.new, ⟨hrefines.holds.clearOrderBook, hbbo htype⟩, rfl, rfl⟩
      | default =>
          obtain ⟨hlevel, hzero⟩ := hlevel htype
          rw [← hlevels] at hzero ⊢
          rw [Machine.run_concat]
          refine ⟨_, hrefines.onMarketUpdate hlevel hzero hroom, ?_, LadderBook.bbo_write htop _ _⟩
          rw [LadderBook.levels_write, Levels.onUpdate_eq_writes _ htype]
          rfl

/-- A CLEAR does what it should exactly if the BBO is invalid already. -/
theorem clearsAt_iff_invalidAt {updates : List MEMarketUpdate}
    (hlasts : PoolLasts containers updates) (horderly : EveryStep OrderlyAt updates) :
    EveryStep (ClearsAt containers) updates ↔ EveryStep (InvalidAt containers) updates := by
  constructor
  · rintro hclears before marketUpdate after heq htype
    have hcleared := ((hclears before marketUpdate after heq).2 htype).bbo
    rwa [run_concat_of_clear before htype] at hcleared
  · rintro hinvalid before marketUpdate after rfl
    have hsplit : before ++ marketUpdate :: after = (before ++ [marketUpdate]) ++ after := by simp
    rw [hsplit] at hlasts horderly hinvalid
    obtain ⟨model, hrefines, hlevels, htop⟩ :=
      refines_run (EveryStep.left hlasts) horderly.left hinvalid.left
    refine ⟨?_, fun htype => ?_⟩
    · rw [hrefines.holds.levels_eq, hrefines.bbo, model.isTopOfBook_iff]
      exact htop
    · have hempty : model.levels = .empty := by
        rw [hlevels, Levels.ofUpdates_concat, Levels.onUpdate, if_pos htype]
      refine (hempty ▸ hrefines.holds).cleared ?_
      rw [run_concat_of_clear before htype]
      exact (EveryStep.concat_iff.mp hinvalid.left).2 htype

end MarketOrderBook

/-! ## The book with a map per side -/

namespace BookSide.Represents

variable {containers : Containers} {bookSide : BookSide containers} {r : Price → Price → Prop}
  {side : Side}

theorem nodes_eq_nil (h : bookSide.Represents r side fun _ => 0) : bookSide.nodes = [] :=
  List.eq_nil_iff_forall_not_mem.mpr fun node hnode => (h.quantities node hnode).2 rfl

theorem getOrdersAtPrice_eq_none (h : bookSide.Represents r side fun _ => 0) (price : Price) :
    bookSide.getOrdersAtPrice price = none := by
  rw [Option.eq_none_iff_forall_not_mem]
  intro node hfound
  have hnode := (h.getOrdersAtPrice_eq_some_iff.mp hfound).1
  rw [h.nodes_eq_nil] at hnode
  exact List.not_mem_nil hnode

theorem live_eq_empty (h : bookSide.Represents r side fun _ => 0) :
    bookSide.ordersAtPricePool.live = ∅ := by
  refine Finset.eq_empty_of_forall_notMem fun node hnode => ?_
  rw [h.live, h.nodes_eq_nil] at hnode
  exact List.not_mem_nil hnode

end BookSide.Represents

namespace MarketOrderBook2

variable {containers : Containers} {book : MarketOrderBook2 containers} {model : LadderBook}
  {marketUpdate : MEMarketUpdate2}

/-- The state a CLEAR should leave. -/
structure Cleared (book : MarketOrderBook2 containers) : Prop where
  bids : book.bids.nodes = []
  asks : book.asks.nodes = []
  bidPool : book.bids.ordersAtPricePool.live = ∅
  askPool : book.asks.ordersAtPricePool.live = ∅
  bbo : book.bbo = {}

theorem sides_publish (book : MarketOrderBook2 containers) (updateBid updateAsk : Bool) :
    (book.publish updateBid updateAsk).1.bids = book.bids ∧
      (book.publish updateBid updateAsk).1.asks = book.asks := by
  cases updateBid <;> cases updateAsk <;> exact ⟨rfl, rfl⟩

/-- The level of a CLEAR is not in the emptied book, so removing it does nothing
and its side is refreshed. -/
theorem onMarketUpdate_of_clear (h : Refines book model) (htype : marketUpdate.type = .clear)
    (hqty : marketUpdate.qty = 0) :
    book.onMarketUpdate marketUpdate = book.clearOrderBook.publish
      (decide (marketUpdate.side = .kBid)) (decide (marketUpdate.side = .kAsk)) := by
  have hcleared := h.clearOrderBook
  have hbids := hcleared.bids.getOrdersAtPrice_eq_none marketUpdate.price
  have hasks := hcleared.asks.getOrdersAtPrice_eq_none marketUpdate.price
  have hremoved : book.clearOrderBook.removeOrdersAtPrice marketUpdate.side marketUpdate.price =
      book.clearOrderBook := by
    have hnone : book.clearOrderBook.getOrdersAtPrice marketUpdate.price
        (marketUpdate.side = .kBid) = none := by
      rw [getOrdersAtPrice]
      split
      · exact hbids
      · exact hasks
    rw [removeOrdersAtPrice, hnone]
  have hbid : book.clearOrderBook.bidTouched marketUpdate.price = true := by
    rw [bidTouched, BookSide.front, hcleared.bids.nodes_eq_nil]
    rfl
  have hask : book.clearOrderBook.askTouched marketUpdate.price = true := by
    rw [askTouched, BookSide.front, hcleared.asks.nodes_eq_nil]
    rfl
  simp only [onMarketUpdate, htype, hqty, hremoved, hbid, hask, if_true, ne_eq, not_true_eq_false,
    if_false, Bool.and_true]

/-- An order without a side takes a block of the asks that is linked nowhere. -/
theorem pool_addOrder_of_no_side {order : MarketOrder} {node : Addr} (hbid : order.side ≠ .kBid)
    (hask : order.side ≠ .kAsk) (hnone : book.asks.getOrdersAtPrice order.price = none)
    (hresult : (book.asks.ordersAtPricePool.allocate ⟨order.side, order.price, order⟩).1 =
      some node) :
    (book.addOrder order).asks.ordersAtPricePool =
      (book.asks.ordersAtPricePool.allocate ⟨order.side, order.price, order⟩).2 := by
  rcases hallocate : book.asks.ordersAtPricePool.allocate ⟨order.side, order.price, order⟩
    with ⟨pointer, pool⟩
  rw [hallocate] at hresult
  subst hresult
  simp [addOrder, getOrdersAtPrice, allocate, addOrdersAtPrice, hbid, hask, hnone, hallocate]

/-- A CLEAR with a quantity leaves a level or a block behind. -/
theorem not_cleared_of_qty (h : Refines book model) (htype : marketUpdate.type = .clear)
    (hqty : marketUpdate.qty ≠ 0) : ¬ (book.onMarketUpdate marketUpdate).1.Cleared := by
  intro hafter
  have hcleared := h.clearOrderBook
  simp only [onMarketUpdate, htype, if_true, if_pos hqty] at hafter
  set order : MarketOrder :=
    ⟨kOrderIdInvalid, marketUpdate.side, marketUpdate.price, marketUpdate.qty⟩
  obtain ⟨hbids, hasks⟩ := sides_publish (book.clearOrderBook.addOrder order)
    (decide (marketUpdate.side = .kBid) && book.clearOrderBook.bidTouched marketUpdate.price)
    (decide (marketUpdate.side = .kAsk) && book.clearOrderBook.askTouched marketUpdate.price)
  by_cases hbid : order.side = .kBid
  · have hnodes := hafter.bids
    have hwritten := hcleared.bids.addOrder hbid hqty
    obtain ⟨node, hnode, -⟩ := hwritten.complete order.price (by simpa using hqty)
    rw [hbids, addOrder_bid _ hbid] at hnodes
    rw [hnodes] at hnode
    exact List.not_mem_nil hnode
  · by_cases hask : order.side = .kAsk
    · have hnodes := hafter.asks
      have hwritten := hcleared.asks.addOrder hask hqty
      obtain ⟨node, hnode, -⟩ := hwritten.complete order.price (by simpa using hqty)
      rw [hasks, addOrder_ask _ hask] at hnodes
      rw [hnodes] at hnode
      exact List.not_mem_nil hnode
    · obtain ⟨node, -, hresult, -, hinserted, -⟩ :=
        hcleared.asks.valid.allocate containers.unlimited ⟨order.side, order.price, order⟩
      have hlive := hafter.askPool
      rw [hasks, pool_addOrder_of_no_side hbid hask
        (hcleared.asks.getOrdersAtPrice_eq_none order.price) hresult, hinserted] at hlive
      exact Finset.insert_ne_empty _ _ hlive

/-- The book after the updates. -/
def runUpdates (containers : Containers) (updates : List MEMarketUpdate2) :
    MarketOrderBook2 containers :=
  (machine containers).run (updates.map .update)

theorem runUpdates_concat (updates : List MEMarketUpdate2) (marketUpdate : MEMarketUpdate2) :
    runUpdates containers (updates ++ [marketUpdate]) =
      ((runUpdates containers updates).onMarketUpdate marketUpdate).1 := by
  rw [runUpdates, List.map_append, List.map_singleton, Machine.run_concat]
  rfl

/-- After the update the BBO is the top of the book, and a CLEAR has cleared. -/
def ClearsAt (containers : Containers) (before : List MEMarketUpdate2)
    (marketUpdate : MEMarketUpdate2) : Prop :=
  let book := runUpdates containers (before ++ [marketUpdate])
  IsTopOfBook book.levels book.bbo ∧ (marketUpdate.type = .clear → book.Cleared)

/-- A CLEAR has no quantity, and the BBO is invalid already on every side it does
not name. -/
def EmptyAt (containers : Containers) (before : List MEMarketUpdate2)
    (marketUpdate : MEMarketUpdate2) : Prop :=
  marketUpdate.type = .clear → marketUpdate.qty = 0 ∧
    (marketUpdate.side = .kBid ∨
      (runUpdates containers before).bbo.bid = (kPriceInvalid, kQtyInvalid)) ∧
    (marketUpdate.side = .kAsk ∨
      (runUpdates containers before).bbo.ask = (kPriceInvalid, kQtyInvalid))

/-- The cache after a CLEAR without a quantity. -/
theorem bbo_clear_publish (model : LadderBook) (updateBid updateAsk : Bool) :
    (model.clear.publish updateBid updateAsk).1.bbo = {} ↔
      (updateBid = true ∨ model.bbo.bid = (kPriceInvalid, kQtyInvalid)) ∧
        (updateAsk = true ∨ model.bbo.ask = (kPriceInvalid, kQtyInvalid)) := by
  rw [BBO.ext_iff']
  cases updateBid <;> cases updateAsk <;>
    simp [LadderBook.publish, LadderBook.clear, LadderBook.quote, Ladder.best, BBO.bid, BBO.ask]

/-- What a CLEAR leaves, from a book in step. -/
theorem cleared_iff (h : Refines book model) (htype : marketUpdate.type = .clear) :
    (book.onMarketUpdate marketUpdate).1.Cleared ↔
      marketUpdate.qty = 0 ∧
        (marketUpdate.side = .kBid ∨ book.bbo.bid = (kPriceInvalid, kQtyInvalid)) ∧
        (marketUpdate.side = .kAsk ∨ book.bbo.ask = (kPriceInvalid, kQtyInvalid)) := by
  by_cases hqty : marketUpdate.qty = 0
  · have hpublish := (h.clearOrderBook.publish (decide (marketUpdate.side = .kBid))
      (decide (marketUpdate.side = .kAsk))).1
    obtain ⟨hbids, hasks⟩ := sides_publish book.clearOrderBook
      (decide (marketUpdate.side = .kBid)) (decide (marketUpdate.side = .kAsk))
    have hbbo := bbo_clear_publish model (decide (marketUpdate.side = .kBid))
      (decide (marketUpdate.side = .kAsk))
    rw [← hpublish.bbo, ← h.bbo, decide_eq_true_eq, decide_eq_true_eq] at hbbo
    rw [onMarketUpdate_of_clear h htype hqty, and_iff_right hqty, ← hbbo]
    refine ⟨Cleared.bbo, fun hcache => ⟨?_, ?_, ?_, ?_, hcache⟩⟩
    · rw [hbids]
      exact h.clearOrderBook.bids.nodes_eq_nil
    · rw [hasks]
      exact h.clearOrderBook.asks.nodes_eq_nil
    · rw [hbids]
      exact h.clearOrderBook.bids.live_eq_empty
    · rw [hasks]
      exact h.clearOrderBook.asks.live_eq_empty
  · exact iff_of_false (not_cleared_of_qty h htype hqty) fun hcleared => hqty hcleared.1

/-- The book after a run in which every CLEAR finds what it needs. -/
theorem refines_runUpdates {updates : List MEMarketUpdate2}
    (hsided : ∀ marketUpdate ∈ updates, marketUpdate.type = .default →
      (BookMessage.update marketUpdate).WellSided)
    (hempty : EveryStep (EmptyAt containers) updates) :
    ∃ model, Refines (runUpdates containers updates) model ∧ model.bbo = model.topOfBook := by
  induction updates using List.reverseRecOn with
  | nil => exact ⟨.new, Refines.new containers, rfl⟩
  | append_singleton updates marketUpdate ih =>
      obtain ⟨hempty, hclear⟩ := EveryStep.concat_iff.mp hempty
      obtain ⟨model, hrefines, htop⟩ :=
        ih (fun earlier hmem => hsided earlier (by simp [hmem])) hempty
      rw [runUpdates_concat]
      cases htype : marketUpdate.type with
      | clear =>
          obtain ⟨hqty, hcache⟩ := hclear htype
          have hpublish := (hrefines.clearOrderBook.publish (decide (marketUpdate.side = .kBid))
            (decide (marketUpdate.side = .kAsk))).1
          rw [onMarketUpdate_of_clear hrefines htype hqty]
          refine ⟨_, hpublish, ?_⟩
          rw [hrefines.bbo] at hcache
          exact (bbo_clear_publish model _ _).mpr (by simpa using hcache)
      | default =>
          have hside := hsided marketUpdate (by simp) htype
          have hincremental : (BookMessage.update marketUpdate).Incremental := ⟨htype, hside⟩
          refine ⟨_, (hrefines.step hside).1, ?_⟩
          rw [hincremental.step_eq]
          exact LadderBook.bbo_write htop _ _

/-- A CLEAR does what it should exactly if it has no quantity and the BBO is
invalid already on the sides it does not name. -/
theorem clearsAt_iff_emptyAt {updates : List MEMarketUpdate2}
    (hsided : ∀ marketUpdate ∈ updates, marketUpdate.type = .default →
      (BookMessage.update marketUpdate).WellSided) :
    EveryStep (ClearsAt containers) updates ↔ EveryStep (EmptyAt containers) updates := by
  constructor
  · intro hclears
    induction updates using List.reverseRecOn with
    | nil => exact EveryStep.nil
    | append_singleton updates marketUpdate ih =>
        obtain ⟨hclears, hlast⟩ := EveryStep.concat_iff.mp hclears
        have hearlier := fun earlier hmem => hsided earlier (List.mem_append_left _ hmem)
        have hempty := ih hearlier hclears
        obtain ⟨model, hrefines, -⟩ := refines_runUpdates hearlier hempty
        refine EveryStep.concat_iff.mpr ⟨hempty, fun htype => ?_⟩
        have hcleared := hlast.2 htype
        rw [runUpdates_concat] at hcleared
        exact (cleared_iff hrefines htype).mp hcleared
  · rintro hempty before marketUpdate after rfl
    have hsplit : before ++ marketUpdate :: after = (before ++ [marketUpdate]) ++ after := by simp
    rw [hsplit] at hsided hempty
    have hearlier := fun earlier hmem => hsided earlier (List.mem_append_left _ hmem)
    obtain ⟨model, hrefines, htop⟩ := refines_runUpdates hearlier hempty.left
    refine ⟨?_, fun htype => ?_⟩
    · rw [hrefines.levels_eq, hrefines.bbo, model.isTopOfBook_iff]
      exact htop
    · obtain ⟨hbefore, hlast⟩ := EveryStep.concat_iff.mp hempty.left
      obtain ⟨earlier, hrefines, -⟩ :=
        refines_runUpdates (fun first hmem => hearlier first (by simp [hmem])) hbefore
      rw [runUpdates_concat]
      exact (cleared_iff hrefines htype).mpr (hlast htype)

end MarketOrderBook2

/-! ## Both books -/

/-- In every run the BBO is the top of the book after each update and a CLEAR
clears, exactly if each CLEAR of the trade engine's book finds an invalid BBO, and
each CLEAR of the other book has no quantity and finds the BBO invalid on the
sides it does not name. -/
theorem clears_iff (containers : Containers) :
    (∀ updates : List MEMarketUpdate, MarketOrderBook.PoolLasts containers updates →
      EveryStep MarketOrderBook.OrderlyAt updates →
        (EveryStep (MarketOrderBook.ClearsAt containers) updates ↔
          EveryStep (MarketOrderBook.InvalidAt containers) updates)) ∧
      ∀ updates : List MEMarketUpdate2,
        (∀ marketUpdate ∈ updates, marketUpdate.type = .default →
          (BookMessage.update marketUpdate).WellSided) →
        (EveryStep (MarketOrderBook2.ClearsAt containers) updates ↔
          EveryStep (MarketOrderBook2.EmptyAt containers) updates) :=
  ⟨fun _ => MarketOrderBook.clearsAt_iff_invalidAt,
    fun _ => MarketOrderBook2.clearsAt_iff_emptyAt⟩

/-- A CLEAR of an empty book before the first level. -/
def clearedFirst : List MEMarketUpdate :=
  [{ type := .clear }, { side := .kAsk, price := 101, qty := 2 }]

/-- A CLEAR that names the only side with a level, without a quantity. -/
def clearedAsks : List MEMarketUpdate2 :=
  [{ side := .kAsk, price := 101, qty := 2 }, { type := .clear, side := .kAsk, qty := 0 },
    { side := .kBid, price := 100, qty := 1 }]

instance (containers : Containers) (before : List MEMarketUpdate2)
    (marketUpdate : MEMarketUpdate2) :
    Decidable (MarketOrderBook2.EmptyAt containers before marketUpdate) :=
  inferInstanceAs (Decidable (_ → _))

instance (before : List MEMarketUpdate) (marketUpdate : MEMarketUpdate) :
    Decidable (MarketOrderBook.OrderlyAt before marketUpdate) :=
  inferInstanceAs (Decidable (_ → _))

theorem clears_clearedFirst :
    EveryStep (MarketOrderBook.ClearsAt .lists) clearedFirst ∧
      EveryStep (MarketOrderBook2.ClearsAt .lists) clearedAsks := by
  have hfirst : EveryStep (MarketOrderBook.InvalidAt .lists) ([] ++ [{ type := .clear }]) :=
    EveryStep.concat_iff.mpr ⟨EveryStep.nil, fun _ => rfl⟩
  have hinvalid : EveryStep (MarketOrderBook.InvalidAt .lists)
      ([{ type := .clear }] ++ [{ side := .kAsk, price := 101, qty := 2 }]) :=
    EveryStep.concat_iff.mpr ⟨hfirst, fun htype => by cases htype⟩
  exact ⟨((clears_iff .lists).1 clearedFirst (MarketOrderBook.poolLasts_of_length (by decide))
      (by decide)).mpr hinvalid,
    ((clears_iff .lists).2 clearedAsks (by decide)).mpr (by decide)⟩

/-- A CLEAR after the first level; its fields are the defaults. -/
def staleBid : List MEMarketUpdate :=
  [{ side := .kBid, price := 100, qty := 1 }, { type := .clear }]

/-- The same for the other book, with the quantity of the defaults. -/
def leakedBlock : List MEMarketUpdate2 :=
  [{ side := .kBid, price := 100, qty := 1 }, { type := .clear }]

theorem not_clears_staleBid :
    (MarketOrderBook.PoolLasts .lists staleBid ∧ EveryStep MarketOrderBook.OrderlyAt staleBid ∧
        ¬ EveryStep (MarketOrderBook.ClearsAt .lists) staleBid) ∧
      (∀ marketUpdate ∈ leakedBlock, marketUpdate.type = .default →
        (BookMessage.update marketUpdate).WellSided) ∧
      ¬ EveryStep (MarketOrderBook2.ClearsAt .lists) leakedBlock := by
  refine ⟨⟨MarketOrderBook.poolLasts_of_length (by decide), by decide, fun hclears => ?_⟩,
    by decide, fun hclears => ?_⟩
  · set bid : MEMarketUpdate := { side := .kBid, price := 100, qty := 1 } with hbid
    have hcleared := ((hclears [bid] { type := .clear } [] rfl).2 rfl).bbo
    rw [MarketOrderBook.run_concat_of_clear [bid] rfl, MarketOrderBook.bbo_clearOrderBook]
      at hcleared
    have hlasts : MarketOrderBook.PoolLasts .lists [bid] :=
      MarketOrderBook.poolLasts_of_length (by decide)
    have hinvalid : EveryStep (MarketOrderBook.InvalidAt .lists) ([] ++ [bid]) :=
      EveryStep.concat_iff.mpr ⟨EveryStep.nil, fun htype => by cases htype⟩
    obtain ⟨model, hrefines, hlevels, htop⟩ :=
      MarketOrderBook.refines_run hlasts (by decide) hinvalid
    rw [← hrefines.bbo, hcleared, ← model.isTopOfBook_iff, hlevels] at htop
    rcases htop.1 with ⟨hvalue, -⟩ | ⟨hzero, -⟩
    · exact absurd hvalue (by decide)
    · exact absurd (hzero 100) (by decide)
  · have hpool := ((hclears [{ side := .kBid, price := 100, qty := 1 }] { type := .clear } []
      rfl).2 rfl).askPool
    revert hpool
    decide

end CryptoBot.Book

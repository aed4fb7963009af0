/-
# The levels of the trade engine's book

`MarketOrderBook` finds the level of a price in one hash map for both sides.  As
long as no price is used on both sides at a time this makes no difference: the
trees, the map and the pool are in step, and each side holds the fold of its own
updates.  An update of a price at which the other side has a level breaks one of
the three.  Adding it overwrites the level of the other side and leaves its own
tree without one; removing it frees the block of the other side, which stays in
the tree.

`inStep_iff_separated` is both directions.  Its condition is on the updates
alone: none of them names a price at which the fold of the other side has a
quantity.
-/

import CryptoBot.Book.SharedBook
import CryptoBot.Book.Representation

namespace CryptoBot.Book

open CryptoBot.Common CryptoBot.MarketData CryptoBot.Math

/-! ## Two trees over one map -/

/-- Two trees enumerate the levels of two sides, and one map and one pool hold
the nodes of both.  `find` and `level` read the map and the pool, `live` tells
the blocks in use. -/
structure Shares (find : Price → Option (Option Addr)) (level : Addr → MarketOrdersAtPrice)
    (live : Addr → Prop) (own : List Addr) (r : Price → Price → Prop) (side : Side)
    (values : Price → Qty) (others : List Addr) (r' : Price → Price → Prop) (side' : Side)
    (values' : Price → Qty) : Prop where
  owned : Enumerates level own r side values
  opposed : Enumerates level others r' side' values'
  indexes : Indexes find level (own ++ others)
  inUse : ∀ node, live node ↔ node ∈ own ++ others

namespace Shares

variable {find find' : Price → Option (Option Addr)} {level after : Addr → MarketOrdersAtPrice}
  {live live' : Addr → Prop} {own own' others : List Addr} {r r' : Price → Price → Prop}
  {side side' : Side} {values values' : Price → Qty}

theorem swap (h : Shares find level live own r side values others r' side' values') :
    Shares find level live others r' side' values' own r side values where
  owned := h.opposed
  opposed := h.owned
  indexes := h.indexes.congr (by simp [or_comm]) fun _ _ => rfl
  inUse node := by
    rw [h.inUse]
    simp [or_comm]

/-- Neither side has a level at a price the map does not know. -/
theorem values_eq_zero (h : Shares find level live own r side values others r' side' values')
    {price : Price} (hnone : (find price).join = none) : values price = 0 := by
  by_contra hvalue
  obtain ⟨node, hnode, hprice⟩ := h.owned.complete price hvalue
  exact h.indexes.price_ne hnone (List.mem_append_left _ hnode) hprice

/-- The node of a price is of the side that has a level there. -/
theorem mem_own (h : Shares find level live own r side values others r' side' values')
    {price : Price} {node : Addr} (hfound : (find price).join = some node)
    (hzero : values' price = 0) : node ∈ own ∧ (level node).price = price := by
  obtain ⟨hnode, hprice⟩ := h.indexes.join_eq_some_iff.mp hfound
  rcases List.mem_append.mp hnode with hown | hother
  · exact ⟨hown, hprice⟩
  · exact (h.opposed.price_ne hzero hother hprice).elim

/-- A write of one side at a price where the other one has no level. -/
theorem write (h : Shares find level live own r side values others r' side' values')
    (price : Price) (placed : Option Addr) {written : Price → Qty}
    (hown : Enumerates after own' r side written) (hzero : values' price = 0)
    (hmem : ∀ node, node ∈ own' ↔ placed = some node ∨ (node ∈ own ∧ (level node).price ≠ price))
    (hkept : ∀ node ∈ own ++ others, (level node).price ≠ price → after node = level node)
    (hplaced : ∀ node, placed = some node → (after node).price = price)
    (hfind : find' = Function.update find price (placed.map some))
    (hlive : ∀ node, live' node ↔ node ∈ own' ++ others) :
    Shares find' after live' own' r side written others r' side' values' where
  owned := hown
  opposed := h.opposed.congr fun node hnode =>
    hkept node (List.mem_append_right _ hnode) (h.opposed.price_ne hzero hnode)
  indexes := by
    refine h.indexes.write price placed (fun node => ?_) (fun node hnode hdistinct => ?_) hplaced
      hfind
    · have hother : node ∈ others → (level node).price ≠ price := h.opposed.price_ne hzero
      rw [List.mem_append, List.mem_append, hmem]
      tauto
    · rw [hkept node hnode hdistinct]
  inUse := hlive

/-- A price at which the other side has a level has none on this side. -/
theorem price_ne_of_opposed (h : Shares find level live own r side values others r' side' values')
    (hsides : side ≠ side') {price : Price} (hvalue : values' price ≠ 0) {node : Addr}
    (hnode : node ∈ own) : (level node).price ≠ price := by
  intro hprice
  obtain ⟨other, hother, hotherPrice⟩ := h.opposed.complete price hvalue
  have hmapped := (h.indexes.mapped price node).mpr ⟨List.mem_append_left _ hnode, hprice⟩
  rw [(h.indexes.mapped price other).mpr ⟨List.mem_append_right _ hother, hotherPrice⟩] at hmapped
  cases hmapped
  exact hsides ((h.owned.sides node hnode).1.symm.trans (h.opposed.sides node hother).1)

variable [IsStrictTotalOrder Price r]

/-- `addOrder` at a price that has a level of this side. -/
theorem overwrite (h : Shares find level live own r side values others r' side' values')
    {order : MarketOrder} {node : Addr} (hfound : (find order.price).join = some node)
    (hzero : values' order.price = 0) (hqty : order.qty ≠ 0)
    (hafter : after = Function.update level node ((level node).overwrite order))
    (hlive : ∀ other, live' other ↔ live other) :
    Shares find after live' own r side (Function.update values order.price order.qty) others r'
      side' values' := by
  obtain ⟨hnode, hprice⟩ := h.mem_own hfound hzero
  have hfind : find order.price = some (some node) :=
    (h.indexes.mapped _ _).mpr ⟨List.mem_append_left _ hnode, hprice⟩
  refine h.write order.price (some node) (hafter ▸ h.owned.overwrite hnode hprice hqty) hzero
    ?_ ?_ ?_ ?_ fun other => (hlive other).trans (h.inUse other)
  · intro other
    rw [Option.some.injEq]
    constructor
    · intro hother
      by_cases heq : (level other).price = order.price
      · exact .inl (h.owned.node_unique hnode hother (hprice.trans heq.symm))
      · exact .inr ⟨hother, heq⟩
    · rintro (rfl | ⟨hother, -⟩)
      · exact hnode
      · exact hother
  · intro other _ hdistinct
    rw [hafter, Function.update_of_ne]
    rintro rfl
    exact hdistinct hprice
  · rintro _ ⟨⟩
    rw [hafter, price_update_overwrite, hprice]
  · rw [Option.map_some, ← hfind, Function.update_eq_self]

/-- A tree is still in order when a free block has been constructed. -/
theorem pairwise_not_before (h : Shares find level live own r side values others r' side' values')
    {node : Addr} (hfresh : ¬ live node) (placed : MarketOrdersAtPrice) :
    own.Pairwise fun first second =>
      ¬ byPrice (Function.update level node placed) r second first := by
  have hnew : node ∉ own := fun hmem => hfresh ((h.inUse node).mpr (List.mem_append_left _ hmem))
  exact (h.owned.congr fun other hother =>
    Function.update_of_ne (ne_of_mem_of_not_mem hother hnew) _ _).pairwise_not_before

variable [DecidableRel r]

/-- `addOrder` at a price without a level. -/
theorem place (h : Shares find level live own r side values others r' side' values')
    {order : MarketOrder} {node : Addr} (hside : order.side = side)
    (hnone : (find order.price).join = none) (hqty : order.qty ≠ 0) (hfresh : ¬ live node)
    (hafter : after = Function.update level node ⟨order.side, order.price, order⟩)
    (hlive : ∀ other, live' other ↔ other = node ∨ live other)
    (hfind : find' = Function.update find order.price (some (some node)))
    (hown : own' = own.orderedInsert (byPrice after r) node) :
    Shares find' after live' own' r side (Function.update values order.price order.qty) others r'
      side' values' := by
  have hnew : node ∉ own ++ others := fun hmem => hfresh ((h.inUse node).mpr hmem)
  have hmem (other : Addr) : other ∈ own' ↔ other = node ∨ other ∈ own := by
    rw [hown, List.mem_orderedInsert]
  refine h.write order.price (some node) ?_ (h.swap.values_eq_zero hnone) ?_ ?_ ?_ hfind ?_
  · rw [hown]
    exact h.owned.insert hafter hside (h.values_eq_zero hnone) hqty
      fun hnode => hnew (List.mem_append_left _ hnode)
  · intro other
    rw [hmem, Option.some.injEq, eq_comm]
    exact or_congr_right ⟨fun hother =>
      ⟨hother, h.owned.price_ne (h.values_eq_zero hnone) hother⟩, And.left⟩
  · intro other hother _
    rw [hafter, Function.update_of_ne (ne_of_mem_of_not_mem hother hnew)]
  · rintro _ ⟨⟩
    rw [hafter, Function.update_self]
  · intro other
    rw [hlive, h.inUse, List.mem_append, List.mem_append, hmem, or_assoc]

/-- `removeOrdersAtPrice` at a price that has a level of this side. -/
theorem remove (h : Shares find level live own r side values others r' side' values')
    {price : Price} {node : Addr} (hfound : (find price).join = some node)
    (hzero : values' price = 0) (hafter : after = level)
    (hlive : ∀ other, live' other ↔ other ≠ node ∧ live other)
    (hfind : find' = Function.update find price none)
    (hown : own' =
      own.filter fun other => byPrice level r other node ∨ byPrice level r node other) :
    Shares find' after live' own' r side (Function.update values price 0) others r' side'
      values' := by
  rw [hafter]
  obtain ⟨hnode, rfl⟩ := h.mem_own hfound hzero
  have hmem (other : Addr) :
      other ∈ own' ↔ other ∈ own ∧ (level other).price ≠ (level node).price := by
    rw [hown]
    exact Enumerates.mem_erased_iff
  refine h.write (level node).price none ?_ hzero (by simpa using hmem) (fun _ _ _ => rfl)
    (by simp) hfind ?_
  · rw [hown]
    exact h.owned.erase node fun _ _ _ => rfl
  · intro other
    rw [hlive, h.inUse, List.mem_append, List.mem_append, hmem]
    constructor
    · rintro ⟨hdistinct, hown | hother⟩
      · exact .inl ⟨hown, fun heq => hdistinct (h.owned.node_unique hown hnode heq)⟩
      · exact .inr hother
    · rintro (⟨hown, hdistinct⟩ | hother)
      · refine ⟨?_, .inl hown⟩
        rintro rfl
        exact hdistinct rfl
      · refine ⟨?_, .inr hother⟩
        rintro rfl
        exact h.opposed.price_ne hzero hother rfl

end Shares

/-! ## The containers of the book -/

namespace MarketOrderBook

variable {containers : Containers} (book : MarketOrderBook containers)

/-- The level a block holds. -/
def level (node : Addr) : MarketOrdersAtPrice := book.ordersAtPricePool.deref node

def find (price : Price) : Option (Option Addr) := containers.map.find book.priceOrdersAtPrice price

/-- The blocks the trees enumerate. -/
def bidNodes : List Addr := containers.tree.toList book.bidsAtPriceMap

def askNodes : List Addr := containers.tree.toList book.asksAtPriceMap

/-- The containers are in step and hold these levels. -/
def Holds (levels : Levels) : Prop :=
  Shares book.find book.level book.ordersAtPricePool.InUse book.bidNodes (· > ·) .kBid levels.bids
    book.askNodes (· < ·) .kAsk levels.asks

variable {book}

theorem holds_new : (new containers).Holds .empty := by
  have hbids : (new containers).bidNodes = [] := containers.tree.toList_new
  have hasks : (new containers).askNodes = [] := containers.tree.toList_new
  have hfind : (new containers).find = fun _ => none := containers.map.find_new
  refine ⟨hbids ▸ .nil, hasks ▸ .nil, ?_, fun node => ?_⟩
  · rw [hbids, hasks, hfind]
    exact .nil
  · rw [hbids, hasks]
    exact iff_of_false (MemPool.not_inUse_new maxOrdersAtPrice node) List.not_mem_nil

instance (r : Price → Price → Prop) [IsStrictTotalOrder Price r] :
    IsStrictWeakOrder Addr (book.before r) :=
  inferInstanceAs (IsStrictWeakOrder Addr (byPrice book.level r))

/-- A tree counts the nodes it links. -/
theorem count_ne_zero {tree : containers.tree.Carrier} {r : Price → Price → Prop} [DecidableRel r]
    [IsStrictTotalOrder Price r] {side : Side} {values : Price → Qty}
    (h : Enumerates book.level (containers.tree.toList tree) r side values) {node : Addr}
    (hnode : node ∈ containers.tree.toList tree) :
    containers.tree.count (book.before r) tree node ≠ 0 := by
  rw [containers.tree.count_eq (book.before r) _ node h.pairwise_not_before]
  exact Enumerates.countP_ne_zero hnode

/-! ## One operation on one side -/

theorem addOrder_of_found {order : MarketOrder} {node : Addr}
    (h : book.getOrdersAtPrice order.price = some node) :
    book.addOrder order = { book with
      ordersAtPricePool := book.ordersAtPricePool.modify node (·.overwrite order) } := by
  simp only [addOrder, h]

theorem addOrder_of_allocated {order : MarketOrder} {node : Addr}
    {pool : MemPool MarketOrdersAtPrice} (hnone : book.getOrdersAtPrice order.price = none)
    (hallocate : book.ordersAtPricePool.allocate ⟨order.side, order.price, order⟩ =
      .ok (node, pool)) :
    book.addOrder order = { book with ordersAtPricePool := pool }.addOrdersAtPrice node := by
  simp only [addOrder, hnone, hallocate]

theorem addOrdersAtPrice_bid {node : Addr} (h : (book.level node).side = .kBid) :
    book.addOrdersAtPrice node = { book with
      priceOrdersAtPrice := containers.map.emplaceUnique book.priceOrdersAtPrice
        (book.level node).price (some node)
      bidsAtPriceMap :=
        containers.tree.insertEqual (book.before (· > ·)) book.bidsAtPriceMap node } := by
  rw [level] at h
  simp only [addOrdersAtPrice, h, reduceCtorEq, if_false, if_true]
  rfl

theorem addOrdersAtPrice_ask {node : Addr} (h : (book.level node).side = .kAsk) :
    book.addOrdersAtPrice node = { book with
      priceOrdersAtPrice := containers.map.emplaceUnique book.priceOrdersAtPrice
        (book.level node).price (some node)
      asksAtPriceMap :=
        containers.tree.insertEqual (book.before (· < ·)) book.asksAtPriceMap node } := by
  rw [level] at h
  simp only [addOrdersAtPrice, h, reduceCtorEq, if_false, if_true]
  rfl

/-- The map entry and the block of a removed level. -/
def release (book : MarketOrderBook containers) (price : Price) (orderAtPrice : Addr) :
    MarketOrderBook containers :=
  { book with
    priceOrdersAtPrice := containers.map.erase
      (containers.map.assign book.priceOrdersAtPrice price none) price
    ordersAtPricePool := book.ordersAtPricePool.deallocated orderAtPrice }

theorem removeOrdersAtPrice_of_none {side : Side} {price : Price}
    (h : book.getOrdersAtPrice price = none) : book.removeOrdersAtPrice side price = book := by
  simp only [removeOrdersAtPrice, h]

theorem removeOrdersAtPrice_bid {price : Price} {node : Addr}
    (h : book.getOrdersAtPrice price = some node) :
    book.removeOrdersAtPrice .kBid price =
      (if containers.tree.count (book.before (· > ·)) book.bidsAtPriceMap node ≠ 0 then
        { book with
          bidsAtPriceMap := containers.tree.erase (book.before (· > ·)) book.bidsAtPriceMap node }
      else book).release price node := by
  simp only [removeOrdersAtPrice, h, reduceCtorEq, false_and, if_false, true_and]
  rfl

theorem removeOrdersAtPrice_ask {price : Price} {node : Addr}
    (h : book.getOrdersAtPrice price = some node) :
    book.removeOrdersAtPrice .kAsk price =
      (if containers.tree.count (book.before (· < ·)) book.asksAtPriceMap node ≠ 0 then
        { book with
          asksAtPriceMap := containers.tree.erase (book.before (· < ·)) book.asksAtPriceMap node }
      else book).release price node := by
  simp only [removeOrdersAtPrice, h, reduceCtorEq, false_and, if_false, true_and]
  rfl

/-- The pool does not run out when the order needs a block. -/
def HasRoom (book : MarketOrderBook containers) (order : MarketOrder) : Prop :=
  book.getOrdersAtPrice order.price = none →
    (book.ordersAtPricePool.allocate ⟨order.side, order.price, order⟩).isOk

/-- The block of a new level. -/
theorem HasRoom.exists_allocated {order : MarketOrder} (hroom : book.HasRoom order)
    (hnone : book.getOrdersAtPrice order.price = none) :
    ∃ node pool, book.ordersAtPricePool.allocate ⟨order.side, order.price, order⟩ =
        .ok (node, pool) ∧
      ¬ book.ordersAtPricePool.InUse node ∧
      pool.deref = Function.update book.ordersAtPricePool.deref node
        ⟨order.side, order.price, order⟩ ∧
      (∀ other, pool.InUse other ↔ other = node ∨ book.ordersAtPricePool.InUse other) ∧
      pool.deref node = ⟨order.side, order.price, order⟩ := by
  obtain ⟨⟨node, pool⟩, hallocate⟩ : ∃ result, book.ordersAtPricePool.allocate
      ⟨order.side, order.price, order⟩ = .ok result := by
    have hok := hroom hnone
    cases hresult : book.ordersAtPricePool.allocate ⟨order.side, order.price, order⟩ with
    | ok result => exact ⟨result, rfl⟩
    | error abort => simp [hresult, Except.isOk, Except.toBool] at hok
  obtain ⟨hfresh, hderef, hinUse⟩ := MemPool.allocate_eq_ok hallocate
  have hself : pool.deref node = ⟨order.side, order.price, order⟩ := by
    rw [hderef, Function.update_self]
  exact ⟨node, pool, hallocate, hfresh, hderef, hinUse, hself⟩

namespace Holds

variable {levels : Levels}

/-- Overwriting the level of a price in its block. -/
theorem level_overwrite (h : book.Holds levels) {order : MarketOrder} {node : Addr}
    (hfound : book.getOrdersAtPrice order.price = some node) :
    (book.ordersAtPricePool.modify node (·.overwrite order)).deref =
      Function.update book.level node ((book.level node).overwrite order) :=
  MemPool.deref_modify ((h.inUse node).mpr (h.indexes.join_eq_some_iff.mp hfound).1) _

/-- The map after a price was inserted that it did not know. -/
theorem find_emplaceUnique (h : book.Holds levels) {price : Price}
    (hnone : book.getOrdersAtPrice price = none) (node : Addr) :
    containers.map.find
        (containers.map.emplaceUnique book.priceOrdersAtPrice price (some node)) =
      Function.update book.find price (some (some node)) :=
  containers.map.find_emplaceUnique _ _ _ (h.indexes.join_eq_none_iff.mp hnone)

theorem addOrder_bid (h : book.Holds levels) {order : MarketOrder} (hside : order.side = .kBid)
    (hqty : order.qty ≠ 0) (hzero : levels.asks order.price = 0) (hroom : book.HasRoom order) :
    (book.addOrder order).Holds
      { levels with bids := Function.update levels.bids order.price order.qty } := by
  cases hfound : book.getOrdersAtPrice order.price with
  | some node =>
      rw [addOrder_of_found hfound]
      exact Shares.overwrite h hfound hzero hqty (h.level_overwrite hfound)
        (MemPool.inUse_modify node _)
  | none =>
      obtain ⟨node, pool, hallocate, hfresh, hderef, hinUse, hself⟩ :=
        hroom.exists_allocated hfound
      rw [addOrder_of_allocated hfound hallocate,
        addOrdersAtPrice_bid (by rw [level, hself, hside])]
      refine Shares.place h hside hfound hqty hfresh hderef hinUse ?_ ?_
      · rw [← h.find_emplaceUnique hfound,
          ← show (pool.deref node).price = order.price by rw [hself]]
        rfl
      · refine containers.tree.toList_insertEqual (byPrice pool.deref (· > ·)) _ node ?_
        rw [hderef]
        exact Shares.pairwise_not_before h hfresh _

theorem addOrder_ask (h : book.Holds levels) {order : MarketOrder} (hside : order.side = .kAsk)
    (hqty : order.qty ≠ 0) (hzero : levels.bids order.price = 0) (hroom : book.HasRoom order) :
    (book.addOrder order).Holds
      { levels with asks := Function.update levels.asks order.price order.qty } := by
  apply Shares.swap
  cases hfound : book.getOrdersAtPrice order.price with
  | some node =>
      rw [addOrder_of_found hfound]
      exact (Shares.swap h).overwrite hfound hzero hqty (h.level_overwrite hfound)
        (MemPool.inUse_modify node _)
  | none =>
      obtain ⟨node, pool, hallocate, hfresh, hderef, hinUse, hself⟩ :=
        hroom.exists_allocated hfound
      rw [addOrder_of_allocated hfound hallocate,
        addOrdersAtPrice_ask (by rw [level, hself, hside])]
      refine (Shares.swap h).place hside hfound hqty hfresh hderef hinUse ?_ ?_
      · rw [← h.find_emplaceUnique hfound,
          ← show (pool.deref node).price = order.price by rw [hself]]
        rfl
      · refine containers.tree.toList_insertEqual (byPrice pool.deref (· < ·)) _ node ?_
        rw [hderef]
        exact (Shares.swap h).pairwise_not_before hfresh _

/-- The map after a price was erased from it. -/
theorem find_release (h : book.Holds levels) {price : Price} {node : Addr}
    (hfound : book.getOrdersAtPrice price = some node) :
    (book.release price node).find = Function.update book.find price none := by
  have hmapped := (h.indexes.mapped price node).mpr (h.indexes.join_eq_some_iff.mp hfound)
  exact BookSide.find_erase_assign (by rw [← find, hmapped]; simp)

theorem removeOrdersAtPrice_bid (h : book.Holds levels) {price : Price}
    (hzero : levels.asks price = 0) :
    (book.removeOrdersAtPrice .kBid price).Holds
      { levels with bids := Function.update levels.bids price 0 } := by
  cases hfound : book.getOrdersAtPrice price with
  | none =>
      rw [removeOrdersAtPrice_of_none hfound, ← Shares.values_eq_zero h hfound,
        Function.update_eq_self]
      exact h
  | some node =>
      have hcount : containers.tree.count (book.before (· > ·)) book.bidsAtPriceMap node ≠ 0 :=
        count_ne_zero (Shares.owned h) (Shares.mem_own h hfound hzero).1
      rw [MarketOrderBook.removeOrdersAtPrice_bid hfound, if_pos hcount]
      exact Shares.remove h hfound hzero (MemPool.deref_deallocated node)
        (MemPool.inUse_deallocated node) (h.find_release hfound)
        (containers.tree.toList_erase (book.before (· > ·)) _ node
          (Shares.owned h).pairwise_not_before)

theorem removeOrdersAtPrice_ask (h : book.Holds levels) {price : Price}
    (hzero : levels.bids price = 0) :
    (book.removeOrdersAtPrice .kAsk price).Holds
      { levels with asks := Function.update levels.asks price 0 } := by
  apply Shares.swap
  cases hfound : book.getOrdersAtPrice price with
  | none =>
      rw [removeOrdersAtPrice_of_none hfound, ← (Shares.swap h).values_eq_zero hfound,
        Function.update_eq_self]
      exact Shares.swap h
  | some node =>
      have hcount : containers.tree.count (book.before (· < ·)) book.asksAtPriceMap node ≠ 0 :=
        count_ne_zero (Shares.opposed h) ((Shares.swap h).mem_own hfound hzero).1
      rw [MarketOrderBook.removeOrdersAtPrice_ask hfound, if_pos hcount]
      exact (Shares.swap h).remove hfound hzero (MemPool.deref_deallocated node)
        (MemPool.inUse_deallocated node) (h.find_release hfound)
        (containers.tree.toList_erase (book.before (· < ·)) _ node
          (Shares.opposed h).pairwise_not_before)

end Holds

end MarketOrderBook

/-! ## The fold of the updates -/

/-- The order `OnMarketUpdate` makes of an update. -/
def orderOf (marketUpdate : MEMarketUpdate) : MarketOrder :=
  ⟨kOrderIdInvalid, marketUpdate.side, marketUpdate.price, marketUpdate.qty⟩

/-- An update of a level that names the bids or the asks. -/
def IsLevel (marketUpdate : MEMarketUpdate) : Prop :=
  marketUpdate.type = .default ∧ (marketUpdate.side = .kBid ∨ marketUpdate.side = .kAsk)

instance : DecidablePred IsLevel := fun _ => inferInstanceAs (Decidable (_ ∧ _))

namespace Levels

/-- The quantities after an update: a clear deletes all of them, any other update
writes one. -/
def onUpdate (levels : Levels) (marketUpdate : MEMarketUpdate) : Levels :=
  if marketUpdate.type = .clear then empty
  else
    { bids := if marketUpdate.side = .kBid then
        Function.update levels.bids marketUpdate.price marketUpdate.qty else levels.bids
      asks := if marketUpdate.side = .kAsk then
        Function.update levels.asks marketUpdate.price marketUpdate.qty else levels.asks }

/-- The quantities after a run of updates from an empty book. -/
def ofUpdates (updates : List MEMarketUpdate) : Levels := updates.foldl onUpdate empty

theorem ofUpdates_concat (updates : List MEMarketUpdate) (marketUpdate : MEMarketUpdate) :
    ofUpdates (updates ++ [marketUpdate]) = (ofUpdates updates).onUpdate marketUpdate := by
  simp [ofUpdates]

/-- The quantity at the price of an update on the side it does not name. -/
def opposite (levels : Levels) (marketUpdate : MEMarketUpdate) : Qty :=
  if marketUpdate.side = .kBid then levels.asks marketUpdate.price
  else levels.bids marketUpdate.price

theorem onUpdate_bid (levels : Levels) {marketUpdate : MEMarketUpdate}
    (htype : marketUpdate.type = .default) (hside : marketUpdate.side = .kBid) :
    levels.onUpdate marketUpdate =
      { levels with bids := Function.update levels.bids marketUpdate.price marketUpdate.qty } := by
  simp [onUpdate, htype, hside]

theorem onUpdate_ask (levels : Levels) {marketUpdate : MEMarketUpdate}
    (htype : marketUpdate.type = .default) (hside : marketUpdate.side = .kAsk) :
    levels.onUpdate marketUpdate =
      { levels with asks := Function.update levels.asks marketUpdate.price marketUpdate.qty } := by
  simp [onUpdate, htype, hside]

end Levels

namespace MarketOrderBook

variable {containers : Containers} {book : MarketOrderBook containers} {levels : Levels}
  {marketUpdate : MEMarketUpdate}

theorem process_of_level (h : marketUpdate.type = .default) :
    (book.process marketUpdate).1 =
      if marketUpdate.qty ≠ 0 then book.addOrder (orderOf marketUpdate)
      else book.removeOrdersAtPrice marketUpdate.side marketUpdate.price := by
  simp only [process, h, reduceCtorEq, if_false]
  rfl

/-- The refresh of the cache leaves the containers alone. -/
theorem holds_updateBBO_iff (updateBid updateAsk : Bool) :
    (book.updateBBO updateBid updateAsk).Holds levels ↔ book.Holds levels := by
  cases updateBid <;> cases updateAsk <;> exact Iff.rfl

/-- An update at a price where the other side has no level is a write of its own
side. -/
theorem Holds.process (h : book.Holds levels) (hlevel : IsLevel marketUpdate)
    (hzero : levels.opposite marketUpdate = 0)
    (hroom : marketUpdate.qty ≠ 0 → book.HasRoom (orderOf marketUpdate)) :
    (book.process marketUpdate).1.Holds (levels.onUpdate marketUpdate) := by
  obtain ⟨htype, hside | hside⟩ := hlevel
  · rw [Levels.opposite, if_pos hside] at hzero
    rw [process_of_level htype, levels.onUpdate_bid htype hside]
    split
    · rename_i hqty
      exact h.addOrder_bid hside hqty hzero (hroom hqty)
    · rename_i hqty
      rw [hside, not_not.mp hqty]
      exact h.removeOrdersAtPrice_bid hzero
  · rw [Levels.opposite, if_neg (by rw [hside]; decide)] at hzero
    rw [process_of_level htype, levels.onUpdate_ask htype hside]
    split
    · rename_i hqty
      exact h.addOrder_ask hside hqty hzero (hroom hqty)
    · rename_i hqty
      rw [hside, not_not.mp hqty]
      exact h.removeOrdersAtPrice_ask hzero

/-! ## The containers in step -/

variable (book) in
/-- The price and quantity of each level among the nodes. -/
def levelsOf (nodes : List Addr) : List (Price × Qty) :=
  nodes.map fun node => ((book.level node).price, (book.level node).firstMktOrder.qty)

/-- The map holds exactly the nodes of the two trees, each of them in a block in
use, and the trees list the levels of the two sides. -/
structure InStep (book : MarketOrderBook containers) (levels : Levels) : Prop where
  mapped : ∀ price node, book.find price = some (some node) ↔
    node ∈ book.bidNodes ++ book.askNodes ∧ (book.level node).price = price
  nonnull : ∀ price, book.find price ≠ some none
  live : ∀ node ∈ book.bidNodes ++ book.askNodes, book.ordersAtPricePool.InUse node
  bids : ∀ price qty,
    (price, qty) ∈ book.levelsOf book.bidNodes ↔ levels.bids price = qty ∧ qty ≠ 0
  asks : ∀ price qty,
    (price, qty) ∈ book.levelsOf book.askNodes ↔ levels.asks price = qty ∧ qty ≠ 0
  bidsSorted : (book.levelsOf book.bidNodes).Pairwise fun first second => first.1 > second.1
  asksSorted : (book.levelsOf book.askNodes).Pairwise fun first second => first.1 < second.1

theorem inStep_updateBBO_iff (updateBid updateAsk : Bool) :
    (book.updateBBO updateBid updateAsk).InStep levels ↔ book.InStep levels := by
  cases updateBid <;> cases updateAsk <;> exact ⟨fun h => { h with }, fun h => { h with }⟩

theorem Holds.inStep (h : book.Holds levels) : book.InStep levels where
  mapped := h.indexes.mapped
  nonnull := h.indexes.nonnull
  live node hnode := (h.inUse node).mpr hnode
  bids _ _ := (Shares.owned h).mem_levels_iff
  asks _ _ := (Shares.opposed h).mem_levels_iff
  bidsSorted := List.pairwise_map.mpr (Shares.owned h).sorted
  asksSorted := List.pairwise_map.mpr (Shares.opposed h).sorted

/-- The block of a price at which a side has a level. -/
theorem Holds.found (h : book.Holds levels) {price : Price} {node : Addr}
    (hnode : node ∈ book.bidNodes ++ book.askNodes) (hprice : (book.level node).price = price) :
    book.getOrdersAtPrice price = some node :=
  h.indexes.join_eq_some_iff.mpr ⟨hnode, hprice⟩

/-- An order at a price of the other side overwrites the level there and adds
none to its own tree. -/
theorem Holds.price_ne_of_addOrder (h : book.Holds levels) {order : MarketOrder} {node : Addr}
    (hfound : book.getOrdersAtPrice order.price = some node) {other : Addr}
    (hother : (book.level other).price ≠ order.price) :
    ((book.addOrder order).level other).price ≠ order.price := by
  have hlevel : (book.addOrder order).level =
      Function.update book.level node ((book.level node).overwrite order) := by
    rw [addOrder_of_found hfound]
    exact h.level_overwrite hfound
  rwa [hlevel, price_update_overwrite]

theorem not_inUse_release (book : MarketOrderBook containers) (price : Price) (node : Addr) :
    ¬ (book.release price node).ordersAtPricePool.InUse node := by
  rw [release, MemPool.inUse_deallocated]
  simp

/-- An update at a price where the other side has a level. -/
theorem Holds.not_inStep_process (h : book.Holds levels) (hlevel : IsLevel marketUpdate)
    (hvalue : levels.opposite marketUpdate ≠ 0) :
    ¬ (book.process marketUpdate).1.InStep (levels.onUpdate marketUpdate) := by
  intro hinStep
  obtain ⟨htype, hside | hside⟩ := hlevel
  · rw [Levels.opposite, if_pos hside] at hvalue
    obtain ⟨node, hnode, hprice⟩ := (Shares.opposed h).complete _ hvalue
    have hfound := h.found (List.mem_append_right _ hnode) hprice
    rw [process_of_level htype, levels.onUpdate_bid htype hside] at hinStep
    split at hinStep
    · rename_i hqty
      have hmem := (hinStep.bids marketUpdate.price marketUpdate.qty).mpr (by simpa using hqty)
      obtain ⟨own, hown, heq⟩ := List.mem_map.mp hmem
      replace hfound : book.getOrdersAtPrice (orderOf marketUpdate).price = some node := hfound
      have htree : own ∈ book.bidNodes := by
        rwa [addOrder_of_found hfound] at hown
      exact h.price_ne_of_addOrder hfound
        (Shares.price_ne_of_opposed h (by decide) hvalue htree) (congrArg Prod.fst heq)
    · rw [hside, MarketOrderBook.removeOrdersAtPrice_bid hfound] at hinStep
      refine not_inUse_release _ _ node (hinStep.live node (List.mem_append_right _ ?_))
      split <;> exact hnode
  · rw [Levels.opposite, if_neg (by rw [hside]; decide)] at hvalue
    obtain ⟨node, hnode, hprice⟩ := (Shares.owned h).complete _ hvalue
    have hfound := h.found (List.mem_append_left _ hnode) hprice
    rw [process_of_level htype, levels.onUpdate_ask htype hside] at hinStep
    split at hinStep
    · rename_i hqty
      have hmem := (hinStep.asks marketUpdate.price marketUpdate.qty).mpr (by simpa using hqty)
      obtain ⟨own, hown, heq⟩ := List.mem_map.mp hmem
      replace hfound : book.getOrdersAtPrice (orderOf marketUpdate).price = some node := hfound
      have htree : own ∈ book.askNodes := by
        rwa [addOrder_of_found hfound] at hown
      exact h.price_ne_of_addOrder hfound
        ((Shares.swap h).price_ne_of_opposed (by decide) hvalue htree) (congrArg Prod.fst heq)
    · rw [hside, MarketOrderBook.removeOrdersAtPrice_ask hfound] at hinStep
      refine not_inUse_release _ _ node (hinStep.live node (List.mem_append_left _ ?_))
      split <;> exact hnode

/-! ## Runs -/

/-- `OnMarketUpdate` of a level ends with the refresh of the cache. -/
theorem run_concat_of_level (updates : List MEMarketUpdate) (h : marketUpdate.type = .default) :
    ∃ updateBid updateAsk, (machine containers).run (updates ++ [marketUpdate]) =
      (((machine containers).run updates).process marketUpdate).1.updateBBO updateBid
        updateAsk := by
  rw [Machine.run_concat]
  generalize (machine containers).run updates = book
  rcases hprocess : book.process marketUpdate with ⟨next, _ | ⟨updateBid, updateAsk⟩⟩
  · simp [process, h] at hprocess
  · refine ⟨updateBid, updateAsk, ?_⟩
    simp only [machine, onMarketUpdate, hprocess]

/-- The pool does not run out in the run. -/
def PoolLasts (containers : Containers) (updates : List MEMarketUpdate) : Prop :=
  EveryStep (fun before marketUpdate => marketUpdate.qty ≠ 0 →
    ((machine containers).run before).HasRoom (orderOf marketUpdate)) updates

/-- A run with fewer updates than blocks does not use up the pool. -/
theorem poolLasts_of_length {updates : List MEMarketUpdate}
    (h : updates.length < maxOrdersAtPrice) : PoolLasts containers updates := by
  rintro before marketUpdate after rfl _ _
  rw [List.length_append, List.length_cons] at h
  obtain ⟨node, pool, hallocate, -⟩ :=
    (ready_run containers (show before.length < maxOrdersAtPrice by omega)).allocate (by omega)
      ⟨(orderOf marketUpdate).side, (orderOf marketUpdate).price, orderOf marketUpdate⟩
  rw [hallocate]
  rfl

/-- No update names a price at which the other side has a level. -/
def Separated (updates : List MEMarketUpdate) : Prop :=
  EveryStep (fun before marketUpdate =>
    (Levels.ofUpdates before).opposite marketUpdate = 0) updates

instance (updates : List MEMarketUpdate) : Decidable (Separated updates) :=
  inferInstanceAs (Decidable (EveryStep _ _))

theorem holds_run {updates : List MEMarketUpdate}
    (hlevels : ∀ marketUpdate ∈ updates, IsLevel marketUpdate)
    (hlasts : PoolLasts containers updates) (hseparated : Separated updates) :
    ((machine containers).run updates).Holds (Levels.ofUpdates updates) := by
  induction updates using List.reverseRecOn with
  | nil => exact holds_new
  | append_singleton updates marketUpdate ih =>
      obtain ⟨hearlier, hroom⟩ := EveryStep.concat_iff.mp hlasts
      obtain ⟨hseparated, hzero⟩ := EveryStep.concat_iff.mp hseparated
      have hlevel := hlevels marketUpdate (by simp)
      have hbefore := ih (fun earlier hmem => hlevels earlier (by simp [hmem])) hearlier hseparated
      obtain ⟨updateBid, updateAsk, hstep⟩ := run_concat_of_level updates hlevel.1
      rw [hstep, holds_updateBBO_iff, Levels.ofUpdates_concat]
      exact hbefore.process hlevel hzero hroom

/-- The first update at a price of the other side breaks the containers. -/
theorem not_inStep_run {updates : List MEMarketUpdate}
    (hlevels : ∀ marketUpdate ∈ updates, IsLevel marketUpdate)
    (hlasts : PoolLasts containers updates) (hseparated : Separated updates)
    (hlevel : IsLevel marketUpdate)
    (hvalue : (Levels.ofUpdates updates).opposite marketUpdate ≠ 0) :
    ¬ ((machine containers).run (updates ++ [marketUpdate])).InStep
      (Levels.ofUpdates (updates ++ [marketUpdate])) := by
  intro hafter
  obtain ⟨updateBid, updateAsk, hstep⟩ := run_concat_of_level updates hlevel.1
  rw [hstep, inStep_updateBBO_iff, Levels.ofUpdates_concat] at hafter
  exact (holds_run hlevels hlasts hseparated).not_inStep_process hlevel hvalue hafter

/-- The containers are in step after every update of a run exactly if no update
names a price at which the other side has a level. -/
theorem inStep_iff_separated (containers : Containers) (updates : List MEMarketUpdate)
    (hlevels : ∀ marketUpdate ∈ updates, IsLevel marketUpdate)
    (hlasts : PoolLasts containers updates) :
    (∀ before, before <+: updates →
        ((machine containers).run before).InStep (Levels.ofUpdates before)) ↔
      Separated updates := by
  constructor
  · intro hinStep
    induction updates using List.reverseRecOn with
    | nil => exact EveryStep.nil
    | append_singleton updates marketUpdate ih =>
        have hearlier : ∀ earlier ∈ updates, IsLevel earlier :=
          fun earlier hmem => hlevels earlier (by simp [hmem])
        have hlastsEarlier := (EveryStep.concat_iff.mp hlasts).1
        have hseparated := ih hearlier hlastsEarlier fun before hbefore =>
          hinStep before (hbefore.trans (List.prefix_append _ _))
        refine EveryStep.concat_iff.mpr ⟨hseparated, ?_⟩
        by_contra hvalue
        exact not_inStep_run hearlier hlastsEarlier hseparated (hlevels marketUpdate (by simp))
          hvalue (hinStep _ List.prefix_rfl)
  · rintro hseparated before ⟨after, rfl⟩
    refine (holds_run (fun earlier hmem => hlevels earlier (by simp [hmem])) ?_ ?_).inStep
    · exact EveryStep.left hlasts
    · exact EveryStep.left hseparated

/-- A price that moves from the bids to the asks, after its bid was removed. -/
def movedLevel : List MEMarketUpdate :=
  [{ side := .kBid, price := 100, qty := 1 },
    { side := .kBid, price := 99, qty := 4 },
    { side := .kBid, price := 100, qty := 0 },
    { side := .kAsk, price := 100, qty := 2 },
    { side := .kAsk, price := 100, qty := 3 }]

theorem inStep_movedLevel :
    (∀ marketUpdate ∈ movedLevel, IsLevel marketUpdate) ∧ PoolLasts .lists movedLevel ∧
      ∀ before, before <+: movedLevel →
        ((machine .lists).run before).InStep (Levels.ofUpdates before) := by
  have hlevels : ∀ marketUpdate ∈ movedLevel, IsLevel marketUpdate := by decide
  have hlasts : PoolLasts .lists movedLevel := poolLasts_of_length (by decide)
  exact ⟨hlevels, hlasts,
    (inStep_iff_separated .lists movedLevel hlevels hlasts).mpr (by decide)⟩

/-- An ask at the price of a bid. -/
def crossedLevel : List MEMarketUpdate :=
  [{ side := .kBid, price := 100, qty := 1 }, { side := .kAsk, price := 100, qty := 2 }]

theorem not_inStep_crossedLevel :
    (∀ marketUpdate ∈ crossedLevel, IsLevel marketUpdate) ∧ PoolLasts .lists crossedLevel ∧
      ¬ ((machine .lists).run crossedLevel).InStep (Levels.ofUpdates crossedLevel) := by
  refine ⟨by decide, poolLasts_of_length (by decide), ?_⟩
  have hbid : ∀ marketUpdate ∈ crossedLevel.take 1, IsLevel marketUpdate := by decide
  have hask : IsLevel { side := .kAsk, price := 100, qty := 2 } := by decide
  have hsplit : crossedLevel =
      crossedLevel.take 1 ++ [{ side := .kAsk, price := 100, qty := 2 }] := rfl
  rw [hsplit]
  exact not_inStep_run hbid (poolLasts_of_length (by decide)) (by decide) hask (by decide)

end MarketOrderBook

end CryptoBot.Book

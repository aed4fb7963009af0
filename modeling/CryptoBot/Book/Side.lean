/-
# One side of the order book

A price level is a `MarketOrdersAtPrice` block of the side's pool.  The level is
reachable in two ways: through a hash map from price to block, and through an
intrusive tree that enumerates the blocks from the best price on.  Adding,
overwriting, removing and clearing levels touch the three containers one after
the other, and nothing in the containers themselves keeps them in step: the map
and the tree both accept a second level of a price without complaint.

`Represents` is the invariant that ties them together and says which function
from prices to quantities the side stands for.  Each operation is then an update
of that function.  Two halves of it know nothing of the containers: `Enumerates`
says what a tree lists and `Indexes` where a map leads.
-/

import CryptoBot.Common.Types
import CryptoBot.Common.MemoryPool
import CryptoBot.Math.Ladder

namespace CryptoBot.Book

open CryptoBot.Common CryptoBot.Math

structure MarketOrder where
  orderId : OrderId := kOrderIdInvalid
  side : Side := .kInvalid
  price : Price := kPriceInvalid
  qty : Qty := kQtyInvalid
  deriving DecidableEq, Repr

structure MarketOrdersAtPrice where
  side : Side := .kInvalid
  price : Price := kPriceInvalid
  firstMktOrder : MarketOrder := {}
  deriving DecidableEq, Repr

instance : Inhabited MarketOrdersAtPrice := ⟨{}⟩

/-- Overwrite the order of a level in place; its side stays. -/
def MarketOrdersAtPrice.overwrite (ordersAtPrice : MarketOrdersAtPrice) (order : MarketOrder) :
    MarketOrdersAtPrice :=
  { ordersAtPrice with
    firstMktOrder := { ordersAtPrice.firstMktOrder with
      orderId := order.orderId
      price := order.price
      qty := order.qty } }

/-- The address of a level's block. -/
abbrev Addr := Nat

/-- Implementations of `emhash7::HashMap`, `boost::intrusive::avltree` and
`boost::pool`, the last one of unlimited capacity. -/
structure Containers where
  map : KeyedMap Price (Option Addr)
  tree : OrderedTree Addr
  chunks : ChunkPool Addr
  unlimited : chunks.Unlimited

/-- The list implementations. -/
def Containers.lists : Containers where
  map := .alist Price (Option Addr)
  tree := .list Addr
  chunks := .counter
  unlimited := ChunkPool.unlimited_counter

/-- `ME_MAX_ORDERS_AT_PRICE`. -/
def maxOrdersAtPrice : Nat := 50000 * 2

/-! ## Enumerations and indexes -/

/-- The order of nodes by the prices of their levels. -/
def byPrice (level : Addr → MarketOrdersAtPrice) (r : Price → Price → Prop) : Addr → Addr → Prop :=
  Order.Preimage (fun node => (level node).price) r

instance (level : Addr → MarketOrdersAtPrice) (r : Price → Price → Prop) [DecidableRel r] :
    DecidableRel (byPrice level r) :=
  fun _ _ => inferInstanceAs (Decidable (r _ _))

/-- The price of a block never changes, so neither does the comparison. -/
theorem price_update_overwrite (level : Addr → MarketOrdersAtPrice) (node other : Addr)
    (order : MarketOrder) :
    (Function.update level node ((level node).overwrite order) other).price =
      (level other).price := by
  by_cases hother : other = node
  · subst hother
    simp [MarketOrdersAtPrice.overwrite]
  · rw [Function.update_of_ne hother]

/-- The nodes come strictly in the order `r` of their prices, each holds a level
of this side, and their quantities are the nonzero ones of `values`. -/
structure Enumerates (level : Addr → MarketOrdersAtPrice) (nodes : List Addr)
    (r : Price → Price → Prop) (side : Side) (values : Price → Qty) : Prop where
  sorted : nodes.Pairwise (byPrice level r)
  sides : ∀ node ∈ nodes, (level node).side = side ∧ (level node).firstMktOrder.side = side
  prices : ∀ node ∈ nodes, (level node).firstMktOrder.price = (level node).price
  quantities : ∀ node ∈ nodes, (level node).firstMktOrder.qty = values (level node).price ∧
    values (level node).price ≠ 0
  complete : ∀ price, values price ≠ 0 → ∃ node ∈ nodes, (level node).price = price

namespace Enumerates

variable {level after : Addr → MarketOrdersAtPrice} {nodes : List Addr}
  {r : Price → Price → Prop} {side : Side} {values : Price → Qty}

theorem nil : Enumerates level [] r side fun _ => 0 := by
  constructor <;> simp

/-- Only the levels of the nodes matter. -/
theorem congr (h : Enumerates level nodes r side values)
    (hkept : ∀ node ∈ nodes, after node = level node) : Enumerates after nodes r side values where
  sorted := by
    apply h.sorted.imp_of_mem
    intro first second hfirst hsecond hlt
    simpa only [byPrice, Order.Preimage, hkept first hfirst, hkept second hsecond] using hlt
  sides node hnode := by
    rw [hkept node hnode]
    exact h.sides node hnode
  prices node hnode := by
    rw [hkept node hnode]
    exact h.prices node hnode
  quantities node hnode := by
    rw [hkept node hnode]
    exact h.quantities node hnode
  complete price hvalue := by
    obtain ⟨node, hnode, rfl⟩ := h.complete price hvalue
    exact ⟨node, hnode, by rw [hkept node hnode]⟩

/-- A price without a quantity has no node. -/
theorem price_ne (h : Enumerates level nodes r side values) {price : Price}
    (hzero : values price = 0) {node : Addr} (hnode : node ∈ nodes) :
    (level node).price ≠ price := by
  rintro rfl
  exact (h.quantities node hnode).2 hzero

/-- The levels of the nodes are exactly the nonzero quantities. -/
theorem mem_levels_iff (h : Enumerates level nodes r side values) {price : Price} {qty : Qty} :
    (price, qty) ∈ nodes.map (fun node => ((level node).price, (level node).firstMktOrder.qty)) ↔
      values price = qty ∧ qty ≠ 0 := by
  simp only [List.mem_map, Prod.mk.injEq]
  constructor
  · rintro ⟨node, hnode, rfl, rfl⟩
    obtain ⟨hqty, hne⟩ := h.quantities node hnode
    exact ⟨hqty.symm, by rwa [hqty]⟩
  · rintro ⟨rfl, hne⟩
    obtain ⟨node, hnode, rfl⟩ := h.complete price hne
    exact ⟨node, hnode, rfl, (h.quantities node hnode).1⟩

/-- What every operation on one price has in common.  The levels of other prices
stay as they are; the level of the price, if its quantity is not zero, is in the
block `placed`. -/
theorem write (h : Enumerates level nodes r side values) {nodes' : List Addr} {price : Price}
    {qty : Qty} (placed : Option Addr) (hqty : placed = none ↔ qty = 0)
    (hsorted : nodes'.Pairwise (byPrice after r))
    (hmem : ∀ node, node ∈ nodes' ↔
      placed = some node ∨ (node ∈ nodes ∧ (level node).price ≠ price))
    (hkept : ∀ node ∈ nodes, (level node).price ≠ price → after node = level node)
    (hplaced : ∀ node, placed = some node →
      (after node).side = side ∧ (after node).price = price ∧
        (after node).firstMktOrder.side = side ∧ (after node).firstMktOrder.price = price ∧
        (after node).firstMktOrder.qty = qty) :
    Enumerates after nodes' r side (Function.update values price qty) where
  sorted := hsorted
  sides node hnode := by
    rcases (hmem node).mp hnode with hnode | ⟨hnode, hdistinct⟩
    · exact ⟨(hplaced node hnode).1, (hplaced node hnode).2.2.1⟩
    · rw [hkept node hnode hdistinct]
      exact h.sides node hnode
  prices node hnode := by
    rcases (hmem node).mp hnode with hnode | ⟨hnode, hdistinct⟩
    · obtain ⟨-, hprice, -, hfirst, -⟩ := hplaced node hnode
      exact hfirst.trans hprice.symm
    · rw [hkept node hnode hdistinct]
      exact h.prices node hnode
  quantities node hnode := by
    rcases (hmem node).mp hnode with hnode | ⟨hnode, hdistinct⟩
    · obtain ⟨-, hprice, -, -, hvalue⟩ := hplaced node hnode
      rw [hprice, hvalue, Function.update_self]
      exact ⟨rfl, fun hzero => by simp [hqty.mpr hzero] at hnode⟩
    · rw [hkept node hnode hdistinct, Function.update_of_ne hdistinct]
      exact h.quantities node hnode
  complete other hvalue := by
    by_cases hprice : other = price
    · subst hprice
      rw [Function.update_self] at hvalue
      obtain ⟨node, hnode⟩ := Option.ne_none_iff_exists'.mp (mt hqty.mp hvalue)
      exact ⟨node, (hmem node).mpr (.inl hnode), (hplaced node hnode).2.1⟩
    · rw [Function.update_of_ne hprice] at hvalue
      obtain ⟨node, hnode, rfl⟩ := h.complete other hvalue
      exact ⟨node, (hmem node).mpr (.inr ⟨hnode, hprice⟩), by rw [hkept node hnode hprice]⟩

variable [IsStrictTotalOrder Price r]

instance (level : Addr → MarketOrdersAtPrice) : IsStrictWeakOrder Addr (byPrice level r) := by
  have hprice : IsStrictWeakOrder Price r := isStrictWeakOrder_of_isOrderConnected
  unfold byPrice
  infer_instance

/-- The laws of a tree apply. -/
theorem pairwise_not_before (h : Enumerates level nodes r side values) :
    nodes.Pairwise fun first second => ¬ byPrice level r second first :=
  pairwise_not_gt h.sorted

/-- Nodes of one price are the same. -/
theorem node_unique (h : Enumerates level nodes r side values) {first second : Addr}
    (hfirst : first ∈ nodes) (hsecond : second ∈ nodes)
    (hprice : (level first).price = (level second).price) : first = second := by
  have hprices : (nodes.map fun node => (level node).price).Nodup := by
    rw [List.Nodup, List.pairwise_map]
    apply h.sorted.imp
    intro earlier later hlt heq
    rw [byPrice, Order.Preimage, heq] at hlt
    exact irrefl_of r _ hlt
  exact List.inj_on_of_nodup_map hprices hfirst hsecond hprice

/-- The ladder the nodes list. -/
def ladder (h : Enumerates level nodes r side values) : Ladder r Qty where
  entries := nodes.map fun node => ((level node).price, (level node).firstMktOrder.qty)
  sorted := List.pairwise_map.mpr h.sorted
  nonzero _ hentry := (h.mem_levels_iff.mp hentry).2

theorem get_ladder (h : Enumerates level nodes r side values) : h.ladder.get = values := by
  funext price
  by_cases hzero : values price = 0
  · rw [hzero, Ladder.get_eq_zero_iff]
    intro qty hmem
    obtain ⟨hvalue, hne⟩ := h.mem_levels_iff.mp hmem
    exact hne (hvalue ▸ hzero)
  · exact h.ladder.get_of_mem (h.mem_levels_iff.mpr ⟨rfl, hzero⟩)

/-- Nodes that hold the values of a ladder list the ladder. -/
theorem levels_eq {ladder : Ladder r Qty} (h : Enumerates level nodes r side ladder.get) :
    nodes.map (fun node => ((level node).price, (level node).firstMktOrder.qty)) =
      ladder.entries :=
  congrArg Ladder.entries (Ladder.ext_get h.get_ladder)

/-- The first node holds the best entry of the ladder. -/
theorem best_eq {ladder : Ladder r Qty} (h : Enumerates level nodes r side ladder.get) :
    ladder.best =
      (nodes.head?.map level).map fun best => (best.price, best.firstMktOrder.qty) := by
  rw [Ladder.best, ← h.levels_eq, List.head?_map, Option.map_map]
  rfl

/-- Overwriting the order of a node is a write of its quantity. -/
theorem overwrite (h : Enumerates level nodes r side values) {node : Addr} {order : MarketOrder}
    (hnode : node ∈ nodes) (hprice : (level node).price = order.price) (hqty : order.qty ≠ 0) :
    Enumerates (Function.update level node ((level node).overwrite order)) nodes r side
      (Function.update values order.price order.qty) := by
  have hbefore : byPrice (Function.update level node ((level node).overwrite order)) r =
      byPrice level r := by
    funext first second
    simp only [byPrice, Order.Preimage, price_update_overwrite]
  refine h.write (some node) (by simp [hqty]) (by rw [hbefore]; exact h.sorted) ?_ ?_ ?_
  · intro other
    rw [Option.some.injEq]
    constructor
    · intro hother
      by_cases heq : (level other).price = order.price
      · exact .inl (h.node_unique hnode hother (hprice.trans heq.symm))
      · exact .inr ⟨hother, heq⟩
    · rintro (rfl | ⟨hother, -⟩)
      · exact hnode
      · exact hother
  · intro other hother hdistinct
    rw [Function.update_of_ne]
    rintro rfl
    exact hdistinct hprice
  · rintro _ ⟨⟩
    have hsides := h.sides node hnode
    simp [MarketOrdersAtPrice.overwrite, hsides, hprice]

variable [DecidableRel r]

/-- Inserting a new node at a price without one is a write of its quantity. -/
theorem insert (h : Enumerates level nodes r side values) {node : Addr} {order : MarketOrder}
    (hafter : after = Function.update level node ⟨order.side, order.price, order⟩)
    (hside : order.side = side) (hzero : values order.price = 0) (hqty : order.qty ≠ 0)
    (hnew : node ∉ nodes) :
    Enumerates after (nodes.orderedInsert (byPrice after r) node) r side
      (Function.update values order.price order.qty) := by
  have hself : after node = ⟨order.side, order.price, order⟩ := by
    rw [hafter, Function.update_self]
  have hold : ∀ other ∈ nodes, after other = level other := by
    intro other hother
    rw [hafter, Function.update_of_ne (ne_of_mem_of_not_mem hother hnew)]
  have hcomparable : ∀ other ∈ nodes,
      byPrice after r node other ∨ byPrice after r other node := by
    intro other hother
    simp only [byPrice, Order.Preimage, hself, hold other hother]
    rcases trichotomous_of r order.price (level other).price with hlt | heq | hgt
    · exact .inl hlt
    · exact (h.price_ne hzero hother heq.symm).elim
    · exact .inr hgt
  refine h.write (some node) (by simp [hqty])
    (pairwise_orderedInsert (h.congr hold).sorted hcomparable) ?_ ?_ ?_
  · intro other
    rw [List.mem_orderedInsert, Option.some.injEq, eq_comm]
    exact or_congr_right ⟨fun hother => ⟨hother, h.price_ne hzero hother⟩, And.left⟩
  · exact fun other hother _ => hold other hother
  · rintro _ ⟨⟩
    rw [hself]
    exact ⟨hside, rfl, hside, rfl, rfl⟩

/-- A tree counts the node it links. -/
theorem countP_ne_zero {node : Addr} (hnode : node ∈ nodes) :
    nodes.countP (fun other =>
      ¬ byPrice level r other node ∧ ¬ byPrice level r node other) ≠ 0 := by
  refine Nat.ne_of_gt (List.countP_pos_iff.mpr ⟨node, hnode, ?_⟩)
  simp [irrefl_of (byPrice level r) node]

/-- What a tree keeps when it erases the nodes equivalent to a given one. -/
theorem mem_erased_iff {node other : Addr} :
    other ∈ nodes.filter (fun other => byPrice level r other node ∨ byPrice level r node other) ↔
      other ∈ nodes ∧ (level other).price ≠ (level node).price := by
  rw [List.mem_filter, decide_eq_true_eq]
  refine and_congr_right fun _ => ⟨?_, fun hdistinct => ?_⟩
  · intro hbefore heq
    simp only [byPrice, Order.Preimage, heq, or_self] at hbefore
    exact irrefl_of r _ hbefore
  · rcases trichotomous_of r (level other).price (level node).price with hlt | heq | hgt
    · exact .inl hlt
    · exact (hdistinct heq).elim
    · exact .inr hgt

/-- Erasing a node is a write of zero to its price. -/
theorem erase (h : Enumerates level nodes r side values) (node : Addr)
    (hkept : ∀ other ∈ nodes, (level other).price ≠ (level node).price →
      after other = level other) :
    Enumerates after
      (nodes.filter (fun other => byPrice level r other node ∨ byPrice level r node other))
      r side (Function.update values (level node).price 0) := by
  refine h.write none (by simp) ?_ (fun other => ?_) hkept (by simp)
  · apply (h.sorted.filter _).imp_of_mem
    intro first second hfirst hsecond hlt
    obtain ⟨hfirstMem, hfirstPrice⟩ := mem_erased_iff.mp hfirst
    obtain ⟨hsecondMem, hsecondPrice⟩ := mem_erased_iff.mp hsecond
    simpa only [byPrice, Order.Preimage, hkept first hfirstMem hfirstPrice,
      hkept second hsecondMem hsecondPrice] using hlt
  · rw [mem_erased_iff]
    simp

end Enumerates

/-- A hash map leads from a price to the node of its level, and to nothing
else. -/
structure Indexes (find : Price → Option (Option Addr)) (level : Addr → MarketOrdersAtPrice)
    (nodes : List Addr) : Prop where
  mapped : ∀ price node, find price = some (some node) ↔
    node ∈ nodes ∧ (level node).price = price
  nonnull : ∀ price, find price ≠ some none

namespace Indexes

variable {find find' : Price → Option (Option Addr)} {level after : Addr → MarketOrdersAtPrice}
  {nodes nodes' : List Addr}

theorem nil : Indexes (fun _ => none) level [] := by
  constructor <;> simp

/-- Only the set of nodes and their prices matter. -/
theorem congr (h : Indexes find level nodes) (hmem : ∀ node, node ∈ nodes' ↔ node ∈ nodes)
    (hprices : ∀ node ∈ nodes, (after node).price = (level node).price) :
    Indexes find after nodes' := by
  refine ⟨fun price node => ?_, h.nonnull⟩
  rw [h.mapped, hmem]
  exact and_congr_right fun hnode => by rw [hprices node hnode]

theorem join_eq_some_iff (h : Indexes find level nodes) {price : Price} {node : Addr} :
    (find price).join = some node ↔ node ∈ nodes ∧ (level node).price = price := by
  rw [← h.mapped, Option.join_eq_some_iff]

theorem join_eq_none_iff (h : Indexes find level nodes) {price : Price} :
    (find price).join = none ↔ find price = none := by
  have hnull := h.nonnull price
  rcases hfind : find price with _ | _ | node
  · simp
  · exact (hnull hfind).elim
  · simp

/-- A price the map does not know has no node. -/
theorem price_ne (h : Indexes find level nodes) {price : Price} (hnone : (find price).join = none)
    {node : Addr} (hnode : node ∈ nodes) : (level node).price ≠ price := by
  intro hprice
  rw [h.join_eq_some_iff.mpr ⟨hnode, hprice⟩] at hnone
  cases hnone

/-- A write of one key, with the node of its price in the block `placed`. -/
theorem write (h : Indexes find level nodes) (price : Price) (placed : Option Addr)
    (hmem : ∀ node, node ∈ nodes' ↔
      placed = some node ∨ (node ∈ nodes ∧ (level node).price ≠ price))
    (hkept : ∀ node ∈ nodes, (level node).price ≠ price →
      (after node).price = (level node).price)
    (hplaced : ∀ node, placed = some node → (after node).price = price)
    (hfind : find' = Function.update find price (placed.map some)) :
    Indexes find' after nodes' where
  mapped other node := by
    rw [hfind, hmem]
    by_cases hprice : other = price
    · subst hprice
      rw [Function.update_self]
      constructor
      · intro heq
        have hnode : placed = some node := by simpa using heq
        exact ⟨.inl hnode, hplaced node hnode⟩
      · rintro ⟨hnode | ⟨hnode, hdistinct⟩, hequal⟩
        · rw [hnode, Option.map_some]
        · rw [hkept node hnode hdistinct] at hequal
          exact (hdistinct hequal).elim
    · rw [Function.update_of_ne hprice, h.mapped]
      constructor
      · rintro ⟨hnode, rfl⟩
        exact ⟨.inr ⟨hnode, hprice⟩, by rw [hkept node hnode hprice]⟩
      · rintro ⟨hnode | ⟨hnode, hdistinct⟩, rfl⟩
        · exact (hprice (hplaced node hnode)).elim
        · exact ⟨hnode, by rw [hkept node hnode hdistinct]⟩
  nonnull other := by
    rw [hfind]
    by_cases hprice : other = price
    · rw [hprice, Function.update_self]
      cases placed <;> simp
    · rw [Function.update_of_ne hprice]
      exact h.nonnull other

end Indexes

/-! ## The containers -/

/-- The containers of one side, such as `price_orders_at_price_bids_`,
`bids_at_price_map_` and `orders_at_price_pool_bids_`. -/
structure BookSide (containers : Containers) where
  priceOrdersAtPrice : containers.map.Carrier
  atPriceMap : containers.tree.Carrier
  ordersAtPricePool : MemoryPool containers.chunks MarketOrdersAtPrice

namespace BookSide

variable {containers : Containers}

def new (containers : Containers) : BookSide containers where
  priceOrdersAtPrice := containers.map.new
  atPriceMap := containers.tree.new
  ordersAtPricePool := .new containers.chunks MarketOrdersAtPrice maxOrdersAtPrice

section Operations

variable (bookSide : BookSide containers)

/-- The level a block holds. -/
def level (node : Addr) : MarketOrdersAtPrice := bookSide.ordersAtPricePool.deref node

/-- The blocks the tree enumerates. -/
def nodes : List Addr := containers.tree.toList bookSide.atPriceMap

/-- `*begin()`, if the tree is not empty. -/
def front : Option MarketOrdersAtPrice := bookSide.nodes.head?.map bookSide.level

/-- The price and quantity of each level the tree enumerates. -/
def levels : List (Price × Qty) :=
  bookSide.nodes.map fun node =>
    ((bookSide.level node).price, (bookSide.level node).firstMktOrder.qty)

/-- `at(price)` of the hash map, where a missing key yields the null pointer. -/
def getOrdersAtPrice (price : Price) : Option Addr :=
  (containers.map.find bookSide.priceOrdersAtPrice price).join

/-- The quantity the hash map leads to, zero for a price without a level. -/
def qtyAt (price : Price) : Qty :=
  match bookSide.getOrdersAtPrice price with
  | some node => (bookSide.level node).firstMktOrder.qty
  | none => 0

/-- Empty the tree, deallocate the blocks the map refers to, empty the map. -/
def clear : BookSide containers where
  priceOrdersAtPrice := containers.map.clear bookSide.priceOrdersAtPrice
  atPriceMap := containers.tree.clear bookSide.atPriceMap
  ordersAtPricePool := (containers.map.entries bookSide.priceOrdersAtPrice).foldl
    (fun pool orderAtPrice => pool.deallocate orderAtPrice.2) bookSide.ordersAtPricePool

/-- Overwrite the order of a level. -/
def overwrite (node : Addr) (order : MarketOrder) : BookSide containers :=
  { bookSide with
    ordersAtPricePool := bookSide.ordersAtPricePool.modify node (·.overwrite order) }

/-- Drop the map entry of a price and give its block back. -/
def release (price : Price) (orderAtPrice : Addr) : BookSide containers :=
  { bookSide with
    priceOrdersAtPrice := containers.map.erase
      (containers.map.assign bookSide.priceOrdersAtPrice price none) price
    ordersAtPricePool := bookSide.ordersAtPricePool.deallocate (some orderAtPrice) }

variable (r : Price → Price → Prop)

/-- The comparison of the tree: it reads the prices through the pointers. -/
def before : Addr → Addr → Prop := Order.Preimage (fun node => (bookSide.level node).price) r

variable [DecidableRel r]

instance : DecidableRel (bookSide.before r) :=
  fun _ _ => inferInstanceAs (Decidable (r _ _))

/-- Insert a block into the map and into the tree. -/
def link (node : Addr) : BookSide containers :=
  { bookSide with
    priceOrdersAtPrice := containers.map.emplaceUnique bookSide.priceOrdersAtPrice
      (bookSide.level node).price (some node)
    atPriceMap := containers.tree.insertEqual (bookSide.before r) bookSide.atPriceMap node }

/-- Erase a block from the tree, if the tree contains its price. -/
def unlink (orderAtPrice : Addr) : BookSide containers :=
  if containers.tree.count (bookSide.before r) bookSide.atPriceMap orderAtPrice ≠ 0 then
    { bookSide with
      atPriceMap := containers.tree.erase (bookSide.before r) bookSide.atPriceMap orderAtPrice }
  else bookSide

end Operations

/-- The map after `at(price) = nullptr` and `erase(price)`. -/
theorem find_erase_assign {map : containers.map.Carrier} {price : Price}
    (hpresent : containers.map.find map price ≠ none) :
    containers.map.find (containers.map.erase (containers.map.assign map price none) price) =
      Function.update (containers.map.find map) price none := by
  rw [containers.map.find_erase, containers.map.find_assign _ _ _ hpresent, Function.update_idem]

/-! ## The representation invariant -/

/-- The three containers agree and hold the levels of `values`: the tree
enumerates its blocks strictly in the order `r`, the map leads to exactly these
blocks, each block is a level of this side with a nonzero quantity, and they are
the live blocks of the pool. -/
structure Represents (bookSide : BookSide containers) (r : Price → Price → Prop) (side : Side)
    (values : Price → Qty) : Prop where
  sorted : bookSide.nodes.Pairwise (bookSide.before r)
  mapped : ∀ price node, containers.map.find bookSide.priceOrdersAtPrice price = some (some node) ↔
    node ∈ bookSide.nodes ∧ (bookSide.level node).price = price
  nonnull : ∀ price, containers.map.find bookSide.priceOrdersAtPrice price ≠ some none
  sides : ∀ node ∈ bookSide.nodes,
    (bookSide.level node).side = side ∧ (bookSide.level node).firstMktOrder.side = side
  prices : ∀ node ∈ bookSide.nodes,
    (bookSide.level node).firstMktOrder.price = (bookSide.level node).price
  quantities : ∀ node ∈ bookSide.nodes,
    (bookSide.level node).firstMktOrder.qty = values (bookSide.level node).price ∧
      values (bookSide.level node).price ≠ 0
  complete : ∀ price, values price ≠ 0 →
    ∃ node ∈ bookSide.nodes, (bookSide.level node).price = price
  live : ∀ node, node ∈ bookSide.ordersAtPricePool.live ↔ node ∈ bookSide.nodes
  valid : bookSide.ordersAtPricePool.Valid

theorem represents_new (r : Price → Price → Prop) (side : Side) :
    (new containers).Represents r side fun _ => 0 := by
  have hnodes : (new containers).nodes = [] := containers.tree.toList_new
  have hfind : containers.map.find (new containers).priceOrdersAtPrice = fun _ => none :=
    containers.map.find_new
  refine ⟨?_, ?_, ?_, ?_, ?_, ?_, ?_, ?_, MemoryPool.valid_new (by decide)⟩
  all_goals simp [hnodes, hfind]
  simp [new, MemoryPool.new]

namespace Represents

variable {bookSide : BookSide containers} {r : Price → Price → Prop} {side : Side}
  {values : Price → Qty}

theorem enumerates (h : bookSide.Represents r side values) :
    Enumerates bookSide.level bookSide.nodes r side values :=
  ⟨h.sorted, h.sides, h.prices, h.quantities, h.complete⟩

theorem indexes (h : bookSide.Represents r side values) :
    Indexes (containers.map.find bookSide.priceOrdersAtPrice) bookSide.level bookSide.nodes :=
  ⟨h.mapped, h.nonnull⟩

/-- The tree, the map and the pool, one after the other. -/
theorem of_parts
    (henumerates : Enumerates bookSide.level bookSide.nodes r side values)
    (hindexes : Indexes (containers.map.find bookSide.priceOrdersAtPrice) bookSide.level
      bookSide.nodes)
    (hlive : ∀ node, node ∈ bookSide.ordersAtPricePool.live ↔ node ∈ bookSide.nodes)
    (hvalid : bookSide.ordersAtPricePool.Valid) : bookSide.Represents r side values :=
  ⟨henumerates.sorted, hindexes.mapped, hindexes.nonnull, henumerates.sides, henumerates.prices,
    henumerates.quantities, henumerates.complete, hlive, hvalid⟩

theorem getOrdersAtPrice_eq_some_iff (h : bookSide.Represents r side values) {price : Price}
    {node : Addr} :
    bookSide.getOrdersAtPrice price = some node ↔
      node ∈ bookSide.nodes ∧ (bookSide.level node).price = price :=
  h.indexes.join_eq_some_iff

/-- A price without a level has quantity zero. -/
theorem values_eq_zero (h : bookSide.Represents r side values) {price : Price}
    (hnone : bookSide.getOrdersAtPrice price = none) : values price = 0 := by
  by_contra hvalue
  obtain ⟨node, hnode, hprice⟩ := h.complete price hvalue
  exact h.indexes.price_ne hnone hnode hprice

/-- The hash map leads to the represented quantities. -/
theorem qtyAt_eq (h : bookSide.Represents r side values) : bookSide.qtyAt = values := by
  funext price
  unfold qtyAt
  cases hfound : bookSide.getOrdersAtPrice price with
  | none => exact (h.values_eq_zero hfound).symm
  | some node =>
      obtain ⟨hnode, rfl⟩ := h.getOrdersAtPrice_eq_some_iff.mp hfound
      exact (h.quantities node hnode).1

/-- The tree enumerates exactly the nonzero quantities. -/
theorem mem_levels_iff (h : bookSide.Represents r side values) {price : Price} {qty : Qty} :
    (price, qty) ∈ bookSide.levels ↔ values price = qty ∧ qty ≠ 0 :=
  h.enumerates.mem_levels_iff

/-- Clearing deallocates every block once and leaves no level. -/
theorem clear (h : bookSide.Represents r side values) :
    bookSide.clear.Represents r side fun _ => 0 := by
  set entries := containers.map.entries bookSide.priceOrdersAtPrice
  have hnodes : bookSide.clear.nodes = [] := containers.tree.toList_clear _
  have hfind : containers.map.find bookSide.clear.priceOrdersAtPrice = fun _ => none :=
    containers.map.find_clear _
  have hentry : ∀ entry ∈ entries, ∃ node ∈ bookSide.nodes,
      entry.2 = some node ∧ (bookSide.level node).price = entry.1 := by
    rintro ⟨price, pointer⟩ hmem
    have hlookup := (containers.map.mem_entries _ _ _).mp hmem
    rcases pointer with _ | node
    · exact (h.nonnull price hlookup).elim
    · obtain ⟨hnode, hprice⟩ := (h.mapped price node).mp hlookup
      exact ⟨node, hnode, rfl, hprice⟩
  have hpointers : (entries.map Prod.snd).Nodup := by
    apply (containers.map.nodup_entries bookSide.priceOrdersAtPrice).of_map.map_on
    intro first hfirst second hsecond heq
    obtain ⟨node, -, hpointer, hprice⟩ := hentry first hfirst
    obtain ⟨other, -, hotherPointer, hotherPrice⟩ := hentry second hsecond
    rw [hpointer, hotherPointer, Option.some.injEq] at heq
    subst heq
    exact Prod.ext (hprice.symm.trans hotherPrice) (hpointer.trans hotherPointer.symm)
  have hfold : bookSide.clear.ordersAtPricePool =
      (entries.map Prod.snd).foldl MemoryPool.deallocate bookSide.ordersAtPricePool := by
    rw [List.foldl_map]
    rfl
  obtain ⟨hvalid, hlive⟩ := h.valid.deallocate_foldl hpointers (by
    intro pointer hpointer
    obtain ⟨entry, hmem, rfl⟩ := List.mem_map.mp hpointer
    obtain ⟨node, hnode, heq, -⟩ := hentry entry hmem
    exact ⟨node, (h.live node).mpr hnode, heq⟩)
  rw [← hfold] at hvalid hlive
  refine of_parts (hnodes ▸ Enumerates.nil) (hnodes ▸ hfind ▸ Indexes.nil) (fun node => ?_) hvalid
  rw [hlive, hnodes, h.live]
  refine iff_of_false ?_ List.not_mem_nil
  rintro ⟨hnode, hnotMem⟩
  have hmapped := (h.mapped _ node).mpr ⟨hnode, rfl⟩
  exact hnotMem (List.mem_map.mpr ⟨_, (containers.map.mem_entries _ _ _).mpr hmapped, rfl⟩)

variable [IsStrictTotalOrder Price r]

instance (bookSide : BookSide containers) : IsStrictWeakOrder Addr (bookSide.before r) :=
  inferInstanceAs (IsStrictWeakOrder Addr (byPrice bookSide.level r))

/-- The ladder a side enumerates. -/
def ladder (h : bookSide.Represents r side values) : Ladder r Qty where
  entries := bookSide.levels
  sorted := List.pairwise_map.mpr h.sorted
  nonzero _ hentry := (h.mem_levels_iff.mp hentry).2

theorem get_ladder (h : bookSide.Represents r side values) : h.ladder.get = values :=
  h.enumerates.get_ladder

/-- A side that represents the values of a ladder enumerates the ladder. -/
theorem levels_eq {ladder : Ladder r Qty} (h : bookSide.Represents r side ladder.get) :
    bookSide.levels = ladder.entries :=
  h.enumerates.levels_eq

/-- The enumeration and the represented quantities determine each other. -/
theorem levels_eq_iff (h : bookSide.Represents r side values) {other : BookSide containers}
    {otherValues : Price → Qty} (hother : other.Represents r side otherValues) :
    bookSide.levels = other.levels ↔ values = otherValues := by
  rw [← h.get_ladder, ← hother.get_ladder]
  constructor
  · intro hlevels
    exact congrArg Ladder.get (Ladder.ext hlevels)
  · intro hvalues
    exact congrArg Ladder.entries (Ladder.ext_get hvalues)

/-- The first level is the best entry of the ladder. -/
theorem best_eq {ladder : Ladder r Qty} (h : bookSide.Represents r side ladder.get) :
    ladder.best = bookSide.front.map fun level => (level.price, level.firstMktOrder.qty) :=
  h.enumerates.best_eq

/-- Overwriting the level of a price is a write of its quantity. -/
theorem overwrite (h : bookSide.Represents r side values) {node : Addr} {order : MarketOrder}
    (hfound : bookSide.getOrdersAtPrice order.price = some node) (hqty : order.qty ≠ 0) :
    (bookSide.overwrite node order).Represents r side
      (Function.update values order.price order.qty) := by
  obtain ⟨hnode, hprice⟩ := h.getOrdersAtPrice_eq_some_iff.mp hfound
  have hlevel : (bookSide.overwrite node order).level =
      Function.update bookSide.level node ((bookSide.level node).overwrite order) :=
    MemoryPool.deref_modify bookSide.ordersAtPricePool node (·.overwrite order)
  refine of_parts ?_ (h.indexes.congr (fun _ => Iff.rfl) fun other _ => ?_) h.live
    (h.valid.modify ((h.live node).mpr hnode) (·.overwrite order))
  · rw [hlevel]
    exact h.enumerates.overwrite hnode hprice hqty
  · rw [hlevel, price_update_overwrite]

variable [DecidableRel r]

/-- Constructing a level at a price without one and linking its block is a write
of its quantity. -/
theorem link (h : bookSide.Represents r side values) {order : MarketOrder} {node : Addr}
    {pool : MemoryPool containers.chunks MarketOrdersAtPrice} (hside : order.side = side)
    (hnone : bookSide.getOrdersAtPrice order.price = none) (hqty : order.qty ≠ 0)
    (hfresh : node ∉ bookSide.ordersAtPricePool.live)
    (hmemory : pool.memory = Function.update bookSide.ordersAtPricePool.memory node
      (.object ⟨order.side, order.price, order⟩))
    (hlive : pool.live = insert node bookSide.ordersAtPricePool.live) (hvalid : pool.Valid) :
    ({ bookSide with ordersAtPricePool := pool }.link r node).Represents r side
      (Function.update values order.price order.qty) := by
  set allocated : BookSide containers := { bookSide with ordersAtPricePool := pool }
  have hlevel : allocated.level =
      Function.update bookSide.level node ⟨order.side, order.price, order⟩ :=
    MemoryPool.deref_of_memory_eq hmemory
  have hself : (allocated.level node).price = order.price := by
    rw [hlevel, Function.update_self]
  have hnew : node ∉ bookSide.nodes := fun hmem => hfresh ((h.live node).mpr hmem)
  have hold : ∀ other ∈ bookSide.nodes, allocated.level other = bookSide.level other := by
    intro other hother
    rw [hlevel, Function.update_of_ne (ne_of_mem_of_not_mem hother hnew)]
  have hnodes : (allocated.link r node).nodes =
      bookSide.nodes.orderedInsert (allocated.before r) node :=
    containers.tree.toList_insertEqual (allocated.before r) _ node
      (h.enumerates.congr hold).pairwise_not_before
  have hmem : ∀ other, other ∈ (allocated.link r node).nodes ↔
      other = node ∨ other ∈ bookSide.nodes := by
    intro other
    rw [hnodes, List.mem_orderedInsert]
  refine of_parts ?_ (h.indexes.write order.price (some node) ?_ ?_ ?_ ?_) ?_ hvalid
  · rw [hnodes]
    exact h.enumerates.insert hlevel hside (h.values_eq_zero hnone) hqty hnew
  · intro other
    rw [hmem, Option.some.injEq, eq_comm]
    exact or_congr_right ⟨fun hother => ⟨hother, h.indexes.price_ne hnone hother⟩, And.left⟩
  · exact fun other hother _ => congrArg MarketOrdersAtPrice.price (hold other hother)
  · rintro _ ⟨⟩
    exact hself
  · have hmissing := h.indexes.join_eq_none_iff.mp hnone
    rw [← hself] at hmissing ⊢
    exact containers.map.find_emplaceUnique _ _ _ hmissing
  · intro other
    rw [hmem, show (allocated.link r node).ordersAtPricePool.live = pool.live from rfl, hlive,
      Finset.mem_insert, h.live]

/-- Removing the level of a price from the three containers is a write of zero. -/
theorem remove (h : bookSide.Represents r side values) {price : Price} {node : Addr}
    (hfound : bookSide.getOrdersAtPrice price = some node) :
    ((bookSide.unlink r node).release price node).Represents r side
      (Function.update values price 0) := by
  obtain ⟨hnode, rfl⟩ := h.getOrdersAtPrice_eq_some_iff.mp hfound
  set price := (bookSide.level node).price
  have hcount : containers.tree.count (bookSide.before r) bookSide.atPriceMap node ≠ 0 := by
    rw [containers.tree.count_eq (bookSide.before r) _ node h.enumerates.pairwise_not_before]
    exact Enumerates.countP_ne_zero hnode
  have hunlink : bookSide.unlink r node = { bookSide with
      atPriceMap := containers.tree.erase (bookSide.before r) bookSide.atPriceMap node } := by
    rw [unlink, if_pos hcount]
  rw [hunlink]
  set unlinked : BookSide containers := { bookSide with
    atPriceMap := containers.tree.erase (bookSide.before r) bookSide.atPriceMap node }
  have hnodes : (unlinked.release price node).nodes = bookSide.nodes.filter
      (fun other => bookSide.before r other node ∨ bookSide.before r node other) :=
    containers.tree.toList_erase (bookSide.before r) _ node h.enumerates.pairwise_not_before
  have hmem : ∀ other, other ∈ (unlinked.release price node).nodes ↔
      other ∈ bookSide.nodes ∧ (bookSide.level other).price ≠ price := by
    intro other
    rw [hnodes]
    exact Enumerates.mem_erased_iff
  have hkept : ∀ other ∈ bookSide.nodes, (bookSide.level other).price ≠ price →
      (unlinked.release price node).level other = bookSide.level other := by
    intro other _ hdistinct
    apply MemoryPool.deref_deallocate_of_ne
    rintro rfl
    exact hdistinct rfl
  refine of_parts ?_ (h.indexes.write price none ?_ ?_ (by simp) ?_) ?_
    (h.valid.deallocate ((h.live node).mpr hnode))
  · rw [hnodes]
    exact h.enumerates.erase node hkept
  · intro other
    rw [hmem]
    simp
  · exact fun other hother hdistinct =>
      congrArg MarketOrdersAtPrice.price (hkept other hother hdistinct)
  · have hpresent : containers.map.find bookSide.priceOrdersAtPrice price ≠ none := by
      rw [(h.mapped price node).mpr ⟨hnode, rfl⟩]
      simp
    exact find_erase_assign hpresent
  · intro other
    rw [hmem, show (unlinked.release price node).ordersAtPricePool.live =
      bookSide.ordersAtPricePool.live.erase node from rfl, Finset.mem_erase, h.live, and_comm]
    refine and_congr_right fun hother => not_congr ⟨?_, fun heq => ?_⟩
    · rintro rfl
      rfl
    · exact h.enumerates.node_unique hother hnode heq

end Represents

end BookSide

end CryptoBot.Book

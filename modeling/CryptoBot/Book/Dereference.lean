/-
# Reading the best level

The handlers of `MarketOrderBook2` read the first node of a tree in many places,
each behind a guard of its own.  Here they are written once more with a fault for
a read from an empty tree, in the order and behind the guards of the source, with
the arguments of the log calls.

The loops over snapshots and diffs and the refresh of the cache never fault.  The
handler of a single update does: it logs the current best price when the side
will be refreshed, and an empty side always is.
-/

import CryptoBot.Book.MarketOrderBook

namespace CryptoBot.Book

open CryptoBot.Common CryptoBot.MarketData CryptoBot.Math

/-- The tree whose end iterator was dereferenced. -/
inductive EmptyTree
  | bids | asks
  deriving DecidableEq, Repr

namespace BookSide

variable {containers : Containers} (bookSide : BookSide containers)

/-- `*begin()`. -/
def derefBegin (tree : EmptyTree) : Except EmptyTree MarketOrdersAtPrice :=
  match bookSide.front with
  | some best => .ok best
  | none => .error tree

/-- `price` compared with the price of `*begin()`, behind a test of `size()`. -/
def compareBest (tree : EmptyTree) (notBehind : Price → Price → Bool) (price : Price) :
    Except EmptyTree Bool :=
  if bookSide.nodes.length = 0 then .ok true
  else do
    let best ← bookSide.derefBegin tree
    return notBehind price best.price

/-- The price and the quantity of `*begin()`, behind a test of `size()`. -/
def quoteBest (tree : EmptyTree) : Except EmptyTree (Price × Qty) :=
  if bookSide.nodes.length ≠ 0 then do
    let price := (← bookSide.derefBegin tree).firstMktOrder.price
    let qty := (← bookSide.derefBegin tree).firstMktOrder.qty
    return (price, qty)
  else .ok (kPriceInvalid, kQtyInvalid)

end BookSide

namespace MarketOrderBook2

variable {containers : Containers} (book : MarketOrderBook2 containers)

/-! ## The handlers with their reads -/

def checkedUpdateBBO (updateBid updateAsk : Bool) :
    Except EmptyTree (MarketOrderBook2 containers) := do
  let book ←
    if updateBid then do
      let (bidPrice, bidQty) ← book.bids.quoteBest .bids
      pure { book with bbo := { book.bbo with bidPrice, bidQty } }
    else pure book
  if updateAsk then do
    let (askPrice, askQty) ← book.asks.quoteBest .asks
    pure { book with bbo := { book.bbo with askPrice, askQty } }
  else pure book

def checkedPublish (bidWillBeUpdated askWillBeUpdated : Bool) :
    Except EmptyTree (MarketOrderBook2 containers × List BBO) := do
  let book ← book.checkedUpdateBBO bidWillBeUpdated askWillBeUpdated
  return (book, if bidWillBeUpdated || askWillBeUpdated then [book.bbo] else [])

/-- `OnMarketUpdate(MEMarketUpdate2)`, with the arguments of its two log calls. -/
def checkedUpdate (marketUpdate : MEMarketUpdate2) :
    Except EmptyTree (MarketOrderBook2 containers × List BBO) := do
  let book := if marketUpdate.type = .clear then book.clearOrderBook else book
  let bidWillBeUpdated ←
    if marketUpdate.side = .kBid then
      book.bids.compareBest .bids (fun price best => price ≥ best) marketUpdate.price
    else pure false
  if bidWillBeUpdated then discard (book.bids.derefBegin .bids)
  let askWillBeUpdated ←
    if marketUpdate.side = .kAsk then
      book.asks.compareBest .asks (fun price best => price ≤ best) marketUpdate.price
    else pure false
  if askWillBeUpdated then discard (book.asks.derefBegin .asks)
  let book :=
    if marketUpdate.qty ≠ 0 then
      book.addOrder ⟨kOrderIdInvalid, marketUpdate.side, marketUpdate.price, marketUpdate.qty⟩
    else book.removeOrdersAtPrice marketUpdate.side marketUpdate.price
  book.checkedPublish bidWillBeUpdated askWillBeUpdated

/-- One iteration of the loops; a flag that is set is not computed again. -/
def checkedLevel (side : Side)
    (compareBest : MarketOrderBook2 containers → Price → Except EmptyTree Bool)
    (flagRemovals : Bool) (state : MarketOrderBook2 containers × Bool) (level : BookSnapshotElem) :
    Except EmptyTree (MarketOrderBook2 containers × Bool) := do
  let (book, willBeUpdated) := state
  let willBeUpdated ←
    if (flagRemovals || decide (level.qty > 0)) && !willBeUpdated then compareBest book level.price
    else pure willBeUpdated
  if level.qty > 0 then
    return (book.addOrder ⟨kOrderIdInvalid, side, level.price, level.qty⟩, willBeUpdated)
  else return (book.removeOrdersAtPrice side level.price, willBeUpdated)

/-- The two loops of a handler and its tail. -/
def checkedLevels (flagRemovals : Bool) (bids asks : List BookSnapshotElem) :
    Except EmptyTree (MarketOrderBook2 containers × List BBO) := do
  let (book, bidWillBeUpdated) ← bids.foldlM
    (checkedLevel .kBid (fun book => book.bids.compareBest .bids fun price best => price ≥ best)
      flagRemovals) (book, false)
  let (book, askWillBeUpdated) ← asks.foldlM
    (checkedLevel .kAsk (fun book => book.asks.compareBest .asks fun price best => price ≤ best)
      flagRemovals) (book, false)
  book.checkedPublish bidWillBeUpdated askWillBeUpdated

/-- The three handlers. -/
def checkedStep : BookMessage → Except EmptyTree (MarketOrderBook2 containers × List BBO)
  | .update marketUpdate => book.checkedUpdate marketUpdate
  | .snapshot none => .ok (book, [])
  | .snapshot (some marketSnapshot) =>
      book.clearOrderBook.checkedLevels false marketSnapshot.bids marketSnapshot.asks
  | .diff none => .ok (book, [])
  | .diff (some marketDiff) => book.checkedLevels true marketDiff.bids marketDiff.asks

end MarketOrderBook2

/-! ## Guards that hold -/

namespace BookSide

variable {containers : Containers} {bookSide : BookSide containers}

theorem front_eq_none_iff : bookSide.front = none ↔ bookSide.nodes = [] := by
  rw [front, Option.map_eq_none_iff, List.head?_eq_none_iff]

theorem length_ne_zero {best : MarketOrdersAtPrice} (h : bookSide.front = some best) :
    bookSide.nodes.length ≠ 0 := by
  rw [Ne, List.length_eq_zero_iff, ← front_eq_none_iff, h]
  simp

theorem derefBegin_of_front {best : MarketOrdersAtPrice} (h : bookSide.front = some best)
    (tree : EmptyTree) : bookSide.derefBegin tree = .ok best := by
  rw [derefBegin, h]

theorem derefBegin_of_nil (h : bookSide.nodes = []) (tree : EmptyTree) :
    bookSide.derefBegin tree = .error tree := by
  rw [derefBegin, front_eq_none_iff.mpr h]

/-- The test of the size guards the read. -/
theorem compareBest_eq (tree : EmptyTree) (notBehind : Price → Price → Bool) (price : Price) :
    bookSide.compareBest tree notBehind price =
      .ok (match bookSide.front with
        | none => true
        | some best => notBehind price best.price) := by
  rw [compareBest]
  cases hfront : bookSide.front with
  | none => rw [front_eq_none_iff.mp hfront, if_pos List.length_nil]
  | some best =>
      rw [if_neg (length_ne_zero hfront), derefBegin_of_front hfront]
      rfl

theorem quoteBest_eq (tree : EmptyTree) :
    bookSide.quoteBest tree = .ok (MarketOrderBook2.quote bookSide.front) := by
  rw [quoteBest]
  cases hfront : bookSide.front with
  | none =>
      rw [front_eq_none_iff.mp hfront, if_neg (by simp)]
      rfl
  | some best =>
      rw [if_pos (length_ne_zero hfront), derefBegin_of_front hfront]
      rfl

/-- The log call faults on an empty side, and only there: its flag is set then. -/
theorem logged_eq {α : Type} (tree : EmptyTree) {flag : Bool}
    (hflag : bookSide.nodes = [] → flag = true) (next : Except EmptyTree α) :
    (if flag = true then do
        discard (bookSide.derefBegin tree)
        next
      else next) =
      if bookSide.nodes = [] then .error tree else next := by
  by_cases hnil : bookSide.nodes = []
  · rw [if_pos (hflag hnil), derefBegin_of_nil hnil, if_pos hnil]
    rfl
  · obtain ⟨best, hfront⟩ := Option.ne_none_iff_exists'.mp (mt front_eq_none_iff.mp hnil)
    rw [derefBegin_of_front hfront, if_neg hnil]
    cases flag <;> rfl

end BookSide

namespace MarketOrderBook2

variable {containers : Containers} (book : MarketOrderBook2 containers)

/-- The refresh of the cache tests the size before it reads. -/
theorem checkedUpdateBBO_eq (updateBid updateAsk : Bool) :
    book.checkedUpdateBBO updateBid updateAsk = .ok (book.updateBBO updateBid updateAsk) := by
  cases updateBid <;> cases updateAsk <;>
    simp only [checkedUpdateBBO, BookSide.quoteBest_eq] <;> rfl

theorem checkedPublish_eq (bidWillBeUpdated askWillBeUpdated : Bool) :
    book.checkedPublish bidWillBeUpdated askWillBeUpdated =
      .ok (book.publish bidWillBeUpdated askWillBeUpdated) := by
  rw [checkedPublish, checkedUpdateBBO_eq]
  rfl

/-- A flag of the loops. -/
theorem checkedLevel_eq {side : Side} {touched : MarketOrderBook2 containers → Price → Bool}
    {compareBest : MarketOrderBook2 containers → Price → Except EmptyTree Bool}
    (h : ∀ book price, compareBest book price = .ok (touched book price)) (flagRemovals : Bool)
    (state : MarketOrderBook2 containers × Bool) (level : BookSnapshotElem) :
    checkedLevel side compareBest flagRemovals state level =
      .ok (processLevel side touched flagRemovals state level) := by
  obtain ⟨book, flag⟩ := state
  rw [checkedLevel, processLevel]
  cases flag <;> by_cases hqty : level.qty > 0 <;> cases flagRemovals <;> simp [h, hqty] <;> rfl

theorem foldlM_checkedLevel {side : Side} {touched : MarketOrderBook2 containers → Price → Bool}
    {compareBest : MarketOrderBook2 containers → Price → Except EmptyTree Bool}
    (h : ∀ book price, compareBest book price = .ok (touched book price)) (flagRemovals : Bool)
    (state : MarketOrderBook2 containers × Bool) (levels : List BookSnapshotElem) :
    levels.foldlM (checkedLevel side compareBest flagRemovals) state =
      .ok (levels.foldl (processLevel side touched flagRemovals) state) := by
  induction levels generalizing state with
  | nil => rfl
  | cons level levels ih =>
      rw [List.foldlM_cons, checkedLevel_eq h, List.foldl_cons]
      exact ih _

theorem compareBest_bid (price : Price) :
    book.bids.compareBest .bids (fun price best => price ≥ best) price =
      .ok (book.bidTouched price) :=
  BookSide.compareBest_eq ..

theorem compareBest_ask (price : Price) :
    book.asks.compareBest .asks (fun price best => price ≤ best) price =
      .ok (book.askTouched price) :=
  BookSide.compareBest_eq ..

/-- The loops never fault. -/
theorem checkedLevels_eq (flagRemovals : Bool) (bids asks : List BookSnapshotElem) :
    book.checkedLevels flagRemovals bids asks =
      .ok (book.processLevels flagRemovals bids asks) := by
  simp only [checkedLevels, foldlM_checkedLevel compareBest_bid,
    foldlM_checkedLevel compareBest_ask, checkedPublish_eq]
  rfl

end MarketOrderBook2

/-! ## The guard that does not hold -/

/-- The update names a side without levels, or it is a CLEAR. -/
def BookMessage.NamesEmptySide {containers : Containers} (book : MarketOrderBook2 containers) :
    BookMessage → Prop
  | .update marketUpdate =>
      marketUpdate.side = .kBid ∧ (marketUpdate.type = .clear ∨ book.bids.nodes = []) ∨
        marketUpdate.side = .kAsk ∧ (marketUpdate.type = .clear ∨ book.asks.nodes = [])
  | .snapshot _ => False
  | .diff _ => False

namespace MarketOrderBook2

variable {containers : Containers} (book : MarketOrderBook2 containers)

/-- The book an update is applied to. -/
def cleared (marketUpdate : MEMarketUpdate2) : MarketOrderBook2 containers :=
  if marketUpdate.type = .clear then book.clearOrderBook else book

/-- A side of the book an update is applied to, for a side that a CLEAR empties. -/
theorem nodes_cleared_eq_nil_iff (bookSide : MarketOrderBook2 containers → BookSide containers)
    (hclear : (bookSide book.clearOrderBook).nodes = []) (marketUpdate : MEMarketUpdate2) :
    (bookSide (book.cleared marketUpdate)).nodes = [] ↔
      marketUpdate.type = .clear ∨ (bookSide book).nodes = [] := by
  rw [cleared]
  split
  · rename_i htype
    exact iff_of_true hclear (.inl htype)
  · rename_i htype
    simp [htype]

theorem bids_cleared_eq_nil_iff (marketUpdate : MEMarketUpdate2) :
    (book.cleared marketUpdate).bids.nodes = [] ↔
      marketUpdate.type = .clear ∨ book.bids.nodes = [] :=
  book.nodes_cleared_eq_nil_iff (·.bids) (containers.tree.toList_clear _) marketUpdate

theorem asks_cleared_eq_nil_iff (marketUpdate : MEMarketUpdate2) :
    (book.cleared marketUpdate).asks.nodes = [] ↔
      marketUpdate.type = .clear ∨ book.asks.nodes = [] :=
  book.nodes_cleared_eq_nil_iff (·.asks) (containers.tree.toList_clear _) marketUpdate

theorem checkedUpdate_bid {marketUpdate : MEMarketUpdate2} (h : marketUpdate.side = .kBid) :
    book.checkedUpdate marketUpdate =
      if (book.cleared marketUpdate).bids.nodes = [] then .error .bids
      else .ok (book.onMarketUpdate marketUpdate) := by
  unfold checkedUpdate onMarketUpdate cleared
  generalize (if marketUpdate.type = .clear then book.clearOrderBook else book) = cleared
  have hflag (hnil : cleared.bids.nodes = []) : cleared.bidTouched marketUpdate.price = true := by
    rw [bidTouched, BookSide.front_eq_none_iff.mpr hnil]
  simp only [h, if_true, reduceCtorEq, if_false, compareBest_bid, decide_true, decide_false,
    Bool.true_and, Bool.false_and, checkedPublish_eq]
  exact BookSide.logged_eq .bids hflag _

theorem checkedUpdate_ask {marketUpdate : MEMarketUpdate2} (h : marketUpdate.side = .kAsk) :
    book.checkedUpdate marketUpdate =
      if (book.cleared marketUpdate).asks.nodes = [] then .error .asks
      else .ok (book.onMarketUpdate marketUpdate) := by
  unfold checkedUpdate onMarketUpdate cleared
  generalize (if marketUpdate.type = .clear then book.clearOrderBook else book) = cleared
  have hflag (hnil : cleared.asks.nodes = []) : cleared.askTouched marketUpdate.price = true := by
    rw [askTouched, BookSide.front_eq_none_iff.mpr hnil]
  simp only [h, if_true, reduceCtorEq, if_false, compareBest_ask, decide_true, decide_false,
    Bool.true_and, Bool.false_and, checkedPublish_eq]
  exact BookSide.logged_eq .asks hflag _

theorem checkedUpdate_of_no_side {marketUpdate : MEMarketUpdate2}
    (hbid : marketUpdate.side ≠ .kBid) (hask : marketUpdate.side ≠ .kAsk) :
    book.checkedUpdate marketUpdate = .ok (book.onMarketUpdate marketUpdate) := by
  simp only [checkedUpdate, onMarketUpdate, hbid, hask, if_false, checkedPublish_eq, decide_false,
    Bool.false_and]
  rfl

theorem checkedStep_of_names {message : BookMessage} (h : message.NamesEmptySide book) :
    ∃ tree, book.checkedStep message = .error tree := by
  cases message with
  | update marketUpdate =>
      rcases h with ⟨hside, hempty⟩ | ⟨hside, hempty⟩
      · refine ⟨.bids, ?_⟩
        rw [checkedStep, book.checkedUpdate_bid hside,
          if_pos ((book.bids_cleared_eq_nil_iff marketUpdate).mpr hempty)]
      · refine ⟨.asks, ?_⟩
        rw [checkedStep, book.checkedUpdate_ask hside,
          if_pos ((book.asks_cleared_eq_nil_iff marketUpdate).mpr hempty)]
  | snapshot marketSnapshot => exact h.elim
  | diff marketDiff => exact h.elim

theorem checkedStep_of_not_names {message : BookMessage} (h : ¬ message.NamesEmptySide book) :
    book.checkedStep message = .ok ((machine containers).step book message) := by
  cases message with
  | update marketUpdate =>
      simp only [BookMessage.NamesEmptySide, not_or, not_and] at h
      rw [checkedStep]
      by_cases hbid : marketUpdate.side = .kBid
      · rw [book.checkedUpdate_bid hbid, if_neg]
        · rfl
        · rw [bids_cleared_eq_nil_iff]
          exact fun hempty => hempty.elim (h.1 hbid).1 (h.1 hbid).2
      · by_cases hask : marketUpdate.side = .kAsk
        · rw [book.checkedUpdate_ask hask, if_neg]
          · rfl
          · rw [asks_cleared_eq_nil_iff]
            exact fun hempty => hempty.elim (h.2 hask).1 (h.2 hask).2
        · exact book.checkedUpdate_of_no_side hbid hask
  | snapshot marketSnapshot =>
      cases marketSnapshot with
      | none => rfl
      | some marketSnapshot => exact checkedLevels_eq ..
  | diff marketDiff =>
      cases marketDiff with
      | none => rfl
      | some marketDiff => exact checkedLevels_eq ..

/-- Every read of the best level is from a tree with levels, exactly if the
message is not an update that names a side without levels.  A handler whose reads
are all good does what it does without the checks. -/
theorem reads_iff_not_namesEmptySide (book : MarketOrderBook2 containers) (message : BookMessage) :
    ((∀ tree, book.checkedStep message ≠ .error tree) ↔ ¬ message.NamesEmptySide book) ∧
      ∀ result, book.checkedStep message = .ok result →
        result = (machine containers).step book message := by
  refine ⟨⟨fun hreads hnames => ?_, fun hnames tree hfault => ?_⟩, fun result hresult => ?_⟩
  · obtain ⟨tree, hfault⟩ := book.checkedStep_of_names hnames
    exact hreads tree hfault
  · rw [book.checkedStep_of_not_names hnames] at hfault
    cases hfault
  · by_cases hnames : message.NamesEmptySide book
    · obtain ⟨tree, hfault⟩ := book.checkedStep_of_names hnames
      rw [hfault] at hresult
      cases hresult
    · rw [book.checkedStep_of_not_names hnames] at hresult
      cases hresult
      rfl

/-- The first bid of an empty book. -/
theorem faults_on_first_bid :
    ((machine .lists).run []).checkedStep (.update { side := .kBid, price := 100, qty := 1 }) =
      .error .bids := rfl

end MarketOrderBook2

end CryptoBot.Book

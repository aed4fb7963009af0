/-
# The best bid and offer

The top of a book is defined by its quantities alone: the best price of each
side with its quantity, and the invalid pair for an empty side.  The cached BBO
is refreshed on a flag only, so that it stays the top of the book is a law about
the flags.

For updates and diffs the law holds (`bbo_tracks_topOfBook`).  A snapshot flags
additions only, which is too little: it also takes levels away, by clearing the
book.  `snapshot_forgets_iff` says when a snapshot leaves nothing of the book
before it in the cache, which is exactly when each side is written to or was
invalid already.
-/

import CryptoBot.Book.Representation

namespace CryptoBot.Book

open CryptoBot.Common CryptoBot.MarketData CryptoBot.Math

/-- `quote` is the best level of `values`, or the invalid pair if there is none. -/
def IsTop (r : Price → Price → Prop) (values : Price → Qty) (quote : Price × Qty) : Prop :=
  IsBest r values quote.1 quote.2 ∨
    ((∀ price, values price = 0) ∧ quote = (kPriceInvalid, kQtyInvalid))

namespace BBO

def bid (bbo : BBO) : Price × Qty := (bbo.bidPrice, bbo.bidQty)

def ask (bbo : BBO) : Price × Qty := (bbo.askPrice, bbo.askQty)

theorem ext_iff' {first second : BBO} :
    first = second ↔ first.bid = second.bid ∧ first.ask = second.ask := by
  cases first
  cases second
  simp only [BBO.mk.injEq, bid, ask, Prod.mk.injEq]
  tauto

end BBO

/-- `bbo` is the top of the book with these quantities. -/
def IsTopOfBook (levels : Levels) (bbo : BBO) : Prop :=
  IsTop (· > ·) levels.bids bbo.bid ∧ IsTop (· < ·) levels.asks bbo.ask

theorem Refines.levels_eq {containers : Containers} {book : MarketOrderBook2 containers}
    {model : LadderBook} (h : Refines book model) : book.levels = model.levels := by
  rw [MarketOrderBook2.levels, h.bids.qtyAt_eq, h.asks.qtyAt_eq]
  rfl

/-- A ladder has one top, the quote of its best entry. -/
theorem isTop_get_iff {r : Price → Price → Prop} [IsStrictTotalOrder Price r]
    (ladder : Ladder r Qty) (quote : Price × Qty) :
    IsTop r ladder.get quote ↔ quote = LadderBook.quote ladder.best := by
  rw [IsTop, ← ladder.best_eq_some_iff, ← ladder.best_eq_none_iff]
  cases ladder.best with
  | none => simp [LadderBook.quote]
  | some best => simp [LadderBook.quote, eq_comm]

namespace LadderBook

/-- The top of the ladders. -/
def topOfBook (model : LadderBook) : BBO where
  bidPrice := (quote model.bids.best).1
  askPrice := (quote model.asks.best).1
  bidQty := (quote model.bids.best).2
  askQty := (quote model.asks.best).2

theorem isTopOfBook_iff (model : LadderBook) (bbo : BBO) :
    IsTopOfBook model.levels bbo ↔ bbo = model.topOfBook := by
  rw [IsTopOfBook, levels, isTop_get_iff, isTop_get_iff, BBO.ext_iff']
  rfl

/-! ## Updates and diffs -/

/-- A step signals its new cache or nothing. -/
theorem signals_write (model : LadderBook) (flagRemovals : Bool) (bids asks : List (Price × Qty)) :
    (model.write flagRemovals bids asks).2 = [] ∨
      (model.write flagRemovals bids asks).2 = [(model.write flagRemovals bids asks).1.bbo] := by
  unfold write publish
  dsimp only
  split
  · exact .inr rfl
  · exact .inl rfl

/-- A step without a signal raised no flag. -/
theorem flags_of_no_signal {model : LadderBook} {flagRemovals : Bool}
    {bids asks : List (Price × Qty)} (h : (model.write flagRemovals bids asks).2 = []) :
    (model.bids.scan flagRemovals bids).2 = false ∧
      (model.asks.scan flagRemovals asks).2 = false := by
  unfold write publish at h
  simpa using h

/-- With removals flagged the cache stays the top of the book. -/
theorem bbo_write {model : LadderBook} (hbbo : model.bbo = model.topOfBook)
    (bids asks : List (Price × Qty)) :
    (model.write true bids asks).1.bbo = (model.write true bids asks).1.topOfBook := by
  unfold write publish topOfBook
  rw [hbbo]
  have hbid := model.bids.best_scan_of_flag_false bids
  have hask := model.asks.best_scan_of_flag_false asks
  cases hbidFlag : (model.bids.scan true bids).2 <;>
    cases haskFlag : (model.asks.scan true asks).2 <;>
    simp_all [topOfBook]

/-- Without a signal the top of the book is unchanged. -/
theorem topOfBook_write_of_no_signal {model : LadderBook} {bids asks : List (Price × Qty)}
    (h : (model.write true bids asks).2 = []) :
    (model.write true bids asks).1.topOfBook = model.topOfBook := by
  obtain ⟨hbid, hask⟩ := flags_of_no_signal h
  simp [write, publish, topOfBook, model.bids.best_scan_of_flag_false bids hbid,
    model.asks.best_scan_of_flag_false asks hask]

end LadderBook

/-- Updates of a level and diffs. -/
def BookMessage.Incremental : BookMessage → Prop
  | .update marketUpdate =>
      marketUpdate.type = .default ∧ (marketUpdate.side = .kBid ∨ marketUpdate.side = .kAsk)
  | .diff _ => True
  | .snapshot _ => False

instance : DecidablePred BookMessage.Incremental
  | .update _ => inferInstanceAs (Decidable (_ ∧ _))
  | .diff _ => inferInstanceAs (Decidable True)
  | .snapshot _ => inferInstanceAs (Decidable False)

namespace BookMessage.Incremental

variable {message : BookMessage}

theorem wellSided (h : message.Incremental) : message.WellSided := by
  cases message with
  | update marketUpdate => exact h.2
  | snapshot marketSnapshot => exact trivial
  | diff marketDiff => exact trivial

/-- They write to the ladders without a clear and flag removals. -/
theorem step_eq (h : message.Incremental) (model : LadderBook) :
    LadderBook.machine.step model message =
      model.write true message.batch.bids message.batch.asks := by
  match message, h with
  | .update marketUpdate, h => simp [LadderBook.machine, LadderBook.apply, batch, h.1]
  | .diff none, _ => rfl
  | .diff (some marketDiff), _ => rfl

end BookMessage.Incremental

/-- Updates and diffs keep the cached BBO equal to the top of the book.  A step
that changes the top signals the new BBO once, and a step without a signal
leaves the top alone. -/
theorem bbo_tracks_topOfBook (containers : Containers) (messages : List BookMessage)
    (hsided : ∀ earlier ∈ messages, earlier.WellSided) (message : BookMessage)
    (hincremental : message.Incremental) :
    let book := (MarketOrderBook2.machine containers).run messages
    let next := ((MarketOrderBook2.machine containers).step book message).1
    let signals := ((MarketOrderBook2.machine containers).step book message).2
    IsTopOfBook book.levels book.bbo →
      IsTopOfBook next.levels next.bbo ∧
        (∀ top, IsTopOfBook book.levels top → ¬ IsTopOfBook next.levels top →
          signals = [next.bbo]) ∧
        (signals = [] → ∀ top, IsTopOfBook book.levels top → IsTopOfBook next.levels top) := by
  intro book next signals htop
  set model := LadderBook.machine.run messages
  set bids := message.batch.bids
  set asks := message.batch.asks
  have hrefines : Refines book model := (simulation containers hsided).1
  obtain ⟨hnext, hsignals⟩ : Refines next (model.write true bids asks).1 ∧
      signals = (model.write true bids asks).2 := by
    rw [← hincremental.step_eq]
    exact hrefines.step hincremental.wellSided
  have hbbo : model.bbo = model.topOfBook := by
    rw [← model.isTopOfBook_iff, ← hrefines.levels_eq, ← hrefines.bbo]
    exact htop
  have hkept : signals = [] → ∀ top, IsTopOfBook book.levels top → IsTopOfBook next.levels top := by
    intro hnone top hbefore
    rw [hsignals] at hnone
    rw [hrefines.levels_eq, model.isTopOfBook_iff] at hbefore
    rw [hnext.levels_eq, LadderBook.isTopOfBook_iff,
      LadderBook.topOfBook_write_of_no_signal hnone, hbefore]
  refine ⟨?_, fun top hbefore hafter => ?_, hkept⟩
  · rw [hnext.levels_eq, hnext.bbo, LadderBook.isTopOfBook_iff]
    exact LadderBook.bbo_write hbbo bids asks
  · rcases model.signals_write true bids asks with hnone | hone
    · exact (hafter (hkept (hsignals.trans hnone) top hbefore)).elim
    · rw [← hsignals, ← hnext.bbo] at hone
      exact hone

/-- A diff that removes the best bid and improves the best ask. -/
def topMovingDiff : BookMessage :=
  .diff (some { bids := [⟨99, 0⟩, ⟨98, 6⟩], asks := [⟨100, 1⟩] })

theorem bbo_tracks_topMovingDiff :
    (∀ earlier ∈ representedRun, earlier.WellSided) ∧ topMovingDiff.Incremental ∧
      ((MarketOrderBook2.machine .lists).step
        ((MarketOrderBook2.machine .lists).run representedRun) topMovingDiff).2 =
        [{ bidPrice := 98, bidQty := 6, askPrice := 100, askQty := 1 }] ∧
      IsTopOfBook ((MarketOrderBook2.machine .lists).step
          ((MarketOrderBook2.machine .lists).run representedRun) topMovingDiff).1.levels
        ((MarketOrderBook2.machine .lists).step
          ((MarketOrderBook2.machine .lists).run representedRun) topMovingDiff).1.bbo := by
  refine ⟨by decide, by decide, by decide, ?_⟩
  refine (bbo_tracks_topOfBook .lists representedRun (by decide) topMovingDiff (by decide) ?_).1
  have hsided : ∀ earlier ∈ representedRun, earlier.WellSided := by decide
  rw [(simulation .lists hsided).1.levels_eq, LadderBook.isTopOfBook_iff]
  decide

/-! ## Snapshots -/

/-- The book a snapshot describes. -/
def snapshotLevels (snapshot : BookSnapshot2) : Levels :=
  Levels.empty.apply (BookMessage.snapshot (some snapshot)).batch

namespace LadderBook

/-- A side refreshed on the flag of a snapshot is the quote of the snapshot
exactly when the snapshot writes to it or its cache was invalid. -/
theorem refreshed_eq_quote_iff {r : Price → Price → Prop} [DecidableRel r]
    [IsStrictTotalOrder Price r] (entries : List (Price × Qty)) (cached : Price × Qty) :
    (if ((Ladder.empty : Ladder r Qty).scan false entries).2 then
        quote ((Ladder.empty : Ladder r Qty).setAll entries).best else cached) =
        quote ((Ladder.empty : Ladder r Qty).setAll entries).best ↔
      (∃ entry ∈ entries, entry.2 ≠ 0) ∨ cached = (kPriceInvalid, kQtyInvalid) := by
  rw [Ladder.scan_empty_flag]
  by_cases hwritten : ∃ entry ∈ entries, entry.2 ≠ 0
  · simp [hwritten]
  · have hzero : ∀ entry ∈ entries, entry.2 = 0 := by
      simpa using hwritten
    rw [Ladder.setAll_empty_of_zero hzero, decide_eq_false hwritten]
    simp only [Bool.false_eq_true, if_false, hwritten, false_or]
    rfl

/-- The cache of the bids after a snapshot. -/
theorem bid_write_clear (model : LadderBook) (bids asks : List (Price × Qty)) :
    (model.clear.write false bids asks).1.bbo.bid =
      if (model.clear.bids.scan false bids).2 then quote (model.clear.bids.setAll bids).best
      else model.bbo.bid := by
  simp only [write, publish, BBO.bid, Ladder.scan_fst]
  split <;> rfl

/-- The cache of the asks after a snapshot. -/
theorem ask_write_clear (model : LadderBook) (bids asks : List (Price × Qty)) :
    (model.clear.write false bids asks).1.bbo.ask =
      if (model.clear.asks.scan false asks).2 then quote (model.clear.asks.setAll asks).best
      else model.bbo.ask := by
  simp only [write, publish, BBO.ask, Ladder.scan_fst]
  split <;> rfl

/-- When the cache is the top of the book after a snapshot. -/
theorem bbo_write_clear_iff (model : LadderBook) (bids asks : List (Price × Qty)) :
    (model.clear.write false bids asks).1.bbo =
        (model.clear.write false bids asks).1.topOfBook ↔
      ((∃ entry ∈ bids, entry.2 ≠ 0) ∨ model.bbo.bid = (kPriceInvalid, kQtyInvalid)) ∧
        ((∃ entry ∈ asks, entry.2 ≠ 0) ∨ model.bbo.ask = (kPriceInvalid, kQtyInvalid)) := by
  rw [BBO.ext_iff', bid_write_clear, ask_write_clear,
    ← refreshed_eq_quote_iff (r := fun first second : Price => first > second) bids,
    ← refreshed_eq_quote_iff (r := fun first second : Price => first < second) asks]
  simp only [write, publish, topOfBook, BBO.bid, BBO.ask, Ladder.scan_fst, Prod.mk.eta]
  rfl

end LadderBook

theorem exists_entry_ne_zero_iff (levels : List BookSnapshotElem) :
    (∃ entry ∈ levels.map BookSnapshotElem.entry, entry.2 ≠ 0) ↔
      ∃ level ∈ levels, level.qty > 0 := by
  simp [BookSnapshotElem.entry, UInt64.pos_iff_ne_zero]

/-- The snapshot decides the levels and the cache of both books, and the cache
is the top of the snapshot. -/
def Forgets {containers : Containers} (book other : MarketOrderBook2 containers)
    (snapshot : BookSnapshot2) : Prop :=
  (book.onMarketSnapshot (some snapshot)).1.bids.levels =
      (other.onMarketSnapshot (some snapshot)).1.bids.levels ∧
    (book.onMarketSnapshot (some snapshot)).1.asks.levels =
      (other.onMarketSnapshot (some snapshot)).1.asks.levels ∧
    (book.onMarketSnapshot (some snapshot)).1.bbo =
      (other.onMarketSnapshot (some snapshot)).1.bbo ∧
    IsTopOfBook (snapshotLevels snapshot) (book.onMarketSnapshot (some snapshot)).1.bbo

/-- A snapshot forgets two books exactly when each side of it has a positive
quantity or was invalid in both caches. -/
theorem snapshot_forgets_iff (containers : Containers) (first second : List BookMessage)
    (hfirst : ∀ message ∈ first, message.WellSided)
    (hsecond : ∀ message ∈ second, message.WellSided) (snapshot : BookSnapshot2) :
    let book := (MarketOrderBook2.machine containers).run first
    let other := (MarketOrderBook2.machine containers).run second
    Forgets book other snapshot ↔
      ((∃ bid ∈ snapshot.bids, bid.qty > 0) ∨
          (book.bbo.bid = (kPriceInvalid, kQtyInvalid) ∧
            other.bbo.bid = (kPriceInvalid, kQtyInvalid))) ∧
        ((∃ ask ∈ snapshot.asks, ask.qty > 0) ∨
          (book.bbo.ask = (kPriceInvalid, kQtyInvalid) ∧
            other.bbo.ask = (kPriceInvalid, kQtyInvalid))) := by
  intro book other
  set bids := snapshot.bids.map BookSnapshotElem.entry
  set asks := snapshot.asks.map BookSnapshotElem.entry
  have hrefines := (simulation containers hfirst).1
  have hotherRefines := (simulation containers hsecond).1
  set model := LadderBook.machine.run first
  set otherModel := LadderBook.machine.run second
  have hafter : Refines (book.onMarketSnapshot (some snapshot)).1
      (model.clear.write false bids asks).1 :=
    (hrefines.clearOrderBook.processLevels false _ _).1
  have hotherAfter : Refines (other.onMarketSnapshot (some snapshot)).1
      (otherModel.clear.write false bids asks).1 :=
    (hotherRefines.clearOrderBook.processLevels false _ _).1
  -- the ladders after the snapshot do not depend on the books before it
  have htop : (otherModel.clear.write false bids asks).1.topOfBook =
      (model.clear.write false bids asks).1.topOfBook := rfl
  have hlevels : snapshotLevels snapshot = (model.clear.write false bids asks).1.levels := by
    rw [LadderBook.levels_write]
    rfl
  have hforgets : Forgets book other snapshot ↔
      (model.clear.write false bids asks).1.bbo =
          (model.clear.write false bids asks).1.topOfBook ∧
        (otherModel.clear.write false bids asks).1.bbo =
          (otherModel.clear.write false bids asks).1.topOfBook := by
    rw [Forgets, hafter.bids.levels_eq, hafter.asks.levels_eq, hotherAfter.bids.levels_eq,
      hotherAfter.asks.levels_eq, hafter.bbo, hotherAfter.bbo, hlevels,
      LadderBook.isTopOfBook_iff, htop]
    constructor
    · rintro ⟨-, -, hsame, htop⟩
      exact ⟨htop, hsame ▸ htop⟩
    · rintro ⟨htop, hotherTop⟩
      exact ⟨rfl, rfl, htop.trans hotherTop.symm, htop⟩
  rw [hforgets, LadderBook.bbo_write_clear_iff, LadderBook.bbo_write_clear_iff,
    exists_entry_ne_zero_iff, exists_entry_ne_zero_iff, ← hrefines.bbo, ← hotherRefines.bbo,
    or_and_left, or_and_left]
  exact and_and_and_comm

/-- A bid of an earlier update survives a snapshot without bids. -/
theorem not_forgets_of_empty_bids :
    (∀ message ∈ [BookMessage.update { side := .kBid, price := 100, qty := 1 }],
        message.WellSided) ∧
      ¬ Forgets ((MarketOrderBook2.machine .lists).run
          [.update { side := .kBid, price := 100, qty := 1 }])
        ((MarketOrderBook2.machine .lists).run []) { asks := [⟨101, 1⟩] } := by
  refine ⟨by decide, fun hforgets => ?_⟩
  have hbbo := hforgets.2.2.1
  revert hbbo
  decide

/-- With a positive quantity on both sides nothing is left of either book. -/
theorem forgets_of_two_sided_snapshot :
    (∀ message ∈ representedRun, message.WellSided) ∧
      Forgets ((MarketOrderBook2.machine .lists).run representedRun)
        ((MarketOrderBook2.machine .lists).run [])
        { bids := [⟨97, 0⟩, ⟨96, 2⟩], asks := [⟨101, 1⟩] } := by
  refine ⟨by decide, ?_⟩
  exact (snapshot_forgets_iff .lists representedRun [] (by decide) (by decide) _).mpr
    ⟨.inl (by decide), .inl (by decide)⟩

end CryptoBot.Book

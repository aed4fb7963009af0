/-
# Batches of levels

A diff carries many levels, and its handler compares each of them with a best price
that earlier levels of the same diff may have moved.  It keeps one flag for each side
and refreshes the cache once, at the end, where the handler of single updates
refreshes it after every level.

On the ladders a batch is a list of writes, and two batches one after the other are
one batch (`write_append`): a cache that was refreshed in the first batch and not
touched in the second one is what a refresh at the end would have written.  So it
makes no difference how the levels of a run are cut into messages, and, where no
price is written twice, in which order a message lists them.
-/

import CryptoBot.Book.TopOfBook

namespace CryptoBot.Book

open CryptoBot.Common CryptoBot.MarketData CryptoBot.Math

namespace LadderBook

variable (model : LadderBook)

@[simp]
theorem write_nil : (model.write true [] []).1 = model := rfl

/-- A side of the cache over two batches: refreshing it after each batch that touches
the best entry is refreshing it at the end if one of them does. -/
theorem refreshed_append {r : Price → Price → Prop} [DecidableRel r] [IsStrictTotalOrder Price r]
    (ladder : Ladder r Qty) (first second : List (Price × Qty)) {α : Type}
    (read : Option (Price × Qty) → α) (cached : α) :
    (if ((ladder.setAll first).scan true second).2 then
        read ((ladder.setAll first).setAll second).best
      else if (ladder.scan true first).2 then read (ladder.setAll first).best else cached) =
      if (ladder.scan true (first ++ second)).2 then
        read ((ladder.setAll first).setAll second).best
      else cached := by
  rw [Ladder.scan_append_snd]
  cases hsecond : ((ladder.setAll first).scan true second).2 with
  | true => simp
  | false => simp [Ladder.best_scan_of_flag_false _ second hsecond]

/-- Two batches one after the other are one batch. -/
theorem write_append (firstBids firstAsks secondBids secondAsks : List (Price × Qty)) :
    ((model.write true firstBids firstAsks).1.write true secondBids secondAsks).1 =
      (model.write true (firstBids ++ secondBids) (firstAsks ++ secondAsks)).1 := by
  have hbids := fun {α} (read : Option (Price × Qty) → α) (cached : α) =>
    refreshed_append model.bids firstBids secondBids read cached
  have hasks := fun {α} (read : Option (Price × Qty) → α) (cached : α) =>
    refreshed_append model.asks firstAsks secondAsks read cached
  have hsetBids : model.bids.setAll (firstBids ++ secondBids) =
      (model.bids.setAll firstBids).setAll secondBids := List.foldl_append
  have hsetAsks : model.asks.setAll (firstAsks ++ secondAsks) =
      (model.asks.setAll firstAsks).setAll secondAsks := List.foldl_append
  simp only [write, publish, Ladder.scan_fst, hsetBids, hsetAsks]
  congr 2
  · exact hbids (fun best => (quote best).1) _
  · exact hasks (fun best => (quote best).1) _
  · exact hbids (fun best => (quote best).2) _
  · exact hasks (fun best => (quote best).2) _

/-- A run of updates and diffs is one batch of all their levels. -/
theorem runFrom_of_incremental {messages : List BookMessage}
    (h : ∀ message ∈ messages, message.Incremental) :
    machine.runFrom model messages =
      (model.write true (messages.flatMap fun message => message.batch.bids)
        (messages.flatMap fun message => message.batch.asks)).1 := by
  induction messages using List.reverseRecOn with
  | nil => rfl
  | append_singleton messages message ih =>
      have hearlier := ih fun earlier hmem => h earlier (by simp [hmem])
      have hlast : machine.runFrom (machine.runFrom model messages) [message] =
          (machine.step (machine.runFrom model messages) message).1 := rfl
      rw [Machine.runFrom_append, hlast, (h message (by simp)).step_eq, hearlier, write_append]
      simp

end LadderBook

/-! ## One level at a time -/

/-- The levels of a diff as single updates, the bids first. -/
def updatesOf (diff : BookDiffSnapshot2) : List BookMessage :=
  diff.bids.map (fun bid => .update
    { exchangeId := diff.exchangeId
      tradingPair := diff.tradingPair
      side := .kBid
      price := bid.price
      qty := bid.qty }) ++
  diff.asks.map (fun ask => .update
    { exchangeId := diff.exchangeId
      tradingPair := diff.tradingPair
      side := .kAsk
      price := ask.price
      qty := ask.qty })

theorem incremental_of_mem_updatesOf {diff : BookDiffSnapshot2} {message : BookMessage}
    (h : message ∈ updatesOf diff) : message.Incremental := by
  rcases List.mem_append.mp h with hbid | hask
  · obtain ⟨bid, -, rfl⟩ := List.mem_map.mp hbid
    exact ⟨rfl, .inl rfl⟩
  · obtain ⟨ask, -, rfl⟩ := List.mem_map.mp hask
    exact ⟨rfl, .inr rfl⟩

theorem batch_updatesOf (diff : BookDiffSnapshot2) :
    ((updatesOf diff).flatMap fun message => message.batch.bids) =
        diff.bids.map BookSnapshotElem.entry ∧
      ((updatesOf diff).flatMap fun message => message.batch.asks) =
        diff.asks.map BookSnapshotElem.entry := by
  have hnone (levels : List BookSnapshotElem) :
      (levels.flatMap fun _ => ([] : List (Price × Qty))) = [] :=
    List.flatMap_eq_nil_iff.mpr fun _ _ => rfl
  have hentry : BookSnapshotElem.entry = fun level => (level.price, level.qty) := rfl
  simp [updatesOf, BookMessage.batch, List.flatMap_map, ← List.map_eq_flatMap, hnone, hentry]

/-- A diff leaves the book that its levels leave one by one. -/
theorem diff_eq_updates (containers : Containers) (messages : List BookMessage)
    (hsided : ∀ message ∈ messages, message.WellSided) (diff : BookDiffSnapshot2) :
    let book := (MarketOrderBook2.machine containers).run messages
    let atOnce := (book.onMarketDiff (some diff)).1
    let oneByOne := (MarketOrderBook2.machine containers).runFrom book (updatesOf diff)
    atOnce.bids.levels = oneByOne.bids.levels ∧ atOnce.asks.levels = oneByOne.asks.levels ∧
      atOnce.bbo = oneByOne.bbo := by
  intro book atOnce oneByOne
  set model := LadderBook.machine.run messages
  have hatOnce : Refines atOnce (model.write true (diff.bids.map BookSnapshotElem.entry)
      (diff.asks.map BookSnapshotElem.entry)).1 :=
    ((simulation containers hsided).1.processLevels true diff.bids diff.asks).1
  have hall : ∀ message ∈ messages ++ updatesOf diff, message.WellSided := by
    intro message hmem
    rcases List.mem_append.mp hmem with hearlier | hupdate
    · exact hsided message hearlier
    · exact (incremental_of_mem_updatesOf hupdate).wellSided
  have honeByOne : Refines oneByOne (LadderBook.machine.runFrom model (updatesOf diff)) := by
    have hrun := (simulation containers hall).1
    rw [Machine.run, Machine.run, Machine.runFrom_append, Machine.runFrom_append] at hrun
    exact hrun
  rw [LadderBook.runFrom_of_incremental _ fun message => incremental_of_mem_updatesOf,
    (batch_updatesOf diff).1, (batch_updatesOf diff).2] at honeByOne
  rw [hatOnce.bids.levels_eq, hatOnce.asks.levels_eq, hatOnce.bbo, honeByOne.bids.levels_eq,
    honeByOne.asks.levels_eq, honeByOne.bbo]
  exact ⟨rfl, rfl, rfl⟩

/-- A diff that writes a price twice and empties the asks, on a cache that a snapshot
left stale. -/
theorem diff_eq_updates_stale :
    let messages : List BookMessage :=
      [.update { side := .kBid, price := 100, qty := 1 },
        .snapshot (some { asks := [⟨101, 4⟩] })]
    let diff : BookDiffSnapshot2 := { bids := [⟨98, 2⟩, ⟨99, 1⟩, ⟨99, 0⟩], asks := [⟨101, 0⟩] }
    let book := (MarketOrderBook2.machine .lists).run messages
    book.bbo = { bidPrice := 100, bidQty := 1, askPrice := 101, askQty := 4 } ∧
      (book.onMarketDiff (some diff)).1.bbo = { bidPrice := 98, bidQty := 2 } ∧
      (book.onMarketDiff (some diff)).1.bbo =
        ((MarketOrderBook2.machine .lists).runFrom book (updatesOf diff)).bbo := by
  intro messages diff book
  refine ⟨by decide, by decide, ?_⟩
  exact (diff_eq_updates .lists messages (by decide) diff).2.2

/-! ## The order of the levels -/

/-- The second message lists the levels of the first in another order. -/
inductive BookMessage.Permuted : BookMessage → BookMessage → Prop
  | snapshot (marketSnapshot : BookSnapshot2) {bids asks : List BookSnapshotElem}
      (hbids : marketSnapshot.bids.Perm bids) (hasks : marketSnapshot.asks.Perm asks) :
      Permuted (.snapshot (some marketSnapshot))
        (.snapshot (some { marketSnapshot with bids, asks }))
  | diff (marketDiff : BookDiffSnapshot2) {bids asks : List BookSnapshotElem}
      (hbids : marketDiff.bids.Perm bids) (hasks : marketDiff.asks.Perm asks) :
      Permuted (.diff (some marketDiff)) (.diff (some { marketDiff with bids, asks }))

theorem BookMessage.Permuted.wellSided {first second : BookMessage} (h : first.Permuted second) :
    first.WellSided ∧ second.WellSided := by
  cases h <;> exact ⟨trivial, trivial⟩

/-- No side of the message writes a price twice. -/
def BookMessage.DistinctPrices (message : BookMessage) : Prop :=
  (message.batch.bids.map Prod.fst).Nodup ∧ (message.batch.asks.map Prod.fst).Nodup

instance : DecidablePred BookMessage.DistinctPrices := fun _ => inferInstanceAs (Decidable (_ ∧ _))

/-- Permuted writes of distinct keys leave the same ladder and raise the same flag. -/
theorem scan_eq_of_perm {r : Price → Price → Prop} [DecidableRel r] [IsStrictTotalOrder Price r]
    (ladder : Ladder r Qty) (flagRemovals : Bool) (hflags : flagRemovals = true ∨ ladder = .empty)
    {first second : List (Price × Qty)} (hperm : first.Perm second)
    (hnodup : (first.map Prod.fst).Nodup) :
    ladder.scan flagRemovals first = ladder.scan flagRemovals second := by
  apply Prod.ext
  · rw [Ladder.scan_fst, Ladder.scan_fst]
    apply Ladder.ext_get
    rw [Ladder.get_setAll, Ladder.get_setAll, writes_eq_of_perm hperm hnodup]
  · cases flagRemovals with
    | true => rw [Ladder.scan_flag_eq_any, Ladder.scan_flag_eq_any, hperm.any_eq]
    | false =>
        rw [hflags.resolve_left Bool.false_ne_true, Ladder.scan_empty_flag, Ladder.scan_empty_flag,
          decide_eq_decide]
        simp only [hperm.mem_iff]

/-- The ladders do not depend on the order of the levels of a message. -/
theorem LadderBook.step_permuted {first second : BookMessage} (h : first.Permuted second)
    (hdistinct : first.DistinctPrices) (model : LadderBook) :
    machine.step model first = machine.step model second := by
  cases h with
  | snapshot marketSnapshot hbids hasks =>
      have hbidScan := scan_eq_of_perm model.clear.bids false (.inr rfl)
         (hbids.map BookSnapshotElem.entry) hdistinct.1
      have haskScan := scan_eq_of_perm model.clear.asks false (.inr rfl)
         (hasks.map BookSnapshotElem.entry) hdistinct.2
      simp only [machine, apply, BookMessage.batch, if_true, write, hbidScan, haskScan]
  | diff marketDiff hbids hasks =>
      have hbidScan := scan_eq_of_perm model.bids true (.inl rfl)
         (hbids.map BookSnapshotElem.entry) hdistinct.1
      have haskScan := scan_eq_of_perm model.asks true (.inl rfl)
         (hasks.map BookSnapshotElem.entry) hdistinct.2
      simp only [machine, apply, BookMessage.batch, Bool.false_eq_true, if_false, write, hbidScan,
        haskScan]

/-- The order of the levels of a message matters neither for the levels and the cache of
the book nor for its signal. -/
theorem step_eq_of_permuted (containers : Containers) (messages : List BookMessage)
    (hsided : ∀ message ∈ messages, message.WellSided) (first second : BookMessage)
    (hpermuted : first.Permuted second) (hdistinct : first.DistinctPrices) :
    let book := (MarketOrderBook2.machine containers).run messages
    let one := (MarketOrderBook2.machine containers).step book first
    let other := (MarketOrderBook2.machine containers).step book second
    one.1.bids.levels = other.1.bids.levels ∧ one.1.asks.levels = other.1.asks.levels ∧
      one.1.bbo = other.1.bbo ∧ one.2 = other.2 := by
  intro book one other
  have hrefines := (simulation containers hsided).1
  obtain ⟨hfirst, hsecond⟩ := hpermuted.wellSided
  obtain ⟨hone, honeSignals⟩ := hrefines.step hfirst
  obtain ⟨hother, hotherSignals⟩ := hrefines.step hsecond
  rw [← LadderBook.step_permuted hpermuted hdistinct] at hother hotherSignals
  refine ⟨?_, ?_, ?_, ?_⟩
  · exact hone.bids.levels_eq.trans hother.bids.levels_eq.symm
  · exact hone.asks.levels_eq.trans hother.asks.levels_eq.symm
  · exact hone.bbo.trans hother.bbo.symm
  · exact honeSignals.trans hotherSignals.symm

/-- The removal of the best bid may come after the bid that takes its place. -/
theorem topMovingDiff_reversed :
    (∀ message ∈ representedRun, message.WellSided) ∧ topMovingDiff.DistinctPrices ∧
      ((MarketOrderBook2.machine .lists).step
          ((MarketOrderBook2.machine .lists).run representedRun) topMovingDiff).2 =
        ((MarketOrderBook2.machine .lists).step
          ((MarketOrderBook2.machine .lists).run representedRun)
          (.diff (some { bids := [⟨98, 6⟩, ⟨99, 0⟩], asks := [⟨100, 1⟩] }))).2 := by
  refine ⟨by decide, by decide, ?_⟩
  exact (step_eq_of_permuted .lists representedRun (by decide) topMovingDiff _
    (.diff _ (by decide) (by decide)) (by decide)).2.2.2

end CryptoBot.Book

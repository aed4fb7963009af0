/-
# The two publication modes

What a bid/ask generator hands to its callbacks reaches the order book in one of
two ways.  `BidAskGeneratorCallbackHandler` publishes one update per level, the
bids before the asks; `BidAskGeneratorCallbackBatchHandler` publishes the
snapshot or the diff as a whole.

In the first mode a snapshot is a list of updates like any other, so a level of
the book before the snapshot stays unless the snapshot or a later output writes
to its price.  In the second mode the snapshot clears the book.
`modes_agree_iff` says for which outputs this makes no difference.
-/

import CryptoBot.Book.Representation
import CryptoBot.Sync.Generator

namespace CryptoBot.Book

open CryptoBot.Common CryptoBot.MarketData CryptoBot.Math CryptoBot.Sync

namespace CallbackHandler

def processBookEntries (entries : List BookSnapshotElem) (exchangeId : ExchangeId)
    (tradingPair : TradingPair) (side : Side) : List BookMessage :=
  entries.map fun bid => .update
    { exchangeId := exchangeId
      tradingPair := tradingPair
      type := .default
      orderId := kOrderIdInvalid
      side := side
      price := bid.price
      qty := bid.qty }

/-- The messages published for one output of the generator. -/
def publish : Action → List BookMessage
  | .snapshotCallback snapshot =>
      processBookEntries snapshot.bids snapshot.exchangeId snapshot.tradingPair .kBid ++
        processBookEntries snapshot.asks snapshot.exchangeId snapshot.tradingPair .kAsk
  | .diffCallback diff =>
      processBookEntries diff.bids diff.exchangeId diff.tradingPair .kBid ++
        processBookEntries diff.asks diff.exchangeId diff.tradingPair .kAsk
  | .requestNewSnapshot _ | .requestSubscribeToDiff _ _ => []

end CallbackHandler

namespace CallbackBatchHandler

/-- The message published for one output of the generator; the copy of a
snapshot carries the update id zero. -/
def publish : Action → List BookMessage
  | .snapshotCallback snapshot =>
      [.snapshot (some
        { exchangeId := snapshot.exchangeId
          tradingPair := snapshot.tradingPair
          bids := snapshot.bids
          asks := snapshot.asks
          lastUpdateId := 0 })]
  | .diffCallback diff => [.diff (some diff)]
  | .requestNewSnapshot _ | .requestSubscribeToDiff _ _ => []

end CallbackBatchHandler

/-! ## The outputs since the last snapshot -/

/-- The writes of an output to the bids. -/
def bidEntries : Action → List (Price × Qty)
  | .snapshotCallback snapshot => snapshot.bids.map BookSnapshotElem.entry
  | .diffCallback diff => diff.bids.map BookSnapshotElem.entry
  | .requestNewSnapshot _ | .requestSubscribeToDiff _ _ => []

/-- The writes of an output to the asks. -/
def askEntries : Action → List (Price × Qty)
  | .snapshotCallback snapshot => snapshot.asks.map BookSnapshotElem.entry
  | .diffCallback diff => diff.asks.map BookSnapshotElem.entry
  | .requestNewSnapshot _ | .requestSubscribeToDiff _ _ => []

def isSnapshot : Action → Bool
  | .snapshotCallback _ => true
  | _ => false

/-- The outputs before the last snapshot, none if there is no snapshot. -/
def beforeSnapshot : List Action → List Action
  | [] => []
  | action :: rest => if rest.any isSnapshot then action :: beforeSnapshot rest else []

/-- The outputs from the last snapshot on, all of them if there is none. -/
def sinceSnapshot : List Action → List Action
  | [] => []
  | action :: rest => if rest.any isSnapshot then sinceSnapshot rest else action :: rest

theorem beforeSnapshot_append_sinceSnapshot (outputs : List Action) :
    beforeSnapshot outputs ++ sinceSnapshot outputs = outputs := by
  induction outputs with
  | nil => rfl
  | cons action rest ih =>
      rw [beforeSnapshot, sinceSnapshot]
      split
      · rw [List.cons_append, ih]
      · rfl

theorem sinceSnapshot_of_none {outputs : List Action} (h : outputs.any isSnapshot = false) :
    sinceSnapshot outputs = outputs := by
  cases outputs with
  | nil => rfl
  | cons action rest =>
      rw [List.any_cons, Bool.or_eq_false_iff] at h
      rw [sinceSnapshot, h.2]
      rfl

/-! ## The levels of each mode -/

namespace Levels

/-- Updates of the bids, one by one. -/
theorem foldFrom_processBookEntries_bid (levels : Levels) (entries : List BookSnapshotElem)
    (exchangeId : ExchangeId) (tradingPair : TradingPair) :
    levels.foldFrom (CallbackHandler.processBookEntries entries exchangeId tradingPair .kBid) =
      ⟨writes levels.bids (entries.map BookSnapshotElem.entry), levels.asks⟩ := by
  induction entries generalizing levels with
  | nil => rfl
  | cons entry entries ih =>
      rw [List.map_cons, writes_cons]
      exact ih _

/-- Updates of the asks, one by one. -/
theorem foldFrom_processBookEntries_ask (levels : Levels) (entries : List BookSnapshotElem)
    (exchangeId : ExchangeId) (tradingPair : TradingPair) :
    levels.foldFrom (CallbackHandler.processBookEntries entries exchangeId tradingPair .kAsk) =
      ⟨levels.bids, writes levels.asks (entries.map BookSnapshotElem.entry)⟩ := by
  induction entries generalizing levels with
  | nil => rfl
  | cons entry entries ih =>
      rw [List.map_cons, writes_cons]
      exact ih _

/-- One update per level: an output writes its levels. -/
theorem foldFrom_handler (levels : Levels) (outputs : List Action) :
    levels.foldFrom (outputs.flatMap CallbackHandler.publish) =
      ⟨writes levels.bids (outputs.flatMap bidEntries),
        writes levels.asks (outputs.flatMap askEntries)⟩ := by
  induction outputs generalizing levels with
  | nil => rfl
  | cons action rest ih =>
      rw [List.flatMap_cons, foldFrom_append, ih, List.flatMap_cons, List.flatMap_cons,
        writes_append, writes_append]
      cases action with
      | snapshotCallback snapshot =>
          rw [CallbackHandler.publish, foldFrom_append, foldFrom_processBookEntries_bid,
            foldFrom_processBookEntries_ask]
          rfl
      | diffCallback diff =>
          rw [CallbackHandler.publish, foldFrom_append, foldFrom_processBookEntries_bid,
            foldFrom_processBookEntries_ask]
          rfl
      | requestNewSnapshot tradingPair => rfl
      | requestSubscribeToDiff subscribe tradingPair => rfl

/-- Whole messages: only the outputs since the last snapshot count. -/
theorem foldFrom_batchHandler (levels : Levels) (outputs : List Action) :
    levels.foldFrom (outputs.flatMap CallbackBatchHandler.publish) =
      ⟨writes (if outputs.any isSnapshot then fun _ => 0 else levels.bids)
          ((sinceSnapshot outputs).flatMap bidEntries),
        writes (if outputs.any isSnapshot then fun _ => 0 else levels.asks)
          ((sinceSnapshot outputs).flatMap askEntries)⟩ := by
  induction outputs generalizing levels with
  | nil => rfl
  | cons action rest ih =>
      rw [List.flatMap_cons, foldFrom_append, ih, sinceSnapshot, List.any_cons]
      cases hrest : rest.any isSnapshot with
      | true => simp
      | false =>
          rw [sinceSnapshot_of_none hrest]
          simp only [Bool.or_false, Bool.false_eq_true, if_false, List.flatMap_cons, writes_append]
          cases action <;> rfl

end Levels

/-! ## Agreement -/

theorem CallbackHandler.wellSided_processBookEntries {entries : List BookSnapshotElem}
    {exchangeId : ExchangeId} {tradingPair : TradingPair} {side : Side}
    (hside : side = .kBid ∨ side = .kAsk) {message : BookMessage}
    (hmessage : message ∈ processBookEntries entries exchangeId tradingPair side) :
    message.WellSided := by
  obtain ⟨entry, -, rfl⟩ := List.mem_map.mp hmessage
  exact hside

theorem CallbackHandler.wellSided (outputs : List Action) :
    ∀ message ∈ outputs.flatMap CallbackHandler.publish, message.WellSided := by
  intro message hmessage
  obtain ⟨action, -, hpublished⟩ := List.mem_flatMap.mp hmessage
  cases action with
  | snapshotCallback snapshot =>
      rcases List.mem_append.mp hpublished with hbid | hask
      · exact wellSided_processBookEntries (.inl rfl) hbid
      · exact wellSided_processBookEntries (.inr rfl) hask
  | diffCallback diff =>
      rcases List.mem_append.mp hpublished with hbid | hask
      · exact wellSided_processBookEntries (.inl rfl) hbid
      · exact wellSided_processBookEntries (.inr rfl) hask
  | requestNewSnapshot tradingPair => simp [publish] at hpublished
  | requestSubscribeToDiff subscribe tradingPair => simp [publish] at hpublished

theorem CallbackBatchHandler.wellSided (outputs : List Action) :
    ∀ message ∈ outputs.flatMap CallbackBatchHandler.publish, message.WellSided := by
  intro message hmessage
  obtain ⟨action, -, hpublished⟩ := List.mem_flatMap.mp hmessage
  cases action with
  | snapshotCallback snapshot => rw [List.mem_singleton.mp hpublished]; trivial
  | diffCallback diff => rw [List.mem_singleton.mp hpublished]; trivial
  | requestNewSnapshot tradingPair => simp [publish] at hpublished
  | requestSubscribeToDiff subscribe tradingPair => simp [publish] at hpublished

/-- Two books that start empty and are fed the outputs in the two modes end with
the same levels. -/
def ModesAgree (containers : Containers) (outputs : List Action) : Prop :=
  ((MarketOrderBook2.machine containers).run
      (outputs.flatMap CallbackHandler.publish)).bids.levels =
    ((MarketOrderBook2.machine containers).run
      (outputs.flatMap CallbackBatchHandler.publish)).bids.levels ∧
  ((MarketOrderBook2.machine containers).run
      (outputs.flatMap CallbackHandler.publish)).asks.levels =
    ((MarketOrderBook2.machine containers).run
      (outputs.flatMap CallbackBatchHandler.publish)).asks.levels

/-- Every price whose last write before the last snapshot is not a removal is
written again by that snapshot or later. -/
def Covered (entries : Action → List (Price × Qty)) (outputs : List Action) : Prop :=
  ∀ price ∈ ((beforeSnapshot outputs).flatMap entries).map Prod.fst,
    writes (fun _ => 0) ((beforeSnapshot outputs).flatMap entries) price ≠ 0 →
      price ∈ ((sinceSnapshot outputs).flatMap entries).map Prod.fst

instance (entries : Action → List (Price × Qty)) (outputs : List Action) :
    Decidable (Covered entries outputs) :=
  List.decidableBAll _ _

theorem covered_iff (entries : Action → List (Price × Qty)) (outputs : List Action) :
    writes (fun _ => 0) (outputs.flatMap entries) =
        writes (fun _ => 0) ((sinceSnapshot outputs).flatMap entries) ↔
      Covered entries outputs := by
  have hsplit : outputs.flatMap entries =
      (beforeSnapshot outputs).flatMap entries ++ (sinceSnapshot outputs).flatMap entries := by
    rw [← List.flatMap_append, beforeSnapshot_append_sinceSnapshot]
  rw [hsplit]
  exact writes_append_eq_iff _ _ _

/-- The two publication modes agree exactly when no level is left over from
before the last snapshot. -/
theorem modes_agree_iff (containers : Containers) (outputs : List Action) :
    ModesAgree containers outputs ↔ Covered bidEntries outputs ∧ Covered askEntries outputs := by
  obtain ⟨hbids, hasks⟩ := representation containers _ (CallbackHandler.wellSided outputs)
  obtain ⟨hbatchBids, hbatchAsks⟩ :=
    representation containers _ (CallbackBatchHandler.wellSided outputs)
  rw [ModesAgree, hbids.levels_eq_iff hbatchBids, hasks.levels_eq_iff hbatchAsks, Levels.fold,
    Levels.fold, Levels.foldFrom_handler, Levels.foldFrom_batchHandler, ← covered_iff,
    ← covered_iff]
  simp only [Levels.empty, ite_self]

/-- A resynchronisation: the second snapshot does not list the bid of the first
one, and only the second mode drops it. -/
def resynchronised : List Action :=
  [.snapshotCallback { bids := [⟨100, 1⟩] }, .snapshotCallback { bids := [⟨101, 1⟩] }]

theorem not_modesAgree_resynchronised : ¬ ModesAgree .lists resynchronised := by
  intro hagree
  have hlevels := hagree.1
  revert hlevels
  decide

end CryptoBot.Book

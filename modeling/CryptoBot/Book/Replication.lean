/-
# Replication of the exchange's book

The end-to-end law of the batch mode: a snapshot of the exchange's book at one
update id, and diffs that overlap it and then continue each other, leave the
local book equal to the exchange's book at the last id of the last diff, whatever
the local book was before.  The exchange is a journal of numbered level changes
per side; the containers of the local book enter through `representation` only.
-/

import CryptoBot.Book.Publication
import CryptoBot.Math.Journal

namespace CryptoBot.Book

open CryptoBot.Common CryptoBot.MarketData CryptoBot.Math CryptoBot.Sync

/-- The history of the exchange's book: absolute quantities, numbered by update
id, zero for a removed level. -/
structure Exchange where
  bids : Journal Price Qty
  asks : Journal Price Qty

namespace Exchange

variable (exchange : Exchange)

/-- The exchange's book at an update id. -/
def bookAt (updateId : Nat) : Levels :=
  ⟨exchange.bids.stateAt updateId, exchange.asks.stateAt updateId⟩

/-- The snapshot lists the levels of the book at its update id. -/
structure ListsSnapshot (snapshot : BookSnapshot) : Prop where
  bids : exchange.bids.ListsAll snapshot.lastUpdateId.toNat
    (snapshot.bids.map BookSnapshotElem.entry)
  asks : exchange.asks.ListsAll snapshot.lastUpdateId.toNat
    (snapshot.asks.map BookSnapshotElem.entry)

/-- The diff covers a range of update ids and lists the quantity at its last id
of every level changed in the range. -/
structure ListsDiff (diff : BookDiffSnapshot2) : Prop where
  range : diff.firstId.toNat ≤ diff.lastId.toNat
  bids : exchange.bids.Lists diff.firstId.toNat diff.lastId.toNat
    (diff.bids.map BookSnapshotElem.entry)
  asks : exchange.asks.Lists diff.firstId.toNat diff.lastId.toNat
    (diff.asks.map BookSnapshotElem.entry)

variable {exchange}

/-- A snapshot replaces any quantities by the book it lists. -/
theorem ListsSnapshot.apply {snapshot : BookSnapshot} (h : exchange.ListsSnapshot snapshot)
    (levels : Levels) :
    levels.foldFrom (CallbackBatchHandler.publish (.snapshotCallback snapshot)) =
      exchange.bookAt snapshot.lastUpdateId.toNat := by
  simp only [CallbackBatchHandler.publish, Levels.foldFrom, List.foldl_cons, List.foldl_nil,
    Levels.apply, BookMessage.batch, if_true, Levels.empty, h.bids.writes_zero,
    h.asks.writes_zero]
  rfl

/-- A diff that starts no later than right after the book's id carries the book
to the last id of the diff. -/
theorem ListsDiff.apply {diff : BookDiffSnapshot2} (h : exchange.ListsDiff diff)
    {updateId : Nat} (hfirst : diff.firstId.toNat ≤ updateId + 1)
    (hlast : updateId ≤ diff.lastId.toNat) :
    (exchange.bookAt updateId).foldFrom (CallbackBatchHandler.publish (.diffCallback diff)) =
      exchange.bookAt diff.lastId.toNat := by
  simp only [CallbackBatchHandler.publish, Levels.foldFrom, List.foldl_cons, List.foldl_nil,
    Levels.apply, BookMessage.batch, Bool.false_eq_true, if_false, bookAt,
    h.bids.writes_stateAt hfirst hlast, h.asks.writes_stateAt hfirst hlast]

/-- Diffs that continue each other carry the book to the last id of the last of
them. -/
theorem foldFrom_diffs (first : BookDiffSnapshot2) (rest : List BookDiffSnapshot2)
    (hlists : ∀ diff ∈ rest, exchange.ListsDiff diff)
    (hchain : (first :: rest).IsChain fun previous diff =>
      diff.firstId.toNat = previous.lastId.toNat + 1) :
    (exchange.bookAt first.lastId.toNat).foldFrom
        ((rest.map Action.diffCallback).flatMap CallbackBatchHandler.publish) =
      exchange.bookAt ((first :: rest).getLast (List.cons_ne_nil _ _)).lastId.toNat := by
  induction rest generalizing first with
  | nil => rfl
  | cons second rest ih =>
      obtain ⟨hnext, hrest⟩ := List.isChain_cons_cons.mp hchain
      have hsecond := hlists second (by simp)
      have hlast : first.lastId.toNat ≤ second.lastId.toNat := by
        have hrange := hsecond.range
        omega
      rw [List.map_cons, List.flatMap_cons, Levels.foldFrom_append,
        hsecond.apply (le_of_eq hnext) hlast,
        ih second (fun diff hdiff => hlists diff (by simp [hdiff])) hrest]
      rfl

end Exchange

/-- After a snapshot of the exchange's book and diffs that overlap it and
continue each other, the hash maps and the trees of the local book hold exactly
the exchange's book at the last id of the last diff. -/
theorem replicates (containers : Containers) (messages : List BookMessage)
    (hsided : ∀ message ∈ messages, message.WellSided) (exchange : Exchange)
    (snapshot : BookSnapshot) (first : BookDiffSnapshot2) (rest : List BookDiffSnapshot2)
    (hsnapshot : exchange.ListsSnapshot snapshot)
    (hdiffs : ∀ diff ∈ first :: rest, exchange.ListsDiff diff)
    (hoverlap : first.firstId.toNat ≤ snapshot.lastUpdateId.toNat + 1 ∧
      snapshot.lastUpdateId.toNat + 1 ≤ first.lastId.toNat)
    (hchain : (first :: rest).IsChain fun previous diff =>
      diff.firstId.toNat = previous.lastId.toNat + 1) :
    let outputs := Action.snapshotCallback snapshot :: (first :: rest).map Action.diffCallback
    let book := (MarketOrderBook2.machine containers).run
      (messages ++ outputs.flatMap CallbackBatchHandler.publish)
    let expected := exchange.bookAt
      ((first :: rest).getLast (List.cons_ne_nil _ _)).lastId.toNat
    book.levels = expected ∧
      (∀ price qty, (price, qty) ∈ book.bids.levels ↔ expected.bids price = qty ∧ qty ≠ 0) ∧
      (∀ price qty, (price, qty) ∈ book.asks.levels ↔ expected.asks price = qty ∧ qty ≠ 0) := by
  intro outputs book expected
  have hall : ∀ message ∈ messages ++ outputs.flatMap CallbackBatchHandler.publish,
      message.WellSided := by
    intro message hmessage
    rcases List.mem_append.mp hmessage with hearlier | hpublished
    · exact hsided message hearlier
    · exact CallbackBatchHandler.wellSided outputs message hpublished
  obtain ⟨hbids, hasks⟩ := representation containers _ hall
  have hfold : Levels.fold (messages ++ outputs.flatMap CallbackBatchHandler.publish) =
      expected := by
    have hfirst := (hdiffs first (by simp)).apply hoverlap.1 (by omega)
    rw [Levels.fold, Levels.foldFrom_append, List.flatMap_cons, Levels.foldFrom_append,
      hsnapshot.apply, List.map_cons, List.flatMap_cons, Levels.foldFrom_append, hfirst]
    have hrest : ∀ diff ∈ rest, exchange.ListsDiff diff :=
      fun diff hdiff => hdiffs diff (by simp [hdiff])
    exact Exchange.foldFrom_diffs first rest hrest hchain
  rw [hfold] at hbids hasks
  refine ⟨?_, fun _ _ => hbids.mem_levels_iff, fun _ _ => hasks.mem_levels_iff⟩
  rw [MarketOrderBook2.levels, hbids.qtyAt_eq, hasks.qtyAt_eq]

/-- Four changes of the bids and one of the asks. -/
def tradedExchange : Exchange where
  bids :=
    { start := fun _ => 0
      changes := [(1, (100, 5)), (2, (99, 3)), (3, (100, 0)), (4, (98, 7))] }
  asks := { start := fun _ => 0, changes := [(2, (101, 4))] }

/-- The snapshot of `tradedExchange` at update id 2. -/
def tradedSnapshot : BookSnapshot where
  bids := [⟨100, 5⟩, ⟨99, 3⟩]
  asks := [⟨101, 4⟩]
  lastUpdateId := 2

/-- The changes 2 and 3; the first of them is in the snapshot already. -/
def overlappingDiff : BookDiffSnapshot2 where
  bids := [⟨99, 3⟩, ⟨100, 0⟩]
  asks := [⟨101, 4⟩]
  firstId := 2
  lastId := 3

/-- The change 4. -/
def continuingDiff : BookDiffSnapshot2 where
  bids := [⟨98, 7⟩]
  firstId := 4
  lastId := 4

theorem listsSnapshot_traded : tradedExchange.ListsSnapshot tradedSnapshot := by
  constructor <;> intro price qty <;>
    simp [tradedExchange, tradedSnapshot, Journal.stateAt, Function.update_apply] <;>
    grind [BookSnapshotElem.entry]

theorem listsDiff_overlapping : tradedExchange.ListsDiff overlappingDiff where
  range := by decide
  bids := .of_forall_change
    (by simp [tradedExchange, overlappingDiff, BookSnapshotElem.entry, Journal.stateAt, writes])
    (by simp [tradedExchange, overlappingDiff, BookSnapshotElem.entry])
  asks := .of_forall_change
    (by simp [tradedExchange, overlappingDiff, BookSnapshotElem.entry, Journal.stateAt, writes])
    (by simp [tradedExchange, overlappingDiff, BookSnapshotElem.entry])

theorem listsDiff_continuing : tradedExchange.ListsDiff continuingDiff where
  range := by decide
  bids := .of_forall_change
    (by simp [tradedExchange, continuingDiff, BookSnapshotElem.entry, Journal.stateAt, writes])
    (by simp [tradedExchange, continuingDiff, BookSnapshotElem.entry])
  asks := .of_forall_change
    (by simp [tradedExchange, continuingDiff, Journal.stateAt, writes])
    (by simp [tradedExchange, continuingDiff])

theorem replicates_traded :
    (∀ message ∈ representedRun, message.WellSided) ∧
      ((MarketOrderBook2.machine .lists).run (representedRun ++
        [Action.snapshotCallback tradedSnapshot, .diffCallback overlappingDiff,
          .diffCallback continuingDiff].flatMap CallbackBatchHandler.publish)).levels =
        tradedExchange.bookAt 4 := by
  refine ⟨by decide, ?_⟩
  exact (replicates .lists representedRun (by decide) tradedExchange tradedSnapshot overlappingDiff
    [continuingDiff] listsSnapshot_traded
    (by simpa using ⟨listsDiff_overlapping, listsDiff_continuing⟩) (by decide) (by decide)).1

end CryptoBot.Book

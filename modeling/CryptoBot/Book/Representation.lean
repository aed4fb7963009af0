/-
# The levels of a run

The quantities a book holds after a run are the fold of its messages: the last
write of a price wins, a write of zero deletes it, and a clear deletes all
prices before the writes of its message.  `representation` is the invariant of
the containers over whole runs, with these quantities.
-/

import CryptoBot.Book.Refinement

namespace CryptoBot.Book

open CryptoBot.Common CryptoBot.MarketData CryptoBot.Math

/-- The quantities of both sides, zero for a price without a level. -/
structure Levels where
  bids : Price → Qty
  asks : Price → Qty

namespace Levels

def empty : Levels := ⟨fun _ => 0, fun _ => 0⟩

/-- The quantities after the writes of a message. -/
def apply (levels : Levels) (batch : Batch) : Levels :=
  let levels := if batch.clear then empty else levels
  ⟨writes levels.bids batch.bids, writes levels.asks batch.asks⟩

/-- The quantities after a run from a book with the given ones. -/
def foldFrom (levels : Levels) (messages : List BookMessage) : Levels :=
  messages.foldl (fun levels message => levels.apply message.batch) levels

/-- The quantities after a run from an empty book. -/
def fold (messages : List BookMessage) : Levels := empty.foldFrom messages

theorem foldFrom_append (levels : Levels) (first second : List BookMessage) :
    levels.foldFrom (first ++ second) = (levels.foldFrom first).foldFrom second :=
  List.foldl_append

theorem fold_concat (messages : List BookMessage) (message : BookMessage) :
    fold (messages ++ [message]) = (fold messages).apply message.batch :=
  foldFrom_append empty messages [message]

end Levels

/-- The quantities the hash maps of a book lead to. -/
def MarketOrderBook2.levels {containers : Containers} (book : MarketOrderBook2 containers) :
    Levels := ⟨book.bids.qtyAt, book.asks.qtyAt⟩

namespace LadderBook

/-- The quantities of the ladders. -/
def levels (model : LadderBook) : Levels := ⟨model.bids.get, model.asks.get⟩

theorem levels_write (model : LadderBook) (flagRemovals : Bool) (bids asks : List (Price × Qty)) :
    (model.write flagRemovals bids asks).1.levels =
      ⟨writes model.bids.get bids, writes model.asks.get asks⟩ := by
  simp [levels, write, publish]

theorem levels_apply (model : LadderBook) (batch : Batch) :
    (model.apply batch).1.levels = model.levels.apply batch := by
  rw [apply, levels_write, Levels.apply]
  cases batch.clear <;> rfl

theorem levels_run (messages : List BookMessage) :
    (machine.run messages).levels = Levels.fold messages := by
  induction messages using List.reverseRecOn with
  | nil => rfl
  | append_singleton messages message ih =>
      rw [Machine.run_concat, Levels.fold_concat, ← ih]
      exact levels_apply _ _

end LadderBook

/-- On each side the hash map and the tree hold the same levels, strictly
ordered and without a zero, in exactly the live blocks of the pool, and their
quantities are the fold of the messages. -/
theorem representation (containers : Containers) (messages : List BookMessage)
    (hsided : ∀ message ∈ messages, message.WellSided) :
    ((MarketOrderBook2.machine containers).run messages).bids.Represents (· > ·) .kBid
        (Levels.fold messages).bids ∧
      ((MarketOrderBook2.machine containers).run messages).asks.Represents (· < ·) .kAsk
        (Levels.fold messages).asks := by
  have hrefines := (simulation containers hsided).1
  rw [← LadderBook.levels_run]
  exact ⟨hrefines.bids, hrefines.asks⟩

/-- A snapshot, a diff that adds, overwrites and removes levels on both sides,
and single updates. -/
def representedRun : List BookMessage :=
  [.snapshot (some { bids := [⟨100, 5⟩, ⟨99, 7⟩], asks := [⟨101, 4⟩, ⟨103, 1⟩] }),
    .diff (some { bids := [⟨100, 0⟩, ⟨98, 2⟩], asks := [⟨102, 6⟩, ⟨101, 3⟩] }),
    .update { side := .kBid, price := 99, qty := 8 },
    .update { side := .kAsk, price := 103, qty := 0 }]

theorem representation_representedRun :
    (∀ message ∈ representedRun, message.WellSided) ∧
      ((MarketOrderBook2.machine .lists).run representedRun).bids.levels = [(99, 8), (98, 2)] ∧
      ((MarketOrderBook2.machine .lists).run representedRun).asks.levels = [(101, 3), (102, 6)] ∧
      ((MarketOrderBook2.machine .lists).run representedRun).bids.Represents (· > ·) .kBid
        (Levels.fold representedRun).bids := by
  refine ⟨by decide, by decide, by decide, ?_⟩
  exact (representation .lists representedRun (by decide)).1

end CryptoBot.Book

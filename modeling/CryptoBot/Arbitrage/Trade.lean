/-
# Trades and their profit

A trade has one transaction for each step of its cycle.  `PnlCalculator` walks
the transactions of a trade in the order of their table, writes the profit of
each one into it and adds them up.  It stops at the first transaction whose pair
it does not know; the ones before it keep what was written.

Times are left out: they are copied into the reports and nothing else reads them.
-/

import CryptoBot.Common.TradingPairs
import CryptoBot.Arbitrage.Cycle
import CryptoBot.Math.UnorderedMap

namespace CryptoBot.Arbitrage

open CryptoBot.Common CryptoBot.Math

structure TransactionReport where
  exchangeId : ExchangeId
  tradingPair : TradingPair
  operation : Operation
  entryPrice : Price := kPriceInvalid
  exitPrice : Price := kPriceInvalid
  entryQty : Qty := kQtyInvalid
  exitQty : Qty := kQtyInvalid
  pnl : ℚ := 0
  deriving DecidableEq

structure TradeState where
  transactionStates : UnorderedMap UInt64 TransactionReport := .empty
  isOpen : Bool := false
  pnl : ℚ := 0

/-- The transaction of a step before it was ever entered. -/
def TransactionReport.ofStep (step : Step) : TransactionReport where
  exchangeId := step.exchangeId
  tradingPair := step.tradingPair
  operation := step.operation

/-- A transaction as far as the strategy decides it, the profit left open. -/
def TransactionReport.withoutPnl (transaction : TransactionReport) : TransactionReport :=
  { transaction with pnl := 0 }

/-- What a transaction trades; nothing after the registration changes it. -/
def TransactionReport.identity (transaction : TransactionReport) :
    ExchangeId × TradingPair × Operation :=
  (transaction.exchangeId, transaction.tradingPair, transaction.operation)

/-- What the transactions of a trade trade. -/
def TradeState.identities (trade : TradeState) (key : UInt64) :
    Option (ExchangeId × TradingPair × Operation) :=
  (trade.transactionStates.find key).map TransactionReport.identity

namespace PnlCalculator

variable (pairs : ExchangeTradingPairs)

/-- `CalculatePnl` of a transaction, with the transaction it leaves. -/
def calculateTransaction (transaction : TransactionReport) : TransactionReport × Option ℚ :=
  match pairs.getPairInfo transaction.exchangeId transaction.tradingPair with
  | none => (transaction, none)
  | some pairInfo =>
      let minQty := min transaction.entryQty transaction.exitQty
      let minQtyDouble := pairInfo.getQtyDouble minQty
      let priceExitDouble := pairInfo.getPriceDouble transaction.exitPrice
      let priceEnterDouble := pairInfo.getPriceDouble transaction.entryPrice
      let pnl :=
        if transaction.operation = .kSell then
          (priceEnterDouble - priceExitDouble) * minQtyDouble
        else (priceExitDouble - priceEnterDouble) * minQtyDouble
      ({ transaction with pnl }, some pnl)

/-- The loop over the transactions of a trade. -/
def calculateAll : List (UInt64 × TransactionReport) → ℚ →
    List (UInt64 × TransactionReport) × Option ℚ
  | [], totalPnl => ([], some totalPnl)
  | (transactionId, transaction) :: rest, totalPnl =>
      match calculateTransaction pairs transaction with
      | (transaction, none) => ((transactionId, transaction) :: rest, none)
      | (transaction, some pnl) =>
          let (rest, result) := calculateAll rest (totalPnl + pnl)
          ((transactionId, transaction) :: rest, result)

theorem keys_calculateAll (entries : List (UInt64 × TransactionReport)) (totalPnl : ℚ) :
    (calculateAll pairs entries totalPnl).1.map Prod.fst = entries.map Prod.fst := by
  induction entries generalizing totalPnl with
  | nil => rfl
  | cons entry rest ih =>
      rw [calculateAll]
      split
      · rfl
      · rw [List.map_cons, List.map_cons, ih]

/-- `CalculatePnl` of a trade, with the trade it leaves. -/
def calculatePnl (tradeState : TradeState) : TradeState × Option ℚ :=
  let result := calculateAll pairs tradeState.transactionStates.entries 0
  ({ tradeState with
      transactionStates :=
        { entries := result.1
          nodup := by
            rw [keys_calculateAll]
            exact tradeState.transactionStates.nodup } },
    result.2)

/-! ## What the calculator keeps -/

theorem withoutPnl_calculateTransaction (transaction : TransactionReport) :
    (calculateTransaction pairs transaction).1.withoutPnl = transaction.withoutPnl := by
  rw [calculateTransaction]
  split <;> rfl

theorem isSome_calculateTransaction (transaction : TransactionReport) :
    (calculateTransaction pairs transaction).2.isSome =
      (pairs.getPairInfo transaction.exchangeId transaction.tradingPair).isSome := by
  rw [calculateTransaction]
  split <;> simp_all

theorem lookup_calculateAll (key : UInt64) (entries : List (UInt64 × TransactionReport))
    (totalPnl : ℚ) :
    ((calculateAll pairs entries totalPnl).1.lookup key).map TransactionReport.withoutPnl =
      (entries.lookup key).map TransactionReport.withoutPnl := by
  induction entries generalizing totalPnl with
  | nil => rfl
  | cons entry rest ih =>
      have hentry := withoutPnl_calculateTransaction pairs entry.2
      rw [calculateAll]
      split
      · rename_i htransaction
        rw [htransaction] at hentry
        rw [List.lookup_cons, List.lookup_cons]
        split
        · rw [Option.map_some, Option.map_some, hentry]
        · rfl
      · rename_i htransaction
        rw [htransaction] at hentry
        rw [List.lookup_cons, List.lookup_cons]
        split
        · rw [Option.map_some, Option.map_some, hentry]
        · exact ih _

theorem isSome_calculateAll (entries : List (UInt64 × TransactionReport)) (totalPnl : ℚ) :
    (calculateAll pairs entries totalPnl).2.isSome ↔
      ∀ entry ∈ entries, (pairs.getPairInfo entry.2.exchangeId entry.2.tradingPair).isSome := by
  induction entries generalizing totalPnl with
  | nil => simp [calculateAll]
  | cons entry rest ih =>
      have hentry := isSome_calculateTransaction pairs entry.2
      rw [calculateAll, List.forall_mem_cons, ← hentry]
      split
      · rename_i htransaction
        simp [htransaction]
      · rename_i htransaction
        simp [htransaction, ih]

variable (tradeState : TradeState)

theorem find_calculatePnl (key : UInt64) :
    ((calculatePnl pairs tradeState).1.transactionStates.find key).map
        TransactionReport.withoutPnl =
      (tradeState.transactionStates.find key).map TransactionReport.withoutPnl :=
  lookup_calculateAll pairs key _ 0

@[simp]
theorem identities_calculatePnl :
    (calculatePnl pairs tradeState).1.identities = tradeState.identities := by
  funext key
  have hfind := find_calculatePnl pairs tradeState key
  have hidentity : TransactionReport.identity =
      TransactionReport.identity ∘ TransactionReport.withoutPnl := rfl
  rw [TradeState.identities, TradeState.identities, hidentity, ← Option.map_map, hfind,
    Option.map_map]

/-- The calculation succeeds when all the pairs are known. -/
theorem isSome_calculatePnl : (calculatePnl pairs tradeState).2.isSome ↔
    ∀ key transaction, tradeState.transactionStates.find key = some transaction →
      (pairs.getPairInfo transaction.exchangeId transaction.tradingPair).isSome := by
  rw [calculatePnl, isSome_calculateAll]
  simp only [Prod.forall, UnorderedMap.mem_entries_iff]

end PnlCalculator

end CryptoBot.Arbitrage

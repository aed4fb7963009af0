/-
# Evaluating a cycle of two legs

A cycle of one step that buys and one that sells, in either order.  Its evaluation in a state
between two events reads two quotes, opens the trade when the sell venue bids
more than the buy venue asks, and then closes the same trade against the same two
quotes.  What is left of the trade's own state in this is only which transactions
it has, so the evaluation is a function of the two quotes.
-/

import Mathlib.Tactic.Positivity
import CryptoBot.Arbitrage.Dictionary

namespace CryptoBot.Book

open CryptoBot.Common

/-- All prices and quantities are there. -/
structure BBO.Valid (bbo : BBO) : Prop where
  bidPrice : bbo.bidPrice ≠ kPriceInvalid
  askPrice : bbo.askPrice ≠ kPriceInvalid
  bidQty : bbo.bidQty ≠ kQtyInvalid
  askQty : bbo.askQty ≠ kQtyInvalid

end CryptoBot.Book

namespace CryptoBot.Arbitrage

open CryptoBot.Common CryptoBot.Book CryptoBot.Math

/-- One step buys and one step sells. -/
structure ArbitrageCycle.TwoLegged (cycle : ArbitrageCycle) (buy sell : Step) : Prop where
  steps : cycle = [buy, sell] ∨ cycle = [sell, buy]
  buys : buy.operation = .kBuy
  sells : sell.operation = .kSell

theorem ArbitrageCycle.TwoLegged.mem {cycle : ArbitrageCycle} {buy sell : Step}
    (h : cycle.TwoLegged buy sell) : buy ∈ cycle ∧ sell ∈ cycle := by
  obtain hcases | hcases := h.steps <;> simp [hcases]

/-! ## Trades between events -/

namespace ArbitrageStrategyComponent

variable {setting : Setting} {component : ArbitrageStrategyComponent} {cycle : ArbitrageCycle}

def AllClosed (component : ArbitrageStrategyComponent) : Prop :=
  ∀ uidTrade trade, component.tradesState.find uidTrade = some trade → trade.isOpen = false

theorem AllClosed.addArbitrageCycle (h : component.AllClosed) :
    (component.addArbitrageCycle setting cycle).AllClosed := by
  intro uidTrade trade htrade
  cases hfind : component.tradesState.find (setting.hashing.arbitrageCycleHash cycle) with
  | some present =>
      rw [tradesState_addArbitrageCycle_of_some (by rw [hfind, Option.isSome_some])] at htrade
      exact h uidTrade trade htrade
  | none =>
      rw [find_addArbitrageCycle_of_none hfind] at htrade
      split at htrade
      · cases htrade
        rfl
      · exact h uidTrade trade htrade

theorem AllClosed.evaluate (h : component.AllClosed) :
    (component.evaluateOpportunityArbitrageCycle setting cycle).1.AllClosed := by
  obtain hsame | ⟨quotes, found, hfound, heval⟩ := evaluate_cases setting component cycle
  · rw [hsame]
    exact h
  · rw [heval]
    intro uidTrade trade htrade
    rw [UnorderedMap.find_modify] at htrade
    split at htrade
    · rename_i huid
      rw [huid, hfound, Option.map_some] at htrade
      cases htrade
      exact isOpen_evaluateTrade
    · exact h uidTrade trade htrade

theorem AllClosed.evaluateAll (h : component.AllClosed) (cycles : List ArbitrageCycle) :
    (evaluateAll setting component cycles).1.AllClosed := by
  induction cycles generalizing component with
  | nil => exact h
  | cons cycle cycles ih => exact ih h.evaluate

theorem AllClosed.addOrUpdateBBO (h : component.AllClosed) (key : UInt64) (bbo : BBO) :
    (component.addOrUpdateBBO key bbo).AllClosed := by
  rw [addOrUpdateBBO_eq]
  exact h

theorem AllClosed.handleNewBBO (h : component.AllClosed) (event : NewBBO) :
    (component.handleNewBBO setting event).1.AllClosed :=
  (h.addOrUpdateBBO _ event.bbo).evaluateAll _

/-- No trade is open between two events. -/
theorem allClosed_run (setting : Setting) (events : List Event) :
    ((machine setting).run events).AllClosed := by
  induction events using List.reverseRecOn with
  | nil =>
      intro uidTrade trade htrade
      cases htrade
  | append_singleton events event ih =>
      rw [Machine.run_concat]
      cases event with
      | addArbitrageCycle cycle => exact ih.addArbitrageCycle
      | newBBO event => exact ih.handleNewBBO event

end ArbitrageStrategyComponent

/-! ## Quotes of two legs -/

/-- What the loop over the two steps reads. -/
def Quotes.ofLegs (hashing : Hashing) (buy sell : Step) (buyBbo sellBbo : BBO) : Quotes where
  openBuyPrice := buyBbo.askPrice
  exitBuyPrice := buyBbo.bidPrice
  openSellPrice := sellBbo.bidPrice
  exitSellPrice := sellBbo.askPrice
  openBuyQty := buyBbo.askQty
  exitBuyQty := buyBbo.bidQty
  openSellQty := sellBbo.bidQty
  exitSellQty := sellBbo.askQty
  transactionBuy := hashing.stepHash buy
  transactionSell := hashing.stepHash sell

/-- What the two exits are worth more than the two entries. -/
def Quotes.profit (quotes : Quotes) : ℤ :=
  (quotes.exitBuyPrice.toNat - quotes.openBuyPrice.toNat) +
    (quotes.openSellPrice.toNat - quotes.exitSellPrice.toNat)

theorem Quotes.complete_ofLegs {hashing : Hashing} {buy sell : Step} {buyBbo sellBbo : BBO} :
    (Quotes.ofLegs hashing buy sell buyBbo sellBbo).Complete ↔ buyBbo.Valid ∧ sellBbo.Valid := by
  constructor
  · rintro ⟨h1, h2, h3, h4, h5, h6, h7, h8⟩
    exact ⟨⟨h3, h1, h6, h5⟩, ⟨h2, h4, h7, h8⟩⟩
  · rintro ⟨hbuy, hsell⟩
    exact ⟨hbuy.askPrice, hsell.bidPrice, hbuy.bidPrice, hsell.askPrice, hbuy.askQty, hbuy.bidQty,
      hsell.bidQty, hsell.askQty⟩

namespace ArbitrageStrategyComponent

variable {setting : Setting} {component : ArbitrageStrategyComponent} {cycle : ArbitrageCycle}
  {buy sell : Step}

/-- The order of the two steps does not matter. -/
theorem readQuotes_of_twoLegged (hlegs : cycle.TwoLegged buy sell) :
    component.readQuotes setting cycle =
      (component.exchangeBboMap (setting.hashing.venueKey buy.venue)).bind fun buyBbo =>
        (component.exchangeBboMap (setting.hashing.venueKey sell.venue)).map fun sellBbo =>
          .ofLegs setting.hashing buy sell buyBbo sellBbo := by
  have hbuy : setting.hashing.hashCombined buy.exchangeId buy.marketType buy.tradingPair =
      setting.hashing.venueKey buy.venue := rfl
  have hsell : setting.hashing.hashCombined sell.exchangeId sell.marketType sell.tradingPair =
      setting.hashing.venueKey sell.venue := rfl
  obtain hsteps | hsteps := hlegs.steps
  · subst hsteps
    simp only [readQuotes, List.foldlM_cons, List.foldlM_nil, hbuy, hsell]
    cases component.exchangeBboMap (setting.hashing.venueKey buy.venue) <;>
      cases component.exchangeBboMap (setting.hashing.venueKey sell.venue) <;>
      simp [Quotes.read, hlegs.buys, hlegs.sells, Quotes.ofLegs]
  · subst hsteps
    simp only [readQuotes, List.foldlM_cons, List.foldlM_nil, hbuy, hsell]
    cases component.exchangeBboMap (setting.hashing.venueKey buy.venue) <;>
      cases component.exchangeBboMap (setting.hashing.venueKey sell.venue) <;>
      simp [Quotes.read, hlegs.buys, hlegs.sells, Quotes.ofLegs]

end ArbitrageStrategyComponent

/-! ## The two phases on a closed trade -/

/-- Neither a loss nor zero, also when the denominator is zero. -/
theorem Percent.isPositive_iff {numerator denominator : ℚ} (h : 0 ≤ denominator) :
    (Percent.ofQuotient numerator denominator).le0 = false ∧
      (Percent.ofQuotient numerator denominator).ge0 = true ↔ 0 < numerator := by
  rw [ofQuotient]
  split
  · split
    · rename_i hzero
      simp [le0, ge0, hzero]
    · simp [le0, ge0]
  · rename_i hne
    have hpositive : 0 < denominator := lt_of_le_of_ne h (Ne.symm hne)
    simp only [le0, ge0, decide_eq_false_iff_not, not_le, decide_eq_true_eq]
    constructor
    · rintro ⟨hlt, -⟩
      by_contra hnumerator
      have hquotient : numerator / denominator * 100 ≤ 0 :=
        mul_nonpos_of_nonpos_of_nonneg
          (div_nonpos_of_nonpos_of_nonneg (not_lt.mp hnumerator) h) (by norm_num)
      exact absurd hlt (not_lt.mpr hquotient)
    · intro hnumerator
      have hquotient : 0 < numerator / denominator * 100 := by positivity
      exact ⟨hquotient, hquotient.le⟩

namespace TradeState

variable {trade : TradeState} {quotes : Quotes} {pairs : ExchangeTradingPairs} {uidTrade : UInt64}

/-- The trade has a transaction for each of the two legs. -/
structure HasLegs (trade : TradeState) (quotes : Quotes) (buy sell : TransactionReport) :
    Prop where
  ne : quotes.transactionBuy ≠ quotes.transactionSell
  buy : trade.transactionStates.find quotes.transactionBuy = some buy
  sell : trade.transactionStates.find quotes.transactionSell = some sell

variable {buy sell : TransactionReport}

theorem HasLegs.enter (h : trade.HasLegs quotes buy sell) :
    (trade.enter quotes).HasLegs quotes
      { buy with entryPrice := quotes.openBuyPrice, entryQty := quotes.openBuyQty }
      { sell with entryPrice := quotes.openSellPrice, entryQty := quotes.openSellQty } where
  ne := h.ne
  buy := by simp [TradeState.enter, modifyTransaction, h.ne, h.buy]
  sell := by simp [TradeState.enter, modifyTransaction, h.ne.symm, h.sell]

theorem HasLegs.close (h : trade.HasLegs quotes buy sell) :
    HasLegs { trade with isOpen := false } quotes buy sell :=
  ⟨h.ne, h.buy, h.sell⟩

theorem HasLegs.leave (h : trade.HasLegs quotes buy sell) :
    (trade.leave quotes).HasLegs quotes
      { buy with exitPrice := quotes.exitBuyPrice, exitQty := quotes.exitBuyQty }
      { sell with exitPrice := quotes.exitSellPrice, exitQty := quotes.exitSellQty } where
  ne := h.ne
  buy := by simp [TradeState.leave, modifyTransaction, h.ne, h.buy]
  sell := by simp [TradeState.leave, modifyTransaction, h.ne.symm, h.sell]

/-- A trade that was just opened is profitable when its two exits are worth more
than its two entries. -/
theorem isProfitable_enter (h : trade.HasLegs quotes buy sell) :
    (trade.enter quotes).IsProfitable quotes ↔
      0 < quotes.profit := by
  have hbuy : (trade.enter quotes).entryPrice quotes.transactionBuy = quotes.openBuyPrice := by
    simp [entryPrice, h.enter.buy]
  have hsell : (trade.enter quotes).entryPrice quotes.transactionSell = quotes.openSellPrice := by
    simp [entryPrice, h.enter.sell]
  rw [IsProfitable, profitOrLossPercent, hbuy, hsell,
    Percent.isPositive_iff (Nat.cast_nonneg _), Quotes.profit]
  exact_mod_cast Iff.rfl

theorem report_takeProfit :
    (trade.takeProfit quotes pairs uidTrade).2 =
      (PnlCalculator.calculatePnl pairs (trade.leave quotes)).2.map fun pnl =>
        ⟨uidTrade, pnl,
          (PnlCalculator.calculatePnl pairs (trade.leave quotes)).1.transactionStates⟩ := by
  simp only [takeProfit]
  split
  · rename_i hstatus
    rw [hstatus, Option.map_none]
  · rename_i hstatus
    rw [hstatus, Option.map_some]

/-- The report of a trade that is entered and left at the same quotes. -/
def roundTrip (trade : TradeState) (quotes : Quotes) (pairs : ExchangeTradingPairs)
    (uidTrade : UInt64) : Option ArbitrageReport :=
  ({ trade.enter quotes with isOpen := false }.takeProfit quotes pairs uidTrade).2

/-- The second phase on a trade that was just opened. -/
theorem report_tryClose_enter (h : trade.HasLegs quotes buy sell) :
    ((trade.enter quotes).tryClose quotes pairs uidTrade).2 =
      if 0 < quotes.profit then trade.roundTrip quotes pairs uidTrade else none := by
  obtain ⟨hclosed, -⟩ | ⟨-, hprofit, hclose⟩ | ⟨-, hprofit, hclose⟩ :=
    tryClose_cases (trade.enter quotes) quotes pairs uidTrade
  · cases hclosed
  · rw [hclose, if_neg (mt (isProfitable_enter h).mpr hprofit)]
  · rw [hclose, if_pos ((isProfitable_enter h).mp hprofit), roundTrip]

end TradeState

/-! ## The evaluation -/

namespace ArbitrageStrategyComponent

variable {setting : Setting} {component : ArbitrageStrategyComponent} {cycle : ArbitrageCycle}
  {cycles : List ArbitrageCycle} {buy sell : Step} {buyBbo sellBbo : BBO}

theorem effects_evaluateTrade {uidTrade : UInt64} {quotes : Quotes} {trade : TradeState}
    (hclosed : trade.isOpen = false) :
    (evaluateTrade setting uidTrade quotes trade).2 =
      if quotes.openSellPrice > quotes.openBuyPrice then
        .opened uidTrade quotes.openBuyPrice quotes.openSellPrice ::
          (((trade.enter quotes).tryClose quotes setting.pairs uidTrade).2.map
            Effect.reported).toList
      else [] := by
  simp only [evaluateTrade, TradeState.tryOpen, hclosed, Bool.false_eq_true, if_false]
  split
  · rfl
  · simp [TradeState.tryClose, hclosed]

/-- Without two complete quotes nothing happens. -/
theorem evaluate_of_incomplete (hlegs : cycle.TwoLegged buy sell)
    (h : ∀ buyBbo sellBbo,
      component.exchangeBboMap (setting.hashing.venueKey buy.venue) = some buyBbo →
      component.exchangeBboMap (setting.hashing.venueKey sell.venue) = some sellBbo →
      ¬ (buyBbo.Valid ∧ sellBbo.Valid)) :
    component.evaluateOpportunityArbitrageCycle setting cycle = (component, []) := by
  rw [evaluateOpportunityArbitrageCycle, readQuotes_of_twoLegged hlegs]
  cases hbuy : component.exchangeBboMap (setting.hashing.venueKey buy.venue) with
  | none => rfl
  | some buyBbo =>
      cases hsell : component.exchangeBboMap (setting.hashing.venueKey sell.venue) with
      | none => rfl
      | some sellBbo => exact if_neg (mt Quotes.complete_ofLegs.mp (h buyBbo sellBbo hbuy hsell))

/-- With two complete quotes a trade that has the two transactions goes through its
two phases. -/
theorem effects_evaluate_of_complete {trade : TradeState} (hlegs : cycle.TwoLegged buy sell)
    (hbuy : component.exchangeBboMap (setting.hashing.venueKey buy.venue) = some buyBbo)
    (hsell : component.exchangeBboMap (setting.hashing.venueKey sell.venue) = some sellBbo)
    (hvalid : buyBbo.Valid ∧ sellBbo.Valid)
    (htrade : component.tradesState.find (setting.hashing.arbitrageCycleHash cycle) = some trade)
    (hbuyFind : (trade.transactionStates.find (setting.hashing.stepHash buy)).isSome)
    (hsellFind : (trade.transactionStates.find (setting.hashing.stepHash sell)).isSome) :
    (component.evaluateOpportunityArbitrageCycle setting cycle).2 =
      (evaluateTrade setting (setting.hashing.arbitrageCycleHash cycle)
        (.ofLegs setting.hashing buy sell buyBbo sellBbo) trade).2 := by
  rw [Option.isSome_iff_ne_none, Ne, ← Option.isNone_iff_eq_none] at hbuyFind hsellFind
  simp only [evaluateOpportunityArbitrageCycle, readQuotes_of_twoLegged hlegs, hbuy, hsell,
    Option.bind_some, Option.map_some, Quotes.complete_ofLegs.mpr hvalid, if_true, htrade]
  simp only [Quotes.ofLegs, hbuyFind, hsellFind, Bool.false_eq_true, if_false]

/-- With two complete quotes the trade of the cycle goes through its two phases. -/
theorem evaluate_of_complete (hregistered : Registered setting component cycles)
    (hcycle : cycle ∈ cycles) (hlegs : cycle.TwoLegged buy sell)
    (hsteps : Set.InjOn setting.hashing.stepHash { step | step ∈ cycle })
    (hbuy : component.exchangeBboMap (setting.hashing.venueKey buy.venue) = some buyBbo)
    (hsell : component.exchangeBboMap (setting.hashing.venueKey sell.venue) = some sellBbo)
    (hvalid : buyBbo.Valid ∧ sellBbo.Valid) :
    ∃ trade buyTransaction sellTransaction,
      component.tradesState.find (setting.hashing.arbitrageCycleHash cycle) = some trade ∧
      trade.identities = (newTrade setting cycle).identities ∧
      trade.HasLegs (.ofLegs setting.hashing buy sell buyBbo sellBbo) buyTransaction
        sellTransaction ∧
      buyTransaction.identity = (buy.exchangeId, buy.tradingPair, .kBuy) ∧
      sellTransaction.identity = (sell.exchangeId, sell.tradingPair, .kSell) ∧
      (component.evaluateOpportunityArbitrageCycle setting cycle).2 =
        (evaluateTrade setting (setting.hashing.arbitrageCycleHash cycle)
          (.ofLegs setting.hashing buy sell buyBbo sellBbo) trade).2 := by
  obtain ⟨trade, htrade⟩ := hregistered.exists_trade hcycle
  have hidentities := hregistered.identities cycle hcycle trade htrade
  have hbuyIdentity := identities_newTrade_of_mem hsteps hlegs.mem.1
  have hsellIdentity := identities_newTrade_of_mem hsteps hlegs.mem.2
  rw [← hidentities, TradeState.identities, Option.map_eq_some_iff] at hbuyIdentity hsellIdentity
  obtain ⟨buyTransaction, hbuyFind, hbuyIdentity⟩ := hbuyIdentity
  obtain ⟨sellTransaction, hsellFind, hsellIdentity⟩ := hsellIdentity
  have hne : setting.hashing.stepHash buy ≠ setting.hashing.stepHash sell := by
    intro hhash
    have hequal := congrArg Step.operation (hsteps hlegs.mem.1 hlegs.mem.2 hhash)
    rw [hlegs.buys, hlegs.sells] at hequal
    cases hequal
  refine ⟨trade, buyTransaction, sellTransaction, htrade, hidentities,
    ⟨hne, hbuyFind, hsellFind⟩, ?_, ?_, ?_⟩
  · rw [hbuyIdentity, hlegs.buys]
  · rw [hsellIdentity, hlegs.sells]
  · apply effects_evaluate_of_complete hlegs hbuy hsell hvalid htrade
    · rw [hbuyFind, Option.isSome_some]
    · rw [hsellFind, Option.isSome_some]

end ArbitrageStrategyComponent

end CryptoBot.Arbitrage

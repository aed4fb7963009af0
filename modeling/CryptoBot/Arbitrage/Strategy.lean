/-
# The arbitrage strategy

`ArbitrageStrategyComponent` keeps the last best prices of every venue it hears
of, a dictionary that lists under the key of each venue the cycles through it,
and one trade for each cycle.  A new quote evaluates the cycles listed under its
venue.

An evaluation reads the quotes of the steps of a cycle, the last step of each
operation deciding, and then the trade of the cycle in two phases.  A trade that
is closed is opened when the cycle crosses, and a trade that is open is closed,
whatever the prices are.  Since the second phase tests the flag that the first
one has set, a trade is never open between two events.

The handlers run on a thread pool; here one event is handled at a time.
-/

import CryptoBot.Arbitrage.Trade
import CryptoBot.Math.Machine

namespace CryptoBot.Arbitrage

open CryptoBot.Common CryptoBot.Book CryptoBot.Math

/-- What the strategy is built with: the hash functions, the configured pairs, and
the arrangement of each of its hash tables. -/
structure Setting where
  hashing : Hashing
  pairs : ExchangeTradingPairs
  dictionaryPlacement : Placement (UInt64 × ArbitrageCycle)
  cyclePlacement : Placement ArbitrageCycle
  tradePlacement : Placement (UInt64 × TradeState)
  transactionPlacement : Placement (UInt64 × TransactionReport)

/-! ## The dictionary -/

/-- A multimap from the keys of venues to cycles, as it is enumerated. -/
abbrev TradeDictionary := List (UInt64 × ArbitrageCycle)

namespace TradeDictionary

def equalRange (dictionary : TradeDictionary) (key : UInt64) : List ArbitrageCycle :=
  (dictionary.filter fun entry => entry.1 = key).map Prod.snd

/-- The enumeration of the set of all cycles. -/
def getUniqueCycles (placement : Placement ArbitrageCycle) (dictionary : TradeDictionary) :
    List ArbitrageCycle :=
  placement.insertAll [] (dictionary.map Prod.snd)

end TradeDictionary

/-! ## A trade and the quotes of its cycle -/

/-- What an evaluation reads before it decides.  The two hashes are not initialised
in the source; they are read only after a step of their operation has set them. -/
structure Quotes where
  openBuyPrice : Price := kPriceInvalid
  exitBuyPrice : Price := kPriceInvalid
  openSellPrice : Price := kPriceInvalid
  exitSellPrice : Price := kPriceInvalid
  openBuyQty : Qty := kQtyInvalid
  exitBuyQty : Qty := kQtyInvalid
  openSellQty : Qty := kQtyInvalid
  exitSellQty : Qty := kQtyInvalid
  transactionBuy : UInt64 := 0
  transactionSell : UInt64 := 0
  deriving DecidableEq, Repr

/-- A step bought at the ask and left at the bid, or sold at the bid and left at the
ask. -/
def Quotes.read (hashing : Hashing) (quotes : Quotes) (step : Step) (bbo : BBO) : Quotes :=
  match step.operation with
  | .kBuy =>
      { quotes with
        openBuyPrice := bbo.askPrice
        openBuyQty := bbo.askQty
        exitBuyPrice := bbo.bidPrice
        exitBuyQty := bbo.bidQty
        transactionBuy := hashing.stepHash step }
  | .kSell =>
      { quotes with
        openSellPrice := bbo.bidPrice
        openSellQty := bbo.bidQty
        exitSellPrice := bbo.askPrice
        exitSellQty := bbo.askQty
        transactionSell := hashing.stepHash step }

/-- The eight checks after the loop. -/
def Quotes.Complete (quotes : Quotes) : Prop :=
  quotes.openBuyPrice ≠ kPriceInvalid ∧ quotes.openSellPrice ≠ kPriceInvalid ∧
    quotes.exitBuyPrice ≠ kPriceInvalid ∧ quotes.exitSellPrice ≠ kPriceInvalid ∧
    quotes.openBuyQty ≠ kQtyInvalid ∧ quotes.exitBuyQty ≠ kQtyInvalid ∧
    quotes.openSellQty ≠ kQtyInvalid ∧ quotes.exitSellQty ≠ kQtyInvalid

instance (quotes : Quotes) : Decidable quotes.Complete :=
  inferInstanceAs (Decidable (_ ∧ _))

/-- A percentage as a double: a division by zero is infinite, and `0 / 0` is not a
number. -/
inductive Percent
  | finite (value : ℚ)
  | infinite (positive : Bool)
  | nan
  deriving DecidableEq

namespace Percent

def ofQuotient (numerator denominator : ℚ) : Percent :=
  if denominator = 0 then
    if numerator = 0 then .nan else .infinite (0 < numerator)
  else .finite (numerator / denominator * 100)

/-- `percent >= 0`, false for what is not a number. -/
def ge0 : Percent → Bool
  | .finite value => 0 ≤ value
  | .infinite positive => positive
  | .nan => false

/-- `percent <= 0`. -/
def le0 : Percent → Bool
  | .finite value => value ≤ 0
  | .infinite positive => !positive
  | .nan => false

end Percent

structure ArbitrageReport where
  uidTrade : UInt64
  pnl : ℚ
  transactions : UnorderedMap UInt64 TransactionReport

namespace TradeState

variable (trade : TradeState) (quotes : Quotes)

/-- `transaction_states[key]` for a key that is present, changed in place. -/
def modifyTransaction (key : UInt64) (change : TransactionReport → TransactionReport) :
    TradeState :=
  { trade with transactionStates := trade.transactionStates.modify key change }

/-- The price at which a transaction was entered. -/
def entryPrice (key : UInt64) : Price :=
  ((trade.transactionStates.find key).map TransactionReport.entryPrice).getD kPriceInvalid

/-- The entries that opening a trade writes. -/
def enter : TradeState :=
  let trade := { trade with isOpen := true }
  let trade := trade.modifyTransaction quotes.transactionBuy fun transaction =>
    { transaction with entryPrice := quotes.openBuyPrice, entryQty := quotes.openBuyQty }
  trade.modifyTransaction quotes.transactionSell fun transaction =>
    { transaction with entryPrice := quotes.openSellPrice, entryQty := quotes.openSellQty }

/-- The exits that taking the profit of a trade writes. -/
def leave : TradeState :=
  let trade := trade.modifyTransaction quotes.transactionBuy fun transaction =>
    { transaction with exitPrice := quotes.exitBuyPrice, exitQty := quotes.exitBuyQty }
  trade.modifyTransaction quotes.transactionSell fun transaction =>
    { transaction with exitPrice := quotes.exitSellPrice, exitQty := quotes.exitSellQty }

/-- The block for a closed trade, and whether it opened the trade. -/
def tryOpen : TradeState × Bool :=
  if trade.isOpen then (trade, false)
  else if quotes.openSellPrice > quotes.openBuyPrice then (trade.enter quotes, true)
  else (trade, false)

def profitOrLossPercent : Percent :=
  let buyEntryPrice := trade.entryPrice quotes.transactionBuy
  let sellEntryPrice := trade.entryPrice quotes.transactionSell
  let profitOrLossBuy : ℚ := quotes.exitBuyPrice.toNat - buyEntryPrice.toNat
  let profitOrLossSell : ℚ := sellEntryPrice.toNat - quotes.exitSellPrice.toNat
  .ofQuotient (profitOrLossBuy + profitOrLossSell) buyEntryPrice.toNat

/-- Write the exits, and report the trade if its profit can be calculated. -/
def takeProfit (pairs : ExchangeTradingPairs) (uidTrade : UInt64) :
    TradeState × Option ArbitrageReport :=
  let (trade, status) := PnlCalculator.calculatePnl pairs (trade.leave quotes)
  match status with
  | none => (trade, none)
  | some pnl =>
      let trade := { trade with pnl }
      (trade, some ⟨uidTrade, trade.pnl, trade.transactionStates⟩)

/-- The block for an open trade, and the report it sends.  Both thresholds are
zero, and the stop loss is tested first. -/
def tryClose (pairs : ExchangeTradingPairs) (uidTrade : UInt64) :
    TradeState × Option ArbitrageReport :=
  if trade.isOpen then
    let percent := trade.profitOrLossPercent quotes
    let takesProfit := percent.ge0
    let stopLoss := percent.le0
    let trade := { trade with isOpen := false }
    if stopLoss then (trade, none)
    else if takesProfit then trade.takeProfit quotes pairs uidTrade
    else (trade, none)
  else (trade, none)

variable {trade quotes}

theorem identities_modifyTransaction {key : UInt64}
    {change : TransactionReport → TransactionReport}
    (h : ∀ transaction, (change transaction).identity = transaction.identity) :
    (trade.modifyTransaction key change).identities = trade.identities := by
  funext other
  simp only [identities, modifyTransaction, UnorderedMap.find_modify]
  split
  · rw [Option.map_map]
    congr 1
    funext transaction
    exact h transaction
  · rfl

@[simp]
theorem identities_enter : (trade.enter quotes).identities = trade.identities := by
  rw [enter, identities_modifyTransaction, identities_modifyTransaction]
  · rfl
  · exact fun _ => rfl
  · exact fun _ => rfl

@[simp]
theorem identities_leave : (trade.leave quotes).identities = trade.identities := by
  rw [leave, identities_modifyTransaction, identities_modifyTransaction]
  · exact fun _ => rfl
  · exact fun _ => rfl

@[simp]
theorem identities_tryOpen : (trade.tryOpen quotes).1.identities = trade.identities := by
  rw [tryOpen]
  split
  · rfl
  · split
    · exact identities_enter
    · rfl

variable {pairs : ExchangeTradingPairs} {uidTrade : UInt64}

@[simp]
theorem identities_takeProfit :
    (trade.takeProfit quotes pairs uidTrade).1.identities = trade.identities := by
  have hcalculate := PnlCalculator.identities_calculatePnl pairs (trade.leave quotes)
  rw [identities_leave] at hcalculate
  simp only [takeProfit]
  split
  · exact hcalculate
  · exact hcalculate

@[simp]
theorem isOpen_takeProfit :
    (trade.takeProfit quotes pairs uidTrade).1.isOpen = trade.isOpen := by
  simp only [takeProfit]
  split <;> rfl

/-- The profit of a trade is positive. -/
def IsProfitable (trade : TradeState) (quotes : Quotes) : Prop :=
  (trade.profitOrLossPercent quotes).le0 = false ∧ (trade.profitOrLossPercent quotes).ge0 = true

/-- All that the second phase can do. -/
theorem tryClose_cases (trade : TradeState) (quotes : Quotes) (pairs : ExchangeTradingPairs)
    (uidTrade : UInt64) :
    (trade.isOpen = false ∧ trade.tryClose quotes pairs uidTrade = (trade, none)) ∨
      (trade.isOpen = true ∧ ¬ trade.IsProfitable quotes ∧
        trade.tryClose quotes pairs uidTrade = ({ trade with isOpen := false }, none)) ∨
      (trade.isOpen = true ∧ trade.IsProfitable quotes ∧
        trade.tryClose quotes pairs uidTrade =
          { trade with isOpen := false }.takeProfit quotes pairs uidTrade) := by
  cases hopen : trade.isOpen with
  | false => simp [tryClose, hopen]
  | true =>
      right
      simp only [tryClose, hopen, if_true, IsProfitable]
      cases (trade.profitOrLossPercent quotes).le0 <;>
        cases (trade.profitOrLossPercent quotes).ge0 <;> simp

@[simp]
theorem identities_tryClose :
    (trade.tryClose quotes pairs uidTrade).1.identities = trade.identities := by
  obtain ⟨-, hclose⟩ | ⟨-, -, hclose⟩ | ⟨-, -, hclose⟩ := tryClose_cases trade quotes pairs uidTrade
  · rw [hclose]
  · rw [hclose]
    rfl
  · rw [hclose, identities_takeProfit]
    rfl

/-- A trade is closed after its second phase. -/
@[simp]
theorem isOpen_tryClose : (trade.tryClose quotes pairs uidTrade).1.isOpen = false := by
  obtain ⟨hclosed, hclose⟩ | ⟨-, -, hclose⟩ | ⟨-, -, hclose⟩ :=
    tryClose_cases trade quotes pairs uidTrade
  · rw [hclose, hclosed]
  · rw [hclose]
  · rw [hclose, isOpen_takeProfit]

end TradeState

/-! ## The component -/

/-- What an observer sees of the handling of a quote. -/
inductive Effect
  | evaluated (cycle : ArbitrageCycle)
  | opened (uidTrade : UInt64) (buyEntryPrice sellEntryPrice : Price)
  | reported (report : ArbitrageReport)

structure ArbitrageStrategyComponent where
  exchangeBboMap : UInt64 → Option BBO := fun _ => none
  exchangeTradingPairArbitrageMap : TradeDictionary := []
  tradesState : UnorderedMap UInt64 TradeState := .empty

namespace ArbitrageStrategyComponent

variable (setting : Setting) (component : ArbitrageStrategyComponent)

/-- List the cycle under the venue of one of its steps. -/
def addStep (cycle : ArbitrageCycle) (dictionary : TradeDictionary) (step : Step) :
    TradeDictionary :=
  let key := setting.hashing.hashCombined step.exchangeId step.marketType step.tradingPair
  let range := dictionary.equalRange key
  let exist := range.any fun listed => listed = cycle
  if exist then dictionary
  else setting.dictionaryPlacement.insert dictionary (key, cycle)

/-- The transactions of a new trade. -/
def transactionsOf (cycle : ArbitrageCycle) : UnorderedMap UInt64 TransactionReport :=
  cycle.foldl (fun states step =>
    states.set setting.transactionPlacement (setting.hashing.stepHash step) (.ofStep step)) .empty

def addArbitrageCycle (cycle : ArbitrageCycle) : ArbitrageStrategyComponent :=
  let component :=
    { component with
      exchangeTradingPairArbitrageMap :=
        cycle.foldl (addStep setting cycle) component.exchangeTradingPairArbitrageMap }
  let uidTrade := setting.hashing.arbitrageCycleHash cycle
  if (component.tradesState.find uidTrade).isSome then component
  else
    let tradesState := component.tradesState.set setting.tradePlacement uidTrade {}
    { component with
      tradesState := tradesState.modify uidTrade fun trade =>
        { trade with transactionStates := transactionsOf setting cycle } }

def addOrUpdateBBO (key : UInt64) (bbo : BBO) : ArbitrageStrategyComponent :=
  let (exchangeBboMap, _, inserted) := tryEmplace component.exchangeBboMap key bbo
  if inserted then { component with exchangeBboMap }
  else { component with exchangeBboMap := Function.update exchangeBboMap key (some bbo) }

/-- The loop over the steps; a venue without a quote ends the evaluation. -/
def readQuotes (cycle : ArbitrageCycle) : Option Quotes :=
  cycle.foldlM (fun quotes step =>
    let key := setting.hashing.hashCombined step.exchangeId step.marketType step.tradingPair
    (component.exchangeBboMap key).map (quotes.read setting.hashing step)) {}

/-- The two phases of an evaluation, on the trade of the cycle. -/
def evaluateTrade (uidTrade : UInt64) (quotes : Quotes) (trade : TradeState) :
    TradeState × List Effect :=
  let (trade, isOpened) := trade.tryOpen quotes
  let (trade, report) := trade.tryClose quotes setting.pairs uidTrade
  let openings :=
    if isOpened then [Effect.opened uidTrade quotes.openBuyPrice quotes.openSellPrice] else []
  (trade, openings ++ (report.map Effect.reported).toList)

def evaluateOpportunityArbitrageCycle (cycle : ArbitrageCycle) :
    ArbitrageStrategyComponent × List Effect :=
  match component.readQuotes setting cycle with
  | none => (component, [])
  | some quotes =>
      if quotes.Complete then
        let uidTrade := setting.hashing.arbitrageCycleHash cycle
        match component.tradesState.find uidTrade with
        | none => (component, [])
        | some trade =>
            if (trade.transactionStates.find quotes.transactionBuy).isNone then (component, [])
            else if (trade.transactionStates.find quotes.transactionSell).isNone then
              (component, [])
            else
              let (trade, effects) := evaluateTrade setting uidTrade quotes trade
              ({ component with
                  tradesState := component.tradesState.modify uidTrade fun _ => trade },
                effects)
      else (component, [])

/-- The loop over the cycles listed under a venue. -/
def evaluateAll : ArbitrageStrategyComponent → List ArbitrageCycle →
    ArbitrageStrategyComponent × List Effect
  | component, [] => (component, [])
  | component, cycle :: rest =>
      let (component, effects) := component.evaluateOpportunityArbitrageCycle setting cycle
      let (component, later) := evaluateAll component rest
      (component, .evaluated cycle :: effects ++ later)

def handleNewBBO (event : NewBBO) : ArbitrageStrategyComponent × List Effect :=
  let key := setting.hashing.hashCombined event.exchangeId event.marketType event.tradingPair
  let component := component.addOrUpdateBBO key event.bbo
  evaluateAll setting component (component.exchangeTradingPairArbitrageMap.equalRange key)

inductive Event
  | addArbitrageCycle (cycle : ArbitrageCycle)
  | newBBO (event : NewBBO)
  deriving DecidableEq, Repr

def step : Event → ArbitrageStrategyComponent × List Effect
  | .addArbitrageCycle cycle => (component.addArbitrageCycle setting cycle, [])
  | .newBBO event => component.handleNewBBO setting event

/-- The runs of a component without cycles and quotes. -/
def machine : Machine ArbitrageStrategyComponent Event Effect := ⟨{}, step setting⟩

/-! ## What an evaluation changes -/

theorem addOrUpdateBBO_eq (key : UInt64) (bbo : BBO) :
    component.addOrUpdateBBO key bbo =
      { component with
        exchangeBboMap := Function.update component.exchangeBboMap key (some bbo) } := by
  cases hkey : component.exchangeBboMap key with
  | none => simp [addOrUpdateBBO, tryEmplace_of_none hkey]
  | some present => simp [addOrUpdateBBO, tryEmplace_of_some hkey]

section Evaluate

variable {setting} {component} {cycle : ArbitrageCycle}

@[simp]
theorem identities_evaluateTrade {uidTrade : UInt64} {quotes : Quotes} {trade : TradeState} :
    (evaluateTrade setting uidTrade quotes trade).1.identities = trade.identities := by
  rw [evaluateTrade, TradeState.identities_tryClose, TradeState.identities_tryOpen]

@[simp]
theorem isOpen_evaluateTrade {uidTrade : UInt64} {quotes : Quotes} {trade : TradeState} :
    (evaluateTrade setting uidTrade quotes trade).1.isOpen = false :=
  TradeState.isOpen_tryClose

/-- An evaluation does nothing, or it goes through the two phases of the trade. -/
theorem evaluate_cases (setting : Setting) (component : ArbitrageStrategyComponent)
    (cycle : ArbitrageCycle) :
    component.evaluateOpportunityArbitrageCycle setting cycle = (component, []) ∨
      ∃ quotes trade, component.tradesState.find (setting.hashing.arbitrageCycleHash cycle) =
          some trade ∧
        component.evaluateOpportunityArbitrageCycle setting cycle =
          ({ component with
              tradesState := component.tradesState.modify (setting.hashing.arbitrageCycleHash cycle)
                fun _ => (evaluateTrade setting (setting.hashing.arbitrageCycleHash cycle) quotes
                  trade).1 },
            (evaluateTrade setting (setting.hashing.arbitrageCycleHash cycle) quotes trade).2) := by
  simp only [evaluateOpportunityArbitrageCycle]
  cases component.readQuotes setting cycle with
  | none => exact .inl rfl
  | some quotes =>
      by_cases hcomplete : quotes.Complete
      · simp only [hcomplete, if_true]
        cases component.tradesState.find (setting.hashing.arbitrageCycleHash cycle) with
        | none => exact .inl rfl
        | some trade =>
            dsimp only
            split_ifs
            · exact .inl rfl
            · exact .inl rfl
            · exact .inr ⟨quotes, trade, rfl, rfl⟩
      · simp only [hcomplete, if_false, true_or]

/-- The later component has the earlier one's quotes, cycles and trades, with the
same transactions. -/
structure Keeps (earlier later : ArbitrageStrategyComponent) : Prop where
  exchangeBboMap : later.exchangeBboMap = earlier.exchangeBboMap
  dictionary : later.exchangeTradingPairArbitrageMap = earlier.exchangeTradingPairArbitrageMap
  keys : later.tradesState.keys = earlier.tradesState.keys
  identities : ∀ uidTrade, (later.tradesState.find uidTrade).map TradeState.identities =
    (earlier.tradesState.find uidTrade).map TradeState.identities

theorem Keeps.refl (component : ArbitrageStrategyComponent) : component.Keeps component :=
  ⟨rfl, rfl, rfl, fun _ => rfl⟩

theorem Keeps.trans {first second third : ArbitrageStrategyComponent}
    (hfirst : first.Keeps second) (hsecond : second.Keeps third) : first.Keeps third where
  exchangeBboMap := hsecond.exchangeBboMap.trans hfirst.exchangeBboMap
  dictionary := hsecond.dictionary.trans hfirst.dictionary
  keys := hsecond.keys.trans hfirst.keys
  identities uidTrade := (hsecond.identities uidTrade).trans (hfirst.identities uidTrade)

theorem keeps_evaluate :
    component.Keeps (component.evaluateOpportunityArbitrageCycle setting cycle).1 := by
  obtain hsame | ⟨quotes, trade, htrade, heval⟩ := evaluate_cases setting component cycle
  · rw [hsame]
    exact .refl component
  · rw [heval]
    refine ⟨rfl, rfl, UnorderedMap.keys_modify _ _ _, fun uidTrade => ?_⟩
    rw [UnorderedMap.find_modify]
    split
    · rename_i huid
      rw [huid, htrade]
      simp
    · rfl

theorem keeps_evaluateAll (cycles : List ArbitrageCycle) :
    component.Keeps (evaluateAll setting component cycles).1 := by
  induction cycles generalizing component with
  | nil => exact .refl component
  | cons cycle cycles ih => exact keeps_evaluate.trans ih

theorem keeps_handleNewBBO (event : NewBBO) :
    (component.addOrUpdateBBO (setting.hashing.venueKey (venueOf event)) event.bbo).Keeps
      (component.handleNewBBO setting event).1 :=
  keeps_evaluateAll _

end Evaluate

end ArbitrageStrategyComponent

end CryptoBot.Arbitrage

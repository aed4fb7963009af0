/-
# The sign of a reported profit

The strategy takes a profit when the prices of the two legs, taken together, are worth
more at the exit than at the entry.  The profit it then reports weighs each leg with
the smaller of its two quantities and with the precisions of its venue.  The weights of
the two legs have nothing to do with each other, so a leg that loses little in prices
may lose more than the other one wins.

The law says when this does not happen: at every report of a run neither leg loses and
one that wins trades something, or the weighted loss of one leg is below the weighted
gain of the other.
-/

import Mathlib.Tactic.FieldSimp
import Mathlib.Tactic.FinCases
import Mathlib.Tactic.Linarith
import Mathlib.Tactic.Ring
import CryptoBot.Arbitrage.Reporting

namespace CryptoBot.Arbitrage

open CryptoBot.Common CryptoBot.Book CryptoBot.Math

/-- What a leg wins in prices that is entered and left at a quote: it is bought at the
ask and left at the bid, or sold at the bid and left at the ask. -/
def gain (bbo : BBO) : ℤ := bbo.bidPrice.toNat - bbo.askPrice.toNat

/-- The smaller of the quantities of a quote. -/
def leastQty (bbo : BBO) : ℕ := min bbo.bidQty.toNat bbo.askQty.toNat

/-- The digits of a product of a price and a quantity. -/
def digits (info : TradingPairInfo) : ℕ := info.pricePrecission.toNat + info.qtyPrecission.toNat

/-- The weighted loss of one leg is below the weighted gain of the other, or there is no
loss and a gain has a weight. -/
def OutweighsLoss (buyInfo sellInfo : TradingPairInfo) (buyBbo sellBbo : BBO) : Prop :=
  (0 ≤ gain buyBbo ∧ 0 ≤ gain sellBbo ∧
      (0 < gain buyBbo ∧ 0 < leastQty buyBbo ∨ 0 < gain sellBbo ∧ 0 < leastQty sellBbo)) ∨
    (gain buyBbo < 0 ∧ -gain buyBbo * leastQty buyBbo * 10 ^ digits sellInfo <
      gain sellBbo * leastQty sellBbo * 10 ^ digits buyInfo) ∨
    (gain sellBbo < 0 ∧ -gain sellBbo * leastQty sellBbo * 10 ^ digits buyInfo <
      gain buyBbo * leastQty buyBbo * 10 ^ digits sellInfo)

instance (buyInfo sellInfo : TradingPairInfo) (buyBbo sellBbo : BBO) :
    Decidable (OutweighsLoss buyInfo sellInfo buyBbo sellBbo) :=
  inferInstanceAs (Decidable (_ ∨ _))

/-- The profit of a leg that is entered and left at a quote. -/
def legPnl (info : TradingPairInfo) (bbo : BBO) : ℚ := gain bbo * leastQty bbo / 10 ^ digits info

/-- Two integers over powers of ten. -/
theorem add_div_pow_pos_iff {first second : ℤ} {firstDigits secondDigits : ℕ} :
    (0 : ℚ) < first / 10 ^ firstDigits + second / 10 ^ secondDigits ↔
      0 < first * 10 ^ secondDigits + second * 10 ^ firstDigits := by
  have hsum : (first : ℚ) / 10 ^ firstDigits + second / 10 ^ secondDigits =
      (first * 10 ^ secondDigits + second * 10 ^ firstDigits) /
        (10 ^ firstDigits * 10 ^ secondDigits) := by
    field_simp
  rw [hsum, div_pos_iff_of_pos_right (by positivity)]
  exact_mod_cast Iff.rfl

theorem mul_eq_zero_of_not_pos {value weight : ℤ} (hvalue : 0 ≤ value) (hweight : 0 ≤ weight)
    (h : ¬ (0 < value ∧ 0 < weight)) : value * weight = 0 := by
  rcases hvalue.eq_or_lt with rfl | hpos
  · exact zero_mul weight
  · have hzero : weight = 0 := by omega
    rw [hzero, mul_zero]

/-- The sign of a sum with weights. -/
theorem weighted_sum_pos_iff {first second firstWeight secondWeight : ℤ}
    (hfirst : 0 ≤ firstWeight) (hsecond : 0 ≤ secondWeight) :
    0 < first * firstWeight + second * secondWeight ↔
      (0 ≤ first ∧ 0 ≤ second ∧ (0 < first ∧ 0 < firstWeight ∨ 0 < second ∧ 0 < secondWeight)) ∨
        (first < 0 ∧ -first * firstWeight < second * secondWeight) ∨
        (second < 0 ∧ -second * secondWeight < first * firstWeight) := by
  constructor
  · intro hpos
    rcases lt_or_ge first 0 with hloses | hwins
    · exact .inr (.inl ⟨hloses, by linarith⟩)
    rcases lt_or_ge second 0 with hloses | hothers
    · exact .inr (.inr ⟨hloses, by linarith⟩)
    -- without a loss one of the products is positive
    refine .inl ⟨hwins, hothers, ?_⟩
    by_contra hnone
    obtain ⟨hfirstNone, hsecondNone⟩ := not_or.mp hnone
    rw [mul_eq_zero_of_not_pos hwins hfirst hfirstNone,
      mul_eq_zero_of_not_pos hothers hsecond hsecondNone] at hpos
    exact lt_irrefl _ hpos
  · rintro (⟨hwins, hothers, ⟨hgain, hweight⟩ | ⟨hgain, hweight⟩⟩ | ⟨-, hlt⟩ | ⟨-, hlt⟩)
    · exact add_pos_of_pos_of_nonneg (mul_pos hgain hweight) (mul_nonneg hothers hsecond)
    · exact add_pos_of_nonneg_of_pos (mul_nonneg hwins hfirst) (mul_pos hgain hweight)
    · linarith
    · linarith

/-- The condition weighs the gains with what stands behind them on the other venue's scale. -/
theorem outweighsLoss_iff {buyInfo sellInfo : TradingPairInfo} {buyBbo sellBbo : BBO} :
    OutweighsLoss buyInfo sellInfo buyBbo sellBbo ↔
      0 < gain buyBbo * (leastQty buyBbo * 10 ^ digits sellInfo) +
        gain sellBbo * (leastQty sellBbo * 10 ^ digits buyInfo) := by
  have hpow : ∀ (qty digits : ℕ), (0 : ℤ) < qty * 10 ^ digits ↔ 0 < qty := by
    intro qty digits
    rw [mul_pos_iff_of_pos_right (by positivity), Int.natCast_pos]
  rw [weighted_sum_pos_iff (by positivity) (by positivity), OutweighsLoss]
  simp only [hpow, mul_assoc]

/-- The sign of the profit of two legs. -/
theorem legPnl_add_pos_iff {buyInfo sellInfo : TradingPairInfo} {buyBbo sellBbo : BBO} :
    0 < legPnl buyInfo buyBbo + legPnl sellInfo sellBbo ↔
      OutweighsLoss buyInfo sellInfo buyBbo sellBbo := by
  rw [outweighsLoss_iff, ← mul_assoc, ← mul_assoc, ← add_div_pow_pos_iff, legPnl, legPnl]
  push_cast
  rfl

/-- Legs of one weight: the prices decide, as they do for the strategy. -/
theorem outweighsLoss_of_same_weight {buyInfo sellInfo : TradingPairInfo} {buyBbo sellBbo : BBO}
    (hweight : leastQty buyBbo * 10 ^ digits sellInfo = leastQty sellBbo * 10 ^ digits buyInfo)
    (hqty : 0 < leastQty buyBbo) (hgain : 0 < gain buyBbo + gain sellBbo) :
    OutweighsLoss buyInfo sellInfo buyBbo sellBbo := by
  have hsame : ((leastQty buyBbo * 10 ^ digits sellInfo : ℕ) : ℤ) =
      (leastQty sellBbo * 10 ^ digits buyInfo : ℕ) := by rw [hweight]
  have hpos : (0 : ℤ) < leastQty buyBbo * 10 ^ digits sellInfo := by positivity
  push_cast at hsame
  rw [outweighsLoss_iff, ← hsame, ← add_mul]
  exact mul_pos hgain hpos

namespace PnlCalculator

variable {pairs : ExchangeTradingPairs}

/-- The total is the sum over the transactions. -/
theorem calculateAll_eq_some {entries : List (UInt64 × TransactionReport)} {totalPnl pnl : ℚ}
    (h : (calculateAll pairs entries totalPnl).2 = some pnl) :
    pnl = totalPnl +
      (entries.map fun entry => ((calculateTransaction pairs entry.2).2).getD 0).sum := by
  induction entries generalizing totalPnl with
  | nil =>
      cases h
      simp
  | cons entry rest ih =>
      rw [calculateAll] at h
      split at h
      · cases h
      · rename_i htransaction
        rw [List.map_cons, List.sum_cons, htransaction, Option.getD_some, ← add_assoc]
        exact ih h

/-- A transaction that was entered and left at a quote has the profit of a leg. -/
theorem calculateTransaction_of_leg {info : TradingPairInfo} {transaction : TransactionReport}
    {bbo : BBO}
    (hinfo : pairs.getPairInfo transaction.exchangeId transaction.tradingPair = some info)
    (hleg : (transaction.operation = .kBuy ∧ transaction.entryPrice = bbo.askPrice ∧
        transaction.exitPrice = bbo.bidPrice ∧ transaction.entryQty = bbo.askQty ∧
        transaction.exitQty = bbo.bidQty) ∨
      (transaction.operation = .kSell ∧ transaction.entryPrice = bbo.bidPrice ∧
        transaction.exitPrice = bbo.askPrice ∧ transaction.entryQty = bbo.bidQty ∧
        transaction.exitQty = bbo.askQty)) :
    (calculateTransaction pairs transaction).2 = some (legPnl info bbo) := by
  have hscale : (10 : ℚ) ^ (-(info.pricePrecission.toNat : ℤ)) *
      10 ^ (-(info.qtyPrecission.toNat : ℤ)) = (10 ^ digits info)⁻¹ := by
    rw [zpow_neg, zpow_neg, zpow_natCast, zpow_natCast, ← mul_inv, ← pow_add, digits]
  simp only [calculateTransaction, hinfo, legPnl, gain, leastQty, div_eq_mul_inv, ← hscale,
    TradingPairInfo.getPriceDouble, TradingPairInfo.getQtyDouble, UInt64.toNat_min]
  rcases hleg with ⟨hoperation, hentry, hexit, hentryQty, hexitQty⟩ |
    ⟨hoperation, hentry, hexit, hentryQty, hexitQty⟩
  · rw [hoperation, hentry, hexit, hentryQty, hexitQty, min_comm bbo.askQty.toNat]
    simp only [reduceCtorEq, if_false, Option.some.injEq]
    push_cast
    ring
  · rw [hoperation, hentry, hexit, hentryQty, hexitQty]
    simp only [if_true, Option.some.injEq]
    push_cast
    ring

end PnlCalculator

namespace ArbitrageStrategyComponent

variable {setting : Setting} {component : ArbitrageStrategyComponent} {cycle : ArbitrageCycle}
  {cycles : List ArbitrageCycle} {buy sell : Step} {buyBbo sellBbo : BBO}
  {report : ArbitrageReport}

/-! ## The profit of one evaluation -/

/-- The trade of a cycle of two legs has no other transactions. -/
theorem eq_or_eq_of_mem_keys {trade : TradeState} (hlegs : cycle.TwoLegged buy sell)
    (hidentities : trade.identities = (newTrade setting cycle).identities) {key : UInt64}
    (hkey : key ∈ trade.transactionStates.keys) :
    key = setting.hashing.stepHash buy ∨ key = setting.hashing.stepHash sell := by
  have hsome : (trade.identities key).isSome := by
    rw [TradeState.identities, Option.isSome_map]
    exact UnorderedMap.mem_keys_iff _ |>.mp hkey
  have hmem : key ∈ cycle.map setting.hashing.stepHash := by
    by_contra hmem
    rw [hidentities, identities_newTrade_of_notMem hmem] at hsome
    cases hsome
  obtain hsteps | hsteps := hlegs.steps
  · simpa [hsteps] using hmem
  · simpa [hsteps, or_comm] using hmem

/-- The profit of a trade that is entered and left at the same quotes. -/
theorem pnl_of_roundTrip {trade : TradeState} {uidTrade : UInt64}
    {buyTransaction sellTransaction : TransactionReport} {buyInfo sellInfo : TradingPairInfo}
    (hlegs : cycle.TwoLegged buy sell)
    (hidentities : trade.identities = (newTrade setting cycle).identities)
    (htransactions : trade.HasLegs (.ofLegs setting.hashing buy sell buyBbo sellBbo)
      buyTransaction sellTransaction)
    (hbuy : buyTransaction.identity = (buy.exchangeId, buy.tradingPair, .kBuy))
    (hsell : sellTransaction.identity = (sell.exchangeId, sell.tradingPair, .kSell))
    (hbuyInfo : setting.pairs.getPairInfo buy.exchangeId buy.tradingPair = some buyInfo)
    (hsellInfo : setting.pairs.getPairInfo sell.exchangeId sell.tradingPair = some sellInfo)
    (hreport : trade.roundTrip (.ofLegs setting.hashing buy sell buyBbo sellBbo) setting.pairs
      uidTrade = some report) :
    report.pnl = legPnl buyInfo buyBbo + legPnl sellInfo sellBbo := by
  simp only [TransactionReport.identity, Prod.mk.injEq] at hbuy hsell
  obtain ⟨hbuyExchange, hbuyPair, hbuyOperation⟩ := hbuy
  obtain ⟨hsellExchange, hsellPair, hsellOperation⟩ := hsell
  rw [TradeState.roundTrip, TradeState.report_takeProfit, Option.map_eq_some_iff] at hreport
  obtain ⟨pnl, hpnl, rfl⟩ := hreport
  have hleft := htransactions.enter.close.leave
  have hentries := UnorderedMap.entries_perm_pair _ hleft.ne hleft.buy hleft.sell fun key hkey =>
    eq_or_eq_of_mem_keys hlegs
      (TradeState.identities_leave.trans (TradeState.identities_enter.trans hidentities)) hkey
  have hsum := PnlCalculator.calculateAll_eq_some hpnl
  rw [(hentries.map _).sum_eq] at hsum
  simp only [List.map_cons, List.map_nil, List.sum_cons, List.sum_nil, zero_add, add_zero] at hsum
  rw [PnlCalculator.calculateTransaction_of_leg, PnlCalculator.calculateTransaction_of_leg] at hsum
  · exact hsum
  · exact (congrArg₂ setting.pairs.getPairInfo hsellExchange hsellPair).trans hsellInfo
  · exact .inr ⟨hsellOperation, rfl, rfl, rfl, rfl⟩
  · exact (congrArg₂ setting.pairs.getPairInfo hbuyExchange hbuyPair).trans hbuyInfo
  · exact .inl ⟨hbuyOperation, rfl, rfl, rfl, rfl⟩

/-- The report has the profit of the two legs, from quotes that are worth a report. -/
def CalculatedFrom (setting : Setting) (report : ArbitrageReport) (buy sell : Step)
    (buyQuote sellQuote : Option BBO) : Prop :=
  ∃ buyBbo sellBbo buyInfo sellInfo, buyQuote = some buyBbo ∧ sellQuote = some sellBbo ∧
    Reportable setting.pairs buy sell buyBbo sellBbo ∧
    setting.pairs.getPairInfo buy.exchangeId buy.tradingPair = some buyInfo ∧
    setting.pairs.getPairInfo sell.exchangeId sell.tradingPair = some sellInfo ∧
    report.pnl = legPnl buyInfo buyBbo + legPnl sellInfo sellBbo

theorem calculatedFrom_evaluate (hregistered : Registered setting component cycles)
    (hclosed : component.AllClosed) (hcycle : cycle ∈ cycles) (hlegs : cycle.TwoLegged buy sell)
    (hsteps : Set.InjOn setting.hashing.stepHash { step | step ∈ cycle })
    (hreport : report ∈ reportsOf (setting.hashing.arbitrageCycleHash cycle)
      (component.evaluateOpportunityArbitrageCycle setting cycle).2) :
    CalculatedFrom setting report buy sell
      (component.exchangeBboMap (setting.hashing.venueKey buy.venue))
      (component.exchangeBboMap (setting.hashing.venueKey sell.venue)) := by
  have hexact := reportsExactly_evaluate hregistered hclosed hcycle hlegs hsteps
  obtain ⟨buyBbo, sellBbo, hbuy, hsell, hreportable⟩ :=
    hexact.sends.mp (List.ne_nil_of_mem hreport)
  obtain ⟨buyInfo, hbuyInfo⟩ := Option.isSome_iff_exists.mp hreportable.buyKnown
  obtain ⟨sellInfo, hsellInfo⟩ := Option.isSome_iff_exists.mp hreportable.sellKnown
  obtain ⟨trade, buyTransaction, sellTransaction, htrade, hidentities, htransactions,
    hbuyIdentity, hsellIdentity, heffects⟩ := evaluate_of_complete hregistered hcycle hlegs hsteps
      hbuy hsell ⟨hreportable.buyValid, hreportable.sellValid⟩
  rw [heffects, reportsOf_evaluateTrade (hclosed _ trade htrade) htransactions,
    if_pos ⟨hreportable.crossed, hreportable.profit⟩, Option.mem_toList] at hreport
  exact ⟨buyBbo, sellBbo, buyInfo, sellInfo, hbuy, hsell, hreportable, hbuyInfo, hsellInfo,
    pnl_of_roundTrip hlegs hidentities htransactions hbuyIdentity hsellIdentity hbuyInfo hsellInfo
      hreport⟩

/-! ## The reports of one quote -/

theorem mem_reportsOf_iff {uidTrade : UInt64} {effects : List Effect} :
    report ∈ reportsOf uidTrade effects ↔
      .reported report ∈ effects ∧ report.uidTrade = uidTrade := by
  rw [reportsOf, List.mem_filterMap]
  constructor
  · rintro ⟨effect, hmem, hreport⟩
    cases effect with
    | evaluated _ => cases hreport
    | opened _ _ _ => cases hreport
    | reported found =>
        dsimp only at hreport
        split at hreport
        · rename_i huid
          cases hreport
          exact ⟨hmem, huid⟩
        · cases hreport
  · rintro ⟨hmem, huid⟩
    exact ⟨.reported report, hmem, if_pos huid⟩

/-- Every report is about one of the cycles that a loop goes through. -/
theorem exists_cycle_of_reported (h : .reported report ∈ (evaluateAll setting component cycles).2) :
    ∃ cycle ∈ cycles, report.uidTrade = setting.hashing.arbitrageCycleHash cycle := by
  by_contra hnone
  have hnil : reportsOf report.uidTrade (evaluateAll setting component cycles).2 = [] :=
    reportsOf_evaluateAll_of_ne fun cycle hcycle huid => hnone ⟨cycle, hcycle, huid⟩
  have hmem := mem_reportsOf_iff.mpr ⟨h, rfl⟩
  rw [hnil] at hmem
  cases hmem

variable {events : List Event}

theorem exists_cycle_of_emitted {event : NewBBO}
    (hinjective : setting.hashing.InjectiveOn (venues (events ++ [Event.newBBO event]))
      (added (events ++ [Event.newBBO event])))
    (h : .reported report ∈ (machine setting).emitted events (.newBBO event)) :
    ∃ cycle ∈ added events, venueOf event ∈ cycle.venues ∧
      report ∈ reportsOf (setting.hashing.arbitrageCycleHash cycle)
        ((machine setting).emitted events (.newBBO event)) := by
  have hnow := injectiveOn_newBBO hinjective
  have hregistered : Registered setting ((machine setting).run events) (added events) :=
    registered_run hnow.arbitrageCycleHash
  obtain ⟨cycle, hlisted, huid⟩ := exists_cycle_of_reported h
  have hrange := (hregistered.addOrUpdateBBO (setting.hashing.venueKey (venueOf event))
    event.bbo).equalRange_perm hnow.venueKey
  obtain ⟨hcycle, hvenue⟩ := List.mem_filter.mp (hrange.mem_iff.mp hlisted)
  exact ⟨cycle, List.mem_dedup.mp hcycle, of_decide_eq_true hvenue,
    mem_reportsOf_iff.mpr ⟨h, huid⟩⟩

/-- A quote after a run makes a report worth sending, with these latest quotes on pairs of
these precisions. -/
def Triggers (setting : Setting) (before : List Event) (event : Event)
    (buyInfo sellInfo : TradingPairInfo) (buyBbo sellBbo : BBO) : Prop :=
  ∃ quote cycle buy sell, event = .newBBO quote ∧ cycle ∈ added before ∧
    ArbitrageCycle.TwoLegged cycle buy sell ∧ venueOf quote ∈ cycle.venues ∧
    latest (before ++ [event]) buy.venue = some buyBbo ∧
    latest (before ++ [event]) sell.venue = some sellBbo ∧
    Reportable setting.pairs buy sell buyBbo sellBbo ∧
    setting.pairs.getPairInfo buy.exchangeId buy.tradingPair = some buyInfo ∧
    setting.pairs.getPairInfo sell.exchangeId sell.tradingPair = some sellInfo

/-- Every report that the event sends has a profit. -/
def ReportsProfit (setting : Setting) (before : List Event) (event : Event) : Prop :=
  ∀ report, .reported report ∈ (machine setting).emitted before event → 0 < report.pnl

section Emitted

variable {event : NewBBO}
  (hinjective : setting.hashing.InjectiveOn (venues (events ++ [Event.newBBO event]))
    (added (events ++ [Event.newBBO event])))

include hinjective

theorem calculatedFrom_emitted (hcycle : cycle ∈ added events)
    (hlegs : cycle.TwoLegged buy sell) (hvenue : venueOf event ∈ cycle.venues)
    (hreport : report ∈ reportsOf (setting.hashing.arbitrageCycleHash cycle)
      ((machine setting).emitted events (.newBBO event))) :
    CalculatedFrom setting report buy sell (latest (events ++ [Event.newBBO event]) buy.venue)
      (latest (events ++ [Event.newBBO event]) sell.venue) := by
  obtain ⟨component, hregistered, hclosed, hsteps, hlatest, hreports⟩ :=
    exists_evaluation hinjective hcycle hvenue
  rw [hreports] at hreport
  rw [← hlatest buy hlegs.mem.1, ← hlatest sell hlegs.mem.2]
  exact calculatedFrom_evaluate hregistered hclosed hcycle hlegs hsteps hreport

/-- A report is sent for quotes that are worth it, with the profit of the two legs. -/
theorem exists_triggers_of_emitted
    (hlegs : ∀ cycle ∈ added events, ∃ buy sell, ArbitrageCycle.TwoLegged cycle buy sell)
    (h : .reported report ∈ (machine setting).emitted events (.newBBO event)) :
    ∃ buyInfo sellInfo buyBbo sellBbo,
      Triggers setting events (.newBBO event) buyInfo sellInfo buyBbo sellBbo ∧
        report.pnl = legPnl buyInfo buyBbo + legPnl sellInfo sellBbo := by
  obtain ⟨cycle, hcycle, hvenue, hreport⟩ := exists_cycle_of_emitted hinjective h
  obtain ⟨buy, sell, htwo⟩ := hlegs cycle hcycle
  obtain ⟨buyBbo, sellBbo, buyInfo, sellInfo, hbuy, hsell, hreportable, hbuyInfo, hsellInfo,
    hpnl⟩ := calculatedFrom_emitted hinjective hcycle htwo hvenue hreport
  exact ⟨buyInfo, sellInfo, buyBbo, sellBbo, ⟨event, cycle, buy, sell, rfl, hcycle, htwo, hvenue,
    hbuy, hsell, hreportable, hbuyInfo, hsellInfo⟩, hpnl⟩

/-- Quotes that are worth a report are reported, with the profit of the two legs. -/
theorem exists_reported_of_triggers {buyInfo sellInfo : TradingPairInfo}
    (h : Triggers setting events (.newBBO event) buyInfo sellInfo buyBbo sellBbo) :
    ∃ report, .reported report ∈ (machine setting).emitted events (.newBBO event) ∧
      report.pnl = legPnl buyInfo buyBbo + legPnl sellInfo sellBbo := by
  obtain ⟨quote, cycle, buy, sell, hquote, hcycle, hlegs, hvenue, hbuy, hsell, hreportable,
    hbuyInfo, hsellInfo⟩ := h
  cases hquote
  have hexact := reportsExactly_emitted hinjective hcycle hlegs hvenue
  have hsent := hexact.sends.mpr ⟨buyBbo, sellBbo, hbuy, hsell, hreportable⟩
  obtain ⟨report, hreport⟩ := List.exists_mem_of_ne_nil _ hsent
  obtain ⟨buyFound, sellFound, buyInfo, sellInfo, hbuyFound, hsellFound, -, hbuyKnown, hsellKnown,
    hpnl⟩ := calculatedFrom_emitted hinjective hcycle hlegs hvenue hreport
  rw [hbuy] at hbuyFound
  rw [hsell] at hsellFound
  rw [hbuyInfo] at hbuyKnown
  rw [hsellInfo] at hsellKnown
  cases hbuyFound
  cases hsellFound
  cases hbuyKnown
  cases hsellKnown
  exact ⟨report, (mem_reportsOf_iff.mp hreport).1, hpnl⟩

theorem reportsProfit_newBBO_iff
    (hlegs : ∀ cycle ∈ added events, ∃ buy sell, ArbitrageCycle.TwoLegged cycle buy sell) :
    ReportsProfit setting events (.newBBO event) ↔
      ∀ buyInfo sellInfo buyBbo sellBbo,
        Triggers setting events (.newBBO event) buyInfo sellInfo buyBbo sellBbo →
          OutweighsLoss buyInfo sellInfo buyBbo sellBbo := by
  constructor
  · intro hprofit buyInfo sellInfo buyBbo sellBbo htriggers
    obtain ⟨report, hsent, hpnl⟩ := exists_reported_of_triggers hinjective htriggers
    rw [← legPnl_add_pos_iff, ← hpnl]
    exact hprofit report hsent
  · intro houtweighs report hsent
    obtain ⟨buyInfo, sellInfo, buyBbo, sellBbo, htriggers, hpnl⟩ :=
      exists_triggers_of_emitted hinjective hlegs hsent
    rw [hpnl, legPnl_add_pos_iff]
    exact houtweighs buyInfo sellInfo buyBbo sellBbo htriggers

end Emitted

/-! ## Runs -/

/-- In a run with cycles of two legs every reported profit is positive precisely when no
loss outweighs the gain at a report. -/
theorem reportsProfit_run_iff (setting : Setting) (events : List Event)
    (hinjective : setting.hashing.InjectiveOn (venues events) (added events))
    (hlegs : ∀ cycle ∈ added events, ∃ buy sell, ArbitrageCycle.TwoLegged cycle buy sell) :
    EveryStep (ReportsProfit setting) events ↔
      EveryStep (fun before event => ∀ buyInfo sellInfo buyBbo sellBbo,
        Triggers setting before event buyInfo sellInfo buyBbo sellBbo →
          OutweighsLoss buyInfo sellInfo buyBbo sellBbo) events := by
  refine forall₄_congr fun before event after hsplit => ?_
  cases event with
  | addArbitrageCycle cycle =>
      constructor
      · rintro - buyInfo sellInfo buyBbo sellBbo ⟨quote, _, _, _, hquote, -⟩
        cases hquote
      · rintro - report hsent
        cases hsent
  | newBBO quote =>
      have happend : events = (before ++ [Event.newBBO quote]) ++ after := by simp [hsplit]
      rw [happend] at hinjective hlegs
      apply reportsProfit_newBBO_iff (injectiveOn_left hinjective)
      intro cycle hcycle
      apply hlegs
      rw [added_append, added_append]
      exact List.mem_append_left _ (List.mem_append_left _ hcycle)

theorem legs_binanceToBybit (h : binanceToBybit.TwoLegged buy sell) :
    buy = ⟨⟨2, 1⟩, .kBinance, .kSpot, .kBuy⟩ ∧ sell = ⟨⟨2, 1⟩, .kBybit, .kSpot, .kSell⟩ := by
  obtain ⟨hsteps | hsteps, hbuys, hsells⟩ := h
  · cases hsteps
    exact ⟨rfl, rfl⟩
  · cases hsteps
    cases hbuys

theorem reportsProfit_crossedQuotes :
    EveryStep (ReportsProfit (boostSetting bitcoinPairs)) crossedQuotes := by
  have hinjective : boostHashing.InjectiveOn (venues crossedQuotes) (added crossedQuotes) :=
    .of_forall _ (by decide +kernel) (by decide +kernel) (by decide +kernel)
  have hlegs : ∀ cycle ∈ added crossedQuotes,
      ∃ buy sell, ArbitrageCycle.TwoLegged cycle buy sell := by
    intro cycle hcycle
    obtain rfl : cycle = binanceToBybit := List.mem_singleton.mp hcycle
    exact ⟨_, _, .inl rfl, rfl, rfl⟩
  refine (reportsProfit_run_iff (boostSetting bitcoinPairs) crossedQuotes hinjective hlegs).mpr ?_
  rw [EveryStep.iff_forall_fin]
  rintro i buyInfo sellInfo buyBbo sellBbo
    ⟨quote, cycle, buy, sell, hquote, hcycle, htwo, -, hbuy, hsell, -, hbuyInfo, hsellInfo⟩
  change Fin 3 at i
  fin_cases i
  · cases hquote
  · obtain rfl : cycle = binanceToBybit := List.mem_singleton.mp hcycle
    obtain ⟨-, rfl⟩ := legs_binanceToBybit htwo
    cases hsell
  · obtain rfl : cycle = binanceToBybit := List.mem_singleton.mp hcycle
    obtain ⟨rfl, rfl⟩ := legs_binanceToBybit htwo
    cases hbuy
    cases hsell
    cases hbuyInfo
    cases hsellInfo
    decide

/-- The buy venue loses one price unit on a hundred times the quantity. -/
def losingQuotes : List Event :=
  [.addArbitrageCycle binanceToBybit, .newBBO ⟨.kBinance, ⟨2, 1⟩, ⟨99, 100, 700, 800⟩, .kSpot⟩,
    .newBBO ⟨.kBybit, ⟨2, 1⟩, ⟨104, 102, 5, 6⟩, .kSpot⟩]

theorem not_reportsProfit_losingQuotes :
    ¬ EveryStep (ReportsProfit (boostSetting bitcoinPairs)) losingQuotes := by
  intro hprofit
  have hinjective : boostHashing.InjectiveOn (venues losingQuotes) (added losingQuotes) :=
    .of_forall _ (by decide +kernel) (by decide +kernel) (by decide +kernel)
  have htriggers : Triggers (boostSetting bitcoinPairs) (losingQuotes.take 2)
      (.newBBO ⟨.kBybit, ⟨2, 1⟩, ⟨104, 102, 5, 6⟩, .kSpot⟩) ⟨2, 5, "BTCUSDT", "BTCUSDT"⟩
      ⟨1, 6, "BTCUSDT", "BTCUSDT"⟩ ⟨99, 100, 700, 800⟩ ⟨104, 102, 5, 6⟩ := by
    refine ⟨_, binanceToBybit, _, _, rfl, by decide, ⟨.inl rfl, rfl, rfl⟩, by decide, rfl, rfl,
      ?_, rfl, rfl⟩
    exact
      { buyValid := ⟨by decide, by decide, by decide, by decide⟩
        sellValid := ⟨by decide, by decide, by decide, by decide⟩
        crossed := by decide
        profit := by decide
        buyKnown := rfl
        sellKnown := rfl }
  obtain ⟨report, hsent, hpnl⟩ := exists_reported_of_triggers hinjective htriggers
  have hpositive := hprofit (losingQuotes.take 2) _ [] rfl report hsent
  rw [hpnl, legPnl_add_pos_iff] at hpositive
  exact absurd hpositive (by decide)

end ArbitrageStrategyComponent

end CryptoBot.Arbitrage

/-
# Prices of different precisions

The strategy compares the integers of two venues, and the calculation of the
profit converts them to decimals with the precision of each venue.  The two agree
when the precisions are equal.  When they are not, the comparison is off by a
power of ten, and it goes wrong exactly on the prices between the two scales: a
venue with more digits looks expensive, one with fewer looks cheap.
-/

import Mathlib.Algebra.Order.Field.Basic
import CryptoBot.Arbitrage.Reporting

namespace CryptoBot.Arbitrage

open CryptoBot.Common CryptoBot.Book CryptoBot.Math

/-- Two prices whose order is not that of their decimals: the bid is above the ask,
but not by as much as the digits of the sell venue are more; or it is not above it,
but by less than the digits of the buy venue are more. -/
def ScalesApart (buyInfo sellInfo : TradingPairInfo) (ask bid : Price) : Prop :=
  ask < bid ∧
      bid.toNat ≤
        ask.toNat * 10 ^ (sellInfo.pricePrecission.toNat - buyInfo.pricePrecission.toNat) ∨
    bid ≤ ask ∧
      ask.toNat < bid.toNat * 10 ^ (buyInfo.pricePrecission.toNat - sellInfo.pricePrecission.toNat)

variable {buyInfo sellInfo : TradingPairInfo} {ask bid : Price}

theorem getPriceDouble_lt_iff :
    buyInfo.getPriceDouble ask < sellInfo.getPriceDouble bid ↔
      ask.toNat * 10 ^ sellInfo.pricePrecission.toNat <
        bid.toNat * 10 ^ buyInfo.pricePrecission.toNat := by
  rw [TradingPairInfo.getPriceDouble, TradingPairInfo.getPriceDouble, zpow_neg, zpow_neg,
    zpow_natCast, zpow_natCast, ← div_eq_mul_inv, ← div_eq_mul_inv,
    div_lt_div_iff₀ (by positivity) (by positivity)]
  exact_mod_cast Iff.rfl

/-- Two integers are ordered like their multiples by powers of ten unless one lies
between the other one and its multiple. -/
theorem lt_iff_mul_pow_lt_iff {ask bid first second : ℕ} :
    (ask < bid ↔ ask * 10 ^ second < bid * 10 ^ first) ↔
      ¬ (ask < bid ∧ bid ≤ ask * 10 ^ (second - first) ∨
        bid ≤ ask ∧ ask < bid * 10 ^ (first - second)) := by
  -- the smaller power is common to both sides, and the larger one leaves a factor
  rcases le_total first second with hle | hle
  · obtain ⟨digits, rfl⟩ := Nat.exists_eq_add_of_le hle
    have hscaled : ask * 10 ^ (first + digits) < bid * 10 ^ first ↔ ask * 10 ^ digits < bid := by
      rw [pow_add, mul_left_comm, mul_comm bid]
      exact Nat.mul_lt_mul_left (by positivity)
    have hgrows : ask ≤ ask * 10 ^ digits := Nat.le_mul_of_pos_right ask (by positivity)
    rw [hscaled, Nat.add_sub_cancel_left, Nat.sub_eq_zero_of_le hle, pow_zero, mul_one]
    omega
  · obtain ⟨digits, rfl⟩ := Nat.exists_eq_add_of_le hle
    have hscaled : ask * 10 ^ second < bid * 10 ^ (second + digits) ↔ ask < bid * 10 ^ digits := by
      rw [pow_add, mul_left_comm bid, mul_comm ask]
      exact Nat.mul_lt_mul_left (by positivity)
    have hgrows : bid ≤ bid * 10 ^ digits := Nat.le_mul_of_pos_right bid (by positivity)
    rw [hscaled, Nat.add_sub_cancel_left, Nat.sub_eq_zero_of_le hle, pow_zero, mul_one]
    omega

/-- The integers are ordered like the decimals unless they lie between the scales. -/
theorem lt_iff_getPriceDouble_lt_iff :
    (bid > ask ↔ sellInfo.getPriceDouble bid > buyInfo.getPriceDouble ask) ↔
      ¬ ScalesApart buyInfo sellInfo ask bid := by
  rw [gt_iff_lt, gt_iff_lt, getPriceDouble_lt_iff]
  exact lt_iff_mul_pow_lt_iff

/-- No prices lie between the scales when the precisions are equal, and only then. -/
theorem forall_not_scalesApart_iff :
    (∀ ask bid, ask ≠ kPriceInvalid → bid ≠ kPriceInvalid →
      ¬ ScalesApart buyInfo sellInfo ask bid) ↔
      buyInfo.pricePrecission = sellInfo.pricePrecission := by
  constructor
  · intro h
    apply UInt8.toNat_inj.mp
    rcases lt_trichotomy buyInfo.pricePrecission.toNat sellInfo.pricePrecission.toNat with
      hlt | heq | hgt
    · refine absurd (.inl ⟨by decide, ?_⟩) (h 1 2 (by decide) (by decide))
      have hpow : 10 ^ 1 ≤ 10 ^ (sellInfo.pricePrecission.toNat - buyInfo.pricePrecission.toNat) :=
        Nat.pow_le_pow_right (by norm_num) (by omega)
      change 2 ≤ 1 * _
      omega
    · exact heq
    · refine absurd (.inr ⟨by decide, ?_⟩) (h 2 1 (by decide) (by decide))
      have hpow : 10 ^ 1 ≤ 10 ^ (buyInfo.pricePrecission.toNat - sellInfo.pricePrecission.toNat) :=
        Nat.pow_le_pow_right (by norm_num) (by omega)
      change 2 < 1 * _
      omega
  · intro hequal ask bid _ _
    rw [ScalesApart, hequal, Nat.sub_self, pow_zero, mul_one, mul_one, UInt64.lt_iff_toNat_lt,
      UInt64.le_iff_toNat_le]
    omega

namespace ArbitrageStrategyComponent

variable {setting : Setting} {component : ArbitrageStrategyComponent} {cycle : ArbitrageCycle}
  {buy sell : Step} {buyBbo sellBbo : BBO}

/-- The evaluation of the cycle opens its trade. -/
def Opens (setting : Setting) (component : ArbitrageStrategyComponent) (cycle : ArbitrageCycle) :
    Prop :=
  ∃ buyEntryPrice sellEntryPrice,
    .opened (setting.hashing.arbitrageCycleHash cycle) buyEntryPrice sellEntryPrice ∈
      (component.evaluateOpportunityArbitrageCycle setting cycle).2

/-- The evaluation has all that it checks: the trade with its two transactions, and
two complete quotes. -/
structure Ready (setting : Setting) (component : ArbitrageStrategyComponent)
    (cycle : ArbitrageCycle) (buy sell : Step) (buyBbo sellBbo : BBO) : Prop where
  legs : cycle.TwoLegged buy sell
  buyQuote : component.exchangeBboMap (setting.hashing.venueKey buy.venue) = some buyBbo
  sellQuote : component.exchangeBboMap (setting.hashing.venueKey sell.venue) = some sellBbo
  buyValid : buyBbo.Valid
  sellValid : sellBbo.Valid
  trade : ∃ trade,
    component.tradesState.find (setting.hashing.arbitrageCycleHash cycle) = some trade ∧
      (trade.transactionStates.find (setting.hashing.stepHash buy)).isSome ∧
      (trade.transactionStates.find (setting.hashing.stepHash sell)).isSome

/-- Outside of an evaluation, a trade is opened by comparing the two integers. -/
theorem opens_iff (hclosed : component.AllClosed)
    (hready : Ready setting component cycle buy sell buyBbo sellBbo) :
    Opens setting component cycle ↔ sellBbo.bidPrice > buyBbo.askPrice := by
  obtain ⟨trade, htrade, hbuy, hsell⟩ := hready.trade
  rw [Opens, effects_evaluate_of_complete hready.legs hready.buyQuote hready.sellQuote
    ⟨hready.buyValid, hready.sellValid⟩ htrade hbuy hsell,
    effects_evaluateTrade (hclosed _ trade htrade)]
  change (∃ buyEntryPrice sellEntryPrice, _ ∈ if sellBbo.bidPrice > buyBbo.askPrice then _
    else _) ↔ _
  split
  · rename_i hcrossed
    exact ⟨fun _ => hcrossed, fun _ => ⟨_, _, List.mem_cons_self⟩⟩
  · rename_i huncrossed
    simp [huncrossed]

/-- A registered cycle whose two venues have complete quotes is ready. -/
theorem ready_run {events : List Event}
    (hinjective : setting.hashing.InjectiveOn (venues events) (added events))
    (hcycle : cycle ∈ added events) (hlegs : cycle.TwoLegged buy sell)
    (hbuy : latest events buy.venue = some buyBbo)
    (hsell : latest events sell.venue = some sellBbo) (hbuyValid : buyBbo.Valid)
    (hsellValid : sellBbo.Valid) :
    Ready setting ((machine setting).run events) cycle buy sell buyBbo sellBbo := by
  have hquote : ∀ step ∈ cycle,
      ((machine setting).run events).exchangeBboMap (setting.hashing.venueKey step.venue) =
        latest events step.venue := fun step hstep =>
    exchangeBboMap_run hinjective.venueKey (fun quoted h => mem_venues_iff.mpr (.inl h))
      (mem_venues_iff.mpr (.inr ⟨cycle, hcycle, List.mem_map_of_mem hstep⟩))
  have hregistered : Registered setting ((machine setting).run events) (added events) :=
    registered_run hinjective.arbitrageCycleHash
  have hbuyQuote := (hquote buy hlegs.mem.1).trans hbuy
  have hsellQuote := (hquote sell hlegs.mem.2).trans hsell
  obtain ⟨trade, buyTransaction, sellTransaction, htrade, -, htransactions, -⟩ :=
    evaluate_of_complete hregistered hcycle hlegs
      (hinjective.stepHash.mono (steps_subset hcycle)) hbuyQuote hsellQuote
      ⟨hbuyValid, hsellValid⟩
  refine ⟨hlegs, hbuyQuote, hsellQuote, hbuyValid, hsellValid, trade, htrade, ?_, ?_⟩
  · exact Option.isSome_of_eq_some htransactions.buy
  · exact Option.isSome_of_eq_some htransactions.sell

/-- In every reachable state, opening a trade follows the decimals exactly for the
prices that do not lie between the scales of the two venues. -/
theorem opens_iff_decimals_cross (setting : Setting) (events : List Event) (cycle : ArbitrageCycle)
    (buy sell : Step) (buyBbo sellBbo : BBO) (buyInfo sellInfo : TradingPairInfo)
    (hready : Ready setting ((machine setting).run events) cycle buy sell buyBbo sellBbo) :
    setting.pairs.getPairInfo buy.exchangeId buy.tradingPair = some buyInfo →
    setting.pairs.getPairInfo sell.exchangeId sell.tradingPair = some sellInfo →
      ((Opens setting ((machine setting).run events) cycle ↔
          sellInfo.getPriceDouble sellBbo.bidPrice > buyInfo.getPriceDouble buyBbo.askPrice) ↔
        ¬ ScalesApart buyInfo sellInfo buyBbo.askPrice sellBbo.bidPrice) := by
  intro _ _
  rw [opens_iff (allClosed_run setting events) hready]
  exact lt_iff_getPriceDouble_lt_iff

/-- The cycle with a quote for 64999.00 and 65000.00, and one from a venue with one
digit less. -/
def bitcoinQuotes (sellBbo : BBO) : List Event :=
  [.addArbitrageCycle binanceToBybit,
    .newBBO ⟨.kBinance, ⟨2, 1⟩, ⟨6499900, 6500000, 7, 8⟩, .kSpot⟩,
    .newBBO ⟨.kBybit, ⟨2, 1⟩, sellBbo, .kSpot⟩]

theorem ready_bitcoinQuotes {sellBbo : BBO} (hvalid : sellBbo.Valid) :
    Ready (boostSetting bitcoinPairs)
      ((machine (boostSetting bitcoinPairs)).run (bitcoinQuotes sellBbo)) binanceToBybit
      ⟨⟨2, 1⟩, .kBinance, .kSpot, .kBuy⟩ ⟨⟨2, 1⟩, .kBybit, .kSpot, .kSell⟩
      ⟨6499900, 6500000, 7, 8⟩ sellBbo := by
  -- the venues do not depend on the quote
  have hinjective : boostHashing.InjectiveOn (venues (bitcoinQuotes {}))
      (added (bitcoinQuotes {})) :=
    .of_forall _ (by decide +kernel) (by decide +kernel) (by decide +kernel)
  have hquote : boostHashing.InjectiveOn (venues (bitcoinQuotes sellBbo))
      (added (bitcoinQuotes sellBbo)) := hinjective
  exact ready_run hquote List.mem_cons_self ⟨.inl rfl, rfl, rfl⟩ rfl rfl
    ⟨by decide, by decide, by decide, by decide⟩ hvalid

/-- A bid of 700000.0 is above the ask in both readings. -/
theorem opens_iff_decimals_cross_far :
    Opens (boostSetting bitcoinPairs)
        ((machine (boostSetting bitcoinPairs)).run (bitcoinQuotes ⟨7000000, 7000010, 5, 6⟩))
        binanceToBybit ↔
      (⟨1, 6, "BTCUSDT", "BTCUSDT"⟩ : TradingPairInfo).getPriceDouble 7000000 >
        (⟨2, 5, "BTCUSDT", "BTCUSDT"⟩ : TradingPairInfo).getPriceDouble 6500000 :=
  (opens_iff_decimals_cross (boostSetting bitcoinPairs) _ binanceToBybit _ _ _ _ _ _
    (ready_bitcoinQuotes ⟨by decide, by decide, by decide, by decide⟩) rfl rfl).mpr (by
      rw [ScalesApart]
      decide)

/-- A bid of 65100.0 is above the ask of 65000.00, and the trade is not opened. -/
theorem not_opens_bitcoinQuotes :
    ¬ (Opens (boostSetting bitcoinPairs)
        ((machine (boostSetting bitcoinPairs)).run (bitcoinQuotes ⟨651000, 651010, 5, 6⟩))
        binanceToBybit ↔
      (⟨1, 6, "BTCUSDT", "BTCUSDT"⟩ : TradingPairInfo).getPriceDouble 651000 >
        (⟨2, 5, "BTCUSDT", "BTCUSDT"⟩ : TradingPairInfo).getPriceDouble 6500000) := by
  rw [opens_iff (allClosed_run _ _)
    (ready_bitcoinQuotes ⟨by decide, by decide, by decide, by decide⟩),
    lt_iff_getPriceDouble_lt_iff, ScalesApart]
  decide

end ArbitrageStrategyComponent

end CryptoBot.Arbitrage

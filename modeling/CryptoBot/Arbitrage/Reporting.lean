/-
# When the strategy reports

A report is sent when an evaluation takes a profit that can be calculated.  The
trade it comes from lives across all the events of a run, and its fields keep
values of earlier evaluations: an evaluation that stops with a loss has written
entries and no exits, and one whose profit cannot be calculated has written both.
None of them reaches a report.  Whatever the run was, a quote through a venue of a
two-legged cycle sends a report exactly when the latest quotes of the two venues
say so, and the report holds these quotes.
-/

import CryptoBot.Arbitrage.TwoLegged

namespace CryptoBot.Arbitrage

open CryptoBot.Common CryptoBot.Book CryptoBot.Math

namespace ArbitrageStrategyComponent

/-- The writes of a run to the table of quotes. -/
def quotes (events : List Event) : List (Venue × Option BBO) :=
  events.filterMap fun event =>
    match event with
    | .addArbitrageCycle _ => none
    | .newBBO event => some (venueOf event, some event.bbo)

/-- The last quote of a venue in a run. -/
def latest (events : List Event) : Venue → Option BBO := writes (fun _ => none) (quotes events)

/-- All the venues of a run: those of its quotes and those of its cycles. -/
def venues (events : List Event) : List Venue :=
  (quotes events).map Prod.fst ++ (added events).flatMap ArbitrageCycle.venues

/-- The reports among the effects that are about one trade. -/
def reportsOf (uidTrade : UInt64) (effects : List Effect) : List ArbitrageReport :=
  effects.filterMap fun effect =>
    match effect with
    | .reported report => if report.uidTrade = uidTrade then some report else none
    | _ => none

/-- The two quotes are worth a report. -/
structure Reportable (pairs : ExchangeTradingPairs) (buy sell : Step) (buyBbo sellBbo : BBO) :
    Prop where
  buyValid : buyBbo.Valid
  sellValid : sellBbo.Valid
  crossed : sellBbo.bidPrice > buyBbo.askPrice
  profit : (0 : ℤ) < (buyBbo.bidPrice.toNat - buyBbo.askPrice.toNat) +
    (sellBbo.bidPrice.toNat - sellBbo.askPrice.toNat)
  /-- The calculation of the profit succeeds. -/
  buyKnown : (pairs.getPairInfo buy.exchangeId buy.tradingPair).isSome
  sellKnown : (pairs.getPairInfo sell.exchangeId sell.tradingPair).isSome

/-- The report holds the two quotes: bought at the ask and sold at the bid, left at
the bid and at the ask. -/
structure Holds (hashing : Hashing) (report : ArbitrageReport) (buy sell : Step)
    (buyBbo sellBbo : BBO) : Prop where
  buy : (report.transactions.find (hashing.stepHash buy)).map TransactionReport.withoutPnl =
    some
      { exchangeId := buy.exchangeId
        tradingPair := buy.tradingPair
        operation := .kBuy
        entryPrice := buyBbo.askPrice
        exitPrice := buyBbo.bidPrice
        entryQty := buyBbo.askQty
        exitQty := buyBbo.bidQty }
  sell : (report.transactions.find (hashing.stepHash sell)).map TransactionReport.withoutPnl =
    some
      { exchangeId := sell.exchangeId
        tradingPair := sell.tradingPair
        operation := .kSell
        entryPrice := sellBbo.bidPrice
        exitPrice := sellBbo.askPrice
        entryQty := sellBbo.bidQty
        exitQty := sellBbo.askQty }

variable {setting : Setting} {component : ArbitrageStrategyComponent} {cycle : ArbitrageCycle}
  {cycles : List ArbitrageCycle} {buy sell : Step} {buyBbo sellBbo : BBO}

/-- A trade is left at the quotes it was entered at, so two venues that bid no more
than they ask are never worth a report. -/
theorem not_reportable_of_uncrossed {pairs : ExchangeTradingPairs}
    (hbuy : buyBbo.bidPrice ≤ buyBbo.askPrice) (hsell : sellBbo.bidPrice ≤ sellBbo.askPrice) :
    ¬ Reportable pairs buy sell buyBbo sellBbo := by
  intro h
  have hprofit := h.profit
  have hbuy : buyBbo.bidPrice.toNat ≤ buyBbo.askPrice.toNat := hbuy
  have hsell : sellBbo.bidPrice.toNat ≤ sellBbo.askPrice.toNat := hsell
  omega

/-! ## One evaluation -/

/-- The calculation of the profit of a trade with the transactions of a cycle
succeeds when the pairs of the cycle are known. -/
theorem isSome_calculatePnl_iff {pairs : ExchangeTradingPairs} {trade : TradeState}
    (hidentities : trade.identities = (newTrade setting cycle).identities)
    (hsteps : Set.InjOn setting.hashing.stepHash { step | step ∈ cycle }) :
    (PnlCalculator.calculatePnl pairs trade).2.isSome ↔
      ∀ step ∈ cycle, (pairs.getPairInfo step.exchangeId step.tradingPair).isSome := by
  rw [PnlCalculator.isSome_calculatePnl]
  constructor
  · intro h step hstep
    have hidentity := identities_newTrade_of_mem hsteps hstep
    rw [← hidentities, TradeState.identities, Option.map_eq_some_iff] at hidentity
    obtain ⟨transaction, hfind, hidentity⟩ := hidentity
    have hknown := h _ transaction hfind
    simp only [TransactionReport.identity, Prod.mk.injEq] at hidentity
    rwa [hidentity.1, hidentity.2.1] at hknown
  · intro h key transaction hfind
    have hidentity : trade.identities key = some transaction.identity := by
      rw [TradeState.identities, hfind, Option.map_some]
    have hkey : key ∈ cycle.map setting.hashing.stepHash := by
      by_contra hkey
      rw [hidentities, identities_newTrade_of_notMem hkey] at hidentity
      cases hidentity
    obtain ⟨step, hstep, rfl⟩ := List.mem_map.mp hkey
    rw [hidentities, identities_newTrade_of_mem hsteps hstep] at hidentity
    simp only [TransactionReport.identity, Option.some.injEq, Prod.mk.injEq] at hidentity
    rw [← hidentity.1, ← hidentity.2.1]
    exact h step hstep

/-- The report of an evaluation is that of the profit it takes. -/
theorem reportsOf_evaluateTrade {uidTrade : UInt64} {quotes : Quotes} {trade : TradeState}
    {buyTransaction sellTransaction : TransactionReport} (hclosed : trade.isOpen = false)
    (hlegs : trade.HasLegs quotes buyTransaction sellTransaction) :
    reportsOf uidTrade (evaluateTrade setting uidTrade quotes trade).2 =
      if quotes.openSellPrice > quotes.openBuyPrice ∧ 0 < quotes.profit then
        (trade.roundTrip quotes setting.pairs uidTrade).toList
      else [] := by
  rw [effects_evaluateTrade hclosed, TradeState.report_tryClose_enter hlegs]
  by_cases hcrossed : quotes.openSellPrice > quotes.openBuyPrice
  · by_cases hprofit : 0 < quotes.profit
    · rw [if_pos hcrossed, if_pos hprofit, if_pos ⟨hcrossed, hprofit⟩,
        TradeState.roundTrip, TradeState.report_takeProfit]
      cases (PnlCalculator.calculatePnl setting.pairs
        ({ trade.enter quotes with isOpen := false }.leave quotes)).2 <;> simp [reportsOf]
    · rw [if_pos hcrossed, if_neg hprofit, if_neg fun h => hprofit h.2]
      simp [reportsOf]
  · rw [if_neg hcrossed, if_neg fun h => hcrossed h.1]
    rfl

/-- What the evaluation of a registered cycle of two legs reports. -/
structure ReportsExactly (setting : Setting) (reports : List ArbitrageReport) (buy sell : Step)
    (buyQuote sellQuote : Option BBO) : Prop where
  sends : reports ≠ [] ↔ ∃ buyBbo sellBbo, buyQuote = some buyBbo ∧ sellQuote = some sellBbo ∧
    Reportable setting.pairs buy sell buyBbo sellBbo
  once : reports.length ≤ 1
  contents : ∀ report ∈ reports, ∃ buyBbo sellBbo, buyQuote = some buyBbo ∧
    sellQuote = some sellBbo ∧ Holds setting.hashing report buy sell buyBbo sellBbo

/-- Nothing is reported when the quotes are not worth it. -/
theorem ReportsExactly.nil {buyQuote sellQuote : Option BBO}
    (h : ∀ buyBbo sellBbo, buyQuote = some buyBbo → sellQuote = some sellBbo →
      ¬ Reportable setting.pairs buy sell buyBbo sellBbo) :
    ReportsExactly setting [] buy sell buyQuote sellQuote where
  sends := by
    constructor
    · intro hsent
      exact absurd rfl hsent
    · rintro ⟨buyBbo, sellBbo, hbuy, hsell, hreportable⟩
      exact absurd hreportable (h buyBbo sellBbo hbuy hsell)
  once := Nat.zero_le _
  contents report hreport := by cases hreport

theorem holds_of_roundTrip {trade : TradeState} {uidTrade : UInt64}
    {buyTransaction sellTransaction : TransactionReport} {report : ArbitrageReport}
    (hlegs : trade.HasLegs (.ofLegs setting.hashing buy sell buyBbo sellBbo) buyTransaction
      sellTransaction)
    (hbuy : buyTransaction.identity = (buy.exchangeId, buy.tradingPair, .kBuy))
    (hsell : sellTransaction.identity = (sell.exchangeId, sell.tradingPair, .kSell))
    (hreport : trade.roundTrip (.ofLegs setting.hashing buy sell buyBbo sellBbo) setting.pairs
      uidTrade = some report) :
    Holds setting.hashing report buy sell buyBbo sellBbo := by
  simp only [TransactionReport.identity, Prod.mk.injEq] at hbuy hsell
  obtain ⟨hbuyExchange, hbuyPair, hbuyOperation⟩ := hbuy
  obtain ⟨hsellExchange, hsellPair, hsellOperation⟩ := hsell
  rw [TradeState.roundTrip, TradeState.report_takeProfit, Option.map_eq_some_iff] at hreport
  obtain ⟨pnl, -, rfl⟩ := hreport
  have hleft := hlegs.enter.close.leave
  constructor
  · refine (PnlCalculator.find_calculatePnl _ _ _).trans ?_
    refine (congrArg _ hleft.buy).trans ?_
    simp [TransactionReport.withoutPnl, Quotes.ofLegs, hbuyExchange, hbuyPair, hbuyOperation]
  · refine (PnlCalculator.find_calculatePnl _ _ _).trans ?_
    refine (congrArg _ hleft.sell).trans ?_
    simp [TransactionReport.withoutPnl, Quotes.ofLegs, hsellExchange, hsellPair, hsellOperation]

/-- The two phases of a trade report what the two quotes are worth. -/
theorem reportsExactly_of_trade {trade : TradeState} {uidTrade : UInt64}
    {buyTransaction sellTransaction : TransactionReport} (hlegs : cycle.TwoLegged buy sell)
    (hsteps : Set.InjOn setting.hashing.stepHash { step | step ∈ cycle })
    (hvalid : buyBbo.Valid ∧ sellBbo.Valid)
    (hidentities : trade.identities = (newTrade setting cycle).identities)
    (htransactions : trade.HasLegs (.ofLegs setting.hashing buy sell buyBbo sellBbo)
      buyTransaction sellTransaction)
    (hbuy : buyTransaction.identity = (buy.exchangeId, buy.tradingPair, .kBuy))
    (hsell : sellTransaction.identity = (sell.exchangeId, sell.tradingPair, .kSell)) :
    ReportsExactly setting
      (if (Quotes.ofLegs setting.hashing buy sell buyBbo sellBbo).openSellPrice >
            (Quotes.ofLegs setting.hashing buy sell buyBbo sellBbo).openBuyPrice ∧
          0 < (Quotes.ofLegs setting.hashing buy sell buyBbo sellBbo).profit then
        (trade.roundTrip (.ofLegs setting.hashing buy sell buyBbo sellBbo) setting.pairs
          uidTrade).toList
      else []) buy sell (some buyBbo) (some sellBbo) := by
  have hknown : (trade.roundTrip (.ofLegs setting.hashing buy sell buyBbo sellBbo)
      setting.pairs uidTrade).isSome ↔
        (setting.pairs.getPairInfo buy.exchangeId buy.tradingPair).isSome ∧
          (setting.pairs.getPairInfo sell.exchangeId sell.tradingPair).isSome := by
    rw [TradeState.roundTrip, TradeState.report_takeProfit, Option.isSome_map,
      isSome_calculatePnl_iff _ hsteps]
    · obtain hcases | hcases := hlegs.steps
      · simp [hcases]
      · simp [hcases, and_comm]
    · rw [TradeState.identities_leave, ← hidentities]
      exact TradeState.identities_enter
  have hholds : ∀ report,
      trade.roundTrip (.ofLegs setting.hashing buy sell buyBbo sellBbo) setting.pairs uidTrade =
        some report → Holds setting.hashing report buy sell buyBbo sellBbo :=
    fun report => holds_of_roundTrip htransactions hbuy hsell
  split
  · rename_i hworth
    refine ⟨?_, ?_, ?_⟩
    · rw [Ne, Option.toList_eq_nil_iff, ← Ne, ← Option.isSome_iff_ne_none, hknown]
      constructor
      · rintro ⟨hbuyKnown, hsellKnown⟩
        exact ⟨buyBbo, sellBbo, rfl, rfl, hvalid.1, hvalid.2, hworth.1, hworth.2, hbuyKnown,
          hsellKnown⟩
      · rintro ⟨first, second, hfirst, hsecond, hreportable⟩
        exact ⟨hreportable.buyKnown, hreportable.sellKnown⟩
    · exact Option.length_toList_le
    · intro report hreport
      exact ⟨buyBbo, sellBbo, rfl, rfl, hholds report (Option.mem_toList.mp hreport)⟩
  · rename_i hworthless
    apply ReportsExactly.nil
    intro first second hfirst hsecond hreportable
    cases hfirst
    cases hsecond
    exact hworthless ⟨hreportable.crossed, hreportable.profit⟩

theorem reportsExactly_evaluate (hregistered : Registered setting component cycles)
    (hclosed : component.AllClosed) (hcycle : cycle ∈ cycles) (hlegs : cycle.TwoLegged buy sell)
    (hsteps : Set.InjOn setting.hashing.stepHash { step | step ∈ cycle }) :
    ReportsExactly setting
      (reportsOf (setting.hashing.arbitrageCycleHash cycle)
        (component.evaluateOpportunityArbitrageCycle setting cycle).2) buy sell
      (component.exchangeBboMap (setting.hashing.venueKey buy.venue))
      (component.exchangeBboMap (setting.hashing.venueKey sell.venue)) := by
  by_cases hcomplete : ∃ buyBbo sellBbo,
      component.exchangeBboMap (setting.hashing.venueKey buy.venue) = some buyBbo ∧
        component.exchangeBboMap (setting.hashing.venueKey sell.venue) = some sellBbo ∧
        buyBbo.Valid ∧ sellBbo.Valid
  · obtain ⟨buyBbo, sellBbo, hbuy, hsell, hvalid⟩ := hcomplete
    obtain ⟨trade, buyTransaction, sellTransaction, htrade, hidentities, htransactions,
      hbuyIdentity, hsellIdentity, heffects⟩ :=
        evaluate_of_complete hregistered hcycle hlegs hsteps hbuy hsell hvalid
    rw [heffects, hbuy, hsell, reportsOf_evaluateTrade (hclosed _ trade htrade) htransactions]
    exact reportsExactly_of_trade hlegs hsteps hvalid hidentities htransactions hbuyIdentity
      hsellIdentity
  · rw [evaluate_of_incomplete hlegs fun buyBbo sellBbo hbuy hsell hvalid =>
      hcomplete ⟨buyBbo, sellBbo, hbuy, hsell, hvalid⟩]
    apply ReportsExactly.nil
    intro buyBbo sellBbo hbuy hsell hreportable
    exact hcomplete ⟨buyBbo, sellBbo, hbuy, hsell, hreportable.buyValid, hreportable.sellValid⟩

/-! ## One quote -/

/-- An evaluation reads the table of quotes and the trade of its cycle. -/
theorem effects_evaluate_congr {first second : ArbitrageStrategyComponent}
    (hbbo : first.exchangeBboMap = second.exchangeBboMap)
    (htrade : first.tradesState.find (setting.hashing.arbitrageCycleHash cycle) =
      second.tradesState.find (setting.hashing.arbitrageCycleHash cycle)) :
    (first.evaluateOpportunityArbitrageCycle setting cycle).2 =
      (second.evaluateOpportunityArbitrageCycle setting cycle).2 := by
  have hread : first.readQuotes setting cycle = second.readQuotes setting cycle := by
    rw [readQuotes, readQuotes, hbbo]
  simp only [evaluateOpportunityArbitrageCycle, hread, htrade]
  cases second.readQuotes setting cycle with
  | none => rfl
  | some quotes =>
      by_cases hcomplete : quotes.Complete
      · simp only [hcomplete, if_true]
        cases second.tradesState.find (setting.hashing.arbitrageCycleHash cycle) with
        | none => rfl
        | some trade =>
            dsimp only
            split_ifs <;> rfl
      · simp only [hcomplete, if_false]

variable {uidTrade : UInt64}

theorem uidTrade_of_tryClose {trade : TradeState} {quotes : Quotes} {pairs : ExchangeTradingPairs}
    {report : ArbitrageReport} (h : (trade.tryClose quotes pairs uidTrade).2 = some report) :
    report.uidTrade = uidTrade := by
  obtain ⟨-, hclose⟩ | ⟨-, -, hclose⟩ | ⟨-, -, hclose⟩ :=
    TradeState.tryClose_cases trade quotes pairs uidTrade
  · rw [hclose] at h
    cases h
  · rw [hclose] at h
    cases h
  · rw [hclose, TradeState.report_takeProfit, Option.map_eq_some_iff] at h
    obtain ⟨pnl, -, rfl⟩ := h
    rfl

/-- The effects of an evaluation are about its own trade. -/
theorem reportsOf_evaluateTrade_of_ne {other : UInt64} {quotes : Quotes} {trade : TradeState}
    (h : uidTrade ≠ other) :
    reportsOf uidTrade (evaluateTrade setting other quotes trade).2 = [] := by
  rw [evaluateTrade, reportsOf, List.filterMap_append, List.append_eq_nil_iff]
  constructor
  · split <;> rfl
  · cases hsent : ((trade.tryOpen quotes).1.tryClose quotes setting.pairs other).2 with
    | none => rfl
    | some report =>
        have huid : ¬ report.uidTrade = uidTrade := by
          rw [uidTrade_of_tryClose hsent]
          exact h.symm
        simp [huid]

/-- An evaluation leaves the trades of other cycles alone and does not report
them. -/
theorem evaluate_of_ne (h : uidTrade ≠ setting.hashing.arbitrageCycleHash cycle) :
    (component.evaluateOpportunityArbitrageCycle setting cycle).1.tradesState.find uidTrade =
        component.tradesState.find uidTrade ∧
      reportsOf uidTrade (component.evaluateOpportunityArbitrageCycle setting cycle).2 = [] := by
  obtain hsame | ⟨quotes, trade, -, heval⟩ := evaluate_cases setting component cycle
  · rw [hsame]
    exact ⟨rfl, rfl⟩
  · rw [heval]
    exact ⟨by rw [UnorderedMap.find_modify, if_neg h], reportsOf_evaluateTrade_of_ne h⟩

theorem reportsOf_cons_evaluated (cycle : ArbitrageCycle) (effects later : List Effect) :
    reportsOf uidTrade (.evaluated cycle :: effects ++ later) =
      reportsOf uidTrade effects ++ reportsOf uidTrade later := by
  simp [reportsOf]

theorem reportsOf_evaluateAll_of_ne
    (h : ∀ cycle ∈ cycles, uidTrade ≠ setting.hashing.arbitrageCycleHash cycle) :
    reportsOf uidTrade (evaluateAll setting component cycles).2 = [] := by
  induction cycles generalizing component with
  | nil => rfl
  | cons cycle cycles ih =>
      rw [evaluateAll, reportsOf_cons_evaluated, (evaluate_of_ne (h cycle List.mem_cons_self)).2,
        List.nil_append]
      exact ih fun other hother => h other (List.mem_cons_of_mem _ hother)

/-- A loop over cycles reports a cycle as its evaluation before the loop would. -/
theorem reportsOf_evaluateAll (hcycle : cycle ∈ cycles) (hnodup : cycles.Nodup)
    (hinjective : Set.InjOn setting.hashing.arbitrageCycleHash { cycle | cycle ∈ cycles }) :
    reportsOf (setting.hashing.arbitrageCycleHash cycle)
        (evaluateAll setting component cycles).2 =
      reportsOf (setting.hashing.arbitrageCycleHash cycle)
        (component.evaluateOpportunityArbitrageCycle setting cycle).2 := by
  induction cycles generalizing component with
  | nil => cases hcycle
  | cons head tail ih =>
      obtain ⟨hhead, htail⟩ := List.nodup_cons.mp hnodup
      have hinjectiveTail : Set.InjOn setting.hashing.arbitrageCycleHash { c | c ∈ tail } :=
        hinjective.mono fun other hother => List.mem_cons_of_mem _ hother
      rw [evaluateAll, reportsOf_cons_evaluated]
      rcases List.mem_cons.mp hcycle with rfl | hlater
      · rw [reportsOf_evaluateAll_of_ne, List.append_nil]
        intro other hother hhash
        have hequal : cycle = other :=
          hinjective List.mem_cons_self (List.mem_cons_of_mem _ hother) hhash
        exact hhead (hequal ▸ hother)
      · have hne : setting.hashing.arbitrageCycleHash cycle ≠
            setting.hashing.arbitrageCycleHash head := by
          intro hhash
          have hequal : cycle = head :=
            hinjective (List.mem_cons_of_mem _ hlater) List.mem_cons_self hhash
          exact hhead (hequal ▸ hlater)
        rw [(evaluate_of_ne hne).2, List.nil_append, ih hlater htail hinjectiveTail]
        exact congrArg _
          (effects_evaluate_congr keeps_evaluate.exchangeBboMap (evaluate_of_ne hne).1)

/-- A quote reports a cycle through its venue as the evaluation of the cycle does. -/
theorem reportsOf_handleNewBBO {event : NewBBO} (hregistered : Registered setting component cycles)
    (hinjective : setting.hashing.InjectiveOn
      (venueOf event :: cycles.flatMap ArbitrageCycle.venues) cycles)
    (hcycle : cycle ∈ cycles) (hvenue : venueOf event ∈ cycle.venues) :
    reportsOf (setting.hashing.arbitrageCycleHash cycle) (component.handleNewBBO setting event).2 =
      reportsOf (setting.hashing.arbitrageCycleHash cycle)
        ((component.addOrUpdateBBO (setting.hashing.venueKey (venueOf event))
          event.bbo).evaluateOpportunityArbitrageCycle setting cycle).2 := by
  have hrange := (hregistered.addOrUpdateBBO (setting.hashing.venueKey (venueOf event))
    event.bbo).equalRange_perm hinjective.venueKey
  apply reportsOf_evaluateAll
  · exact hrange.mem_iff.mpr (List.mem_filter.mpr ⟨List.mem_dedup.mpr hcycle, by simp [hvenue]⟩)
  · exact hrange.nodup_iff.mpr (cycles.nodup_dedup.filter _)
  · apply hinjective.arbitrageCycleHash.mono
    intro other hother
    exact List.mem_dedup.mp (List.mem_filter.mp (hrange.mem_iff.mp hother)).1

/-! ## Runs -/

variable {events : List Event}

theorem quotes_append (first second : List Event) :
    quotes (first ++ second) = quotes first ++ quotes second :=
  List.filterMap_append

theorem added_append (first second : List Event) :
    added (first ++ second) = added first ++ added second :=
  List.filterMap_append

theorem latest_concat_addArbitrageCycle (cycle : ArbitrageCycle) :
    latest (events ++ [Event.addArbitrageCycle cycle]) = latest events := by
  simp [latest, quotes]

theorem latest_concat_newBBO (event : NewBBO) :
    latest (events ++ [Event.newBBO event]) =
      Function.update (latest events) (venueOf event) (some event.bbo) := by
  simp [latest, quotes, writes_append]

/-- The table of quotes holds the latest quote of each venue. -/
theorem exchangeBboMap_run {known : List Venue} {venue : Venue}
    (hinjective : Set.InjOn setting.hashing.venueKey { venue | venue ∈ known })
    (hquotes : ∀ quoted ∈ (quotes events).map Prod.fst, quoted ∈ known) (hvenue : venue ∈ known) :
    ((machine setting).run events).exchangeBboMap (setting.hashing.venueKey venue) =
      latest events venue := by
  induction events using List.reverseRecOn with
  | nil => rfl
  | append_singleton events event ih =>
      have hearlier := ih fun quoted h => hquotes quoted (by
        rw [quotes_append, List.map_append]
        exact List.mem_append_left _ h)
      rw [Machine.run_concat]
      cases event with
      | addArbitrageCycle cycle =>
          rw [latest_concat_addArbitrageCycle, ← hearlier]
          exact congrFun exchangeBboMap_addArbitrageCycle _
      | newBBO event =>
          have hquoted : venueOf event ∈ known := hquotes _ (by simp [quotes])
          rw [latest_concat_newBBO]
          refine (congrFun (keeps_handleNewBBO event).exchangeBboMap _).trans ?_
          rw [addOrUpdateBBO_eq]
          simp only [Function.update_apply, hearlier]
          exact if_congr ⟨fun hkey => hinjective hvenue hquoted hkey, congrArg _⟩ rfl rfl

theorem mem_venues_iff {venue : Venue} :
    venue ∈ venues events ↔
      venue ∈ (quotes events).map Prod.fst ∨ ∃ cycle ∈ added events, venue ∈ cycle.venues := by
  rw [venues, List.mem_append, List.mem_flatMap]

/-- The hashes that a quote after a run compares. -/
theorem injectiveOn_newBBO {event : NewBBO}
    (hinjective : setting.hashing.InjectiveOn (venues (events ++ [Event.newBBO event]))
      (added (events ++ [Event.newBBO event]))) :
    setting.hashing.InjectiveOn
      (venueOf event :: (added events).flatMap ArbitrageCycle.venues) (added events) := by
  have hadded : added (events ++ [Event.newBBO event]) = added events := added_concat_newBBO event
  refine hinjective.mono (fun venue h => mem_venues_iff.mpr ?_) (fun cycle h => hadded ▸ h)
  rcases List.mem_cons.mp h with rfl | hcycles
  · exact .inl (by simp [quotes])
  · rw [hadded]
    exact .inr (List.mem_flatMap.mp hcycles)

/-- A quote after a run reports a cycle through its venue as an evaluation does on the
trades of the run and the latest quotes. -/
theorem exists_evaluation {event : NewBBO}
    (hinjective : setting.hashing.InjectiveOn (venues (events ++ [Event.newBBO event]))
      (added (events ++ [Event.newBBO event])))
    (hcycle : cycle ∈ added events) (hvenue : venueOf event ∈ cycle.venues) :
    ∃ component, Registered setting component (added events) ∧ component.AllClosed ∧
      Set.InjOn setting.hashing.stepHash { step | step ∈ cycle } ∧
      (∀ step ∈ cycle, component.exchangeBboMap (setting.hashing.venueKey step.venue) =
        latest (events ++ [Event.newBBO event]) step.venue) ∧
      reportsOf (setting.hashing.arbitrageCycleHash cycle)
          ((machine setting).emitted events (.newBBO event)) =
        reportsOf (setting.hashing.arbitrageCycleHash cycle)
          (component.evaluateOpportunityArbitrageCycle setting cycle).2 := by
  have hadded : added (events ++ [Event.newBBO event]) = added events := added_concat_newBBO event
  have hnow := injectiveOn_newBBO hinjective
  have hregistered : Registered setting ((machine setting).run events) (added events) :=
    registered_run hnow.arbitrageCycleHash
  refine ⟨((machine setting).run events).addOrUpdateBBO
      (setting.hashing.venueKey (venueOf event)) event.bbo, hregistered.addOrUpdateBBO _ _,
    (allClosed_run setting events).addOrUpdateBBO _ _, hnow.stepHash.mono (steps_subset hcycle),
    ?_, reportsOf_handleNewBBO hregistered hnow hcycle hvenue⟩
  intro step hstep
  rw [← exchangeBboMap_run hinjective.venueKey, Machine.run_concat]
  · exact congrFun (keeps_handleNewBBO event).exchangeBboMap.symm _
  · exact fun quoted hquoted => mem_venues_iff.mpr (.inl hquoted)
  · exact mem_venues_iff.mpr (.inr ⟨cycle, hadded ▸ hcycle, List.mem_map_of_mem hstep⟩)

/-- One quote after a run. -/
theorem reportsExactly_emitted {event : NewBBO}
    (hinjective : setting.hashing.InjectiveOn (venues (events ++ [Event.newBBO event]))
      (added (events ++ [Event.newBBO event])))
    (hcycle : cycle ∈ added events) (hlegs : cycle.TwoLegged buy sell)
    (hvenue : venueOf event ∈ cycle.venues) :
    ReportsExactly setting
      (reportsOf (setting.hashing.arbitrageCycleHash cycle)
        ((machine setting).emitted events (.newBBO event))) buy sell
      (latest (events ++ [Event.newBBO event]) buy.venue)
      (latest (events ++ [Event.newBBO event]) sell.venue) := by
  obtain ⟨component, hregistered, hclosed, hsteps, hlatest, hreports⟩ :=
    exists_evaluation hinjective hcycle hvenue
  rw [hreports, ← hlatest buy hlegs.mem.1, ← hlatest sell hlegs.mem.2]
  exact reportsExactly_evaluate hregistered hclosed hcycle hlegs hsteps

/-- Venues that bid no more than they ask never lead to a report. -/
theorem reportsOf_eq_nil_of_uncrossed {event : NewBBO}
    (hinjective : setting.hashing.InjectiveOn (venues (events ++ [Event.newBBO event]))
      (added (events ++ [Event.newBBO event])))
    (hcycle : cycle ∈ added events) (hlegs : cycle.TwoLegged buy sell)
    (hvenue : venueOf event ∈ cycle.venues)
    (huncrossed : ∀ step ∈ cycle, ∀ bbo ∈ latest (events ++ [Event.newBBO event]) step.venue,
      bbo.bidPrice ≤ bbo.askPrice) :
    reportsOf (setting.hashing.arbitrageCycleHash cycle)
      ((machine setting).emitted events (.newBBO event)) = [] := by
  have hexactly := reportsExactly_emitted hinjective hcycle hlegs hvenue
  by_contra hsent
  obtain ⟨buyBbo, sellBbo, hbuy, hsell, hreportable⟩ := hexactly.sends.mp hsent
  exact not_reportable_of_uncrossed (huncrossed buy hlegs.mem.1 buyBbo hbuy)
    (huncrossed sell hlegs.mem.2 sellBbo hsell) hreportable

/-- The hashes of the first part of a run are injective when those of the run are. -/
theorem injectiveOn_left {first second : List Event}
    (h : setting.hashing.InjectiveOn (venues (first ++ second)) (added (first ++ second))) :
    setting.hashing.InjectiveOn (venues first) (added first) := by
  refine h.mono (fun venue hvenue => ?_) (fun cycle hcycle => ?_)
  · rw [mem_venues_iff] at hvenue ⊢
    rw [quotes_append, added_append, List.map_append]
    simp only [List.mem_append]
    grind
  · rw [added_append]
    exact List.mem_append_left _ hcycle

/-- In every run no trade stays open, and every quote sends exactly the reports that
the latest quotes are worth. -/
theorem reports_run (setting : Setting) (events : List Event)
    (hinjective : setting.hashing.InjectiveOn (venues events) (added events)) :
    EveryStep (fun before event =>
      ((machine setting).run (before ++ [event])).AllClosed ∧
        ∀ quote cycle buy sell, event = .newBBO quote → cycle ∈ added before →
          ArbitrageCycle.TwoLegged cycle buy sell → venueOf quote ∈ cycle.venues →
            ReportsExactly setting
              (reportsOf (setting.hashing.arbitrageCycleHash cycle)
                ((machine setting).emitted before event)) buy sell
              (latest (before ++ [event]) buy.venue) (latest (before ++ [event]) sell.venue))
      events := by
  rintro before event after rfl
  refine ⟨allClosed_run setting _, ?_⟩
  rintro quote cycle buy sell rfl hcycle hlegs hvenue
  have hsplit : before ++ Event.newBBO quote :: after =
      (before ++ [Event.newBBO quote]) ++ after := by simp
  rw [hsplit] at hinjective
  exact reportsExactly_emitted (injectiveOn_left hinjective) hcycle hlegs hvenue

/-- The pair is known on both exchanges, with other precisions. -/
def bitcoinPairs : ExchangeTradingPairs where
  exchangePairs
    | .kBinance => some fun _ => some ⟨2, 5, "BTCUSDT", "BTCUSDT"⟩
    | .kBybit => some fun _ => some ⟨1, 6, "BTCUSDT", "BTCUSDT"⟩
    | _ => none

/-- A cycle, a quote of its buy venue, and a quote of its sell venue whose bid is
above its own ask. -/
def crossedQuotes : List Event :=
  [.addArbitrageCycle binanceToBybit, .newBBO ⟨.kBinance, ⟨2, 1⟩, ⟨99, 100, 7, 8⟩, .kSpot⟩,
    .newBBO ⟨.kBybit, ⟨2, 1⟩, ⟨104, 102, 5, 6⟩, .kSpot⟩]

theorem crossedQuotes_reported :
    reportsOf (boostHashing.arbitrageCycleHash binanceToBybit)
      ((machine (boostSetting bitcoinPairs)).emitted (crossedQuotes.take 2)
        (.newBBO ⟨.kBybit, ⟨2, 1⟩, ⟨104, 102, 5, 6⟩, .kSpot⟩)) ≠ [] := by
  have hinjective : boostHashing.InjectiveOn (venues crossedQuotes) (added crossedQuotes) :=
    .of_forall _ (by decide +kernel) (by decide +kernel) (by decide +kernel)
  have hrun := reports_run (boostSetting bitcoinPairs) crossedQuotes hinjective
    (crossedQuotes.take 2) (.newBBO ⟨.kBybit, ⟨2, 1⟩, ⟨104, 102, 5, 6⟩, .kSpot⟩) [] rfl
  refine (hrun.2 _ binanceToBybit _ _ rfl (by decide) ⟨.inl rfl, rfl, rfl⟩
    (by decide)).sends.mpr ⟨⟨99, 100, 7, 8⟩, ⟨104, 102, 5, 6⟩, rfl, rfl, ?_⟩
  exact
    { buyValid := ⟨by decide, by decide, by decide, by decide⟩
      sellValid := ⟨by decide, by decide, by decide, by decide⟩
      crossed := by decide
      profit := by decide
      buyKnown := rfl
      sellKnown := rfl }

end ArbitrageStrategyComponent

end CryptoBot.Arbitrage

/-
# The dictionary of cycles

Registering a cycle goes through it twice, with a test for duplicates of its own
each time: first the venues of its steps, to list the cycle under each of them,
then, for a cycle without a trade, its steps, to give the trade its transactions.
Quotes that arrive in between leave all three tables with the keys they have.

The law says what the tables hold after any sequence of registrations and quotes:
they are the tables of the *set* of registered cycles, and a quote evaluates the
cycles through its venue once each.
-/

import CryptoBot.Arbitrage.Strategy

namespace CryptoBot.Arbitrage

open CryptoBot.Common CryptoBot.Book CryptoBot.Math

namespace ArbitrageStrategyComponent

/-- The cycles of the registrations in a run, repetitions included. -/
def added (events : List Event) : List ArbitrageCycle :=
  events.filterMap fun event =>
    match event with
    | .addArbitrageCycle cycle => some cycle
    | .newBBO _ => none

/-- The cycles whose evaluation is among the effects. -/
def evaluations (effects : List Effect) : List ArbitrageCycle :=
  effects.filterMap fun effect =>
    match effect with
    | .evaluated cycle => some cycle
    | _ => none

variable {setting : Setting} {component : ArbitrageStrategyComponent}
  {cycles : List ArbitrageCycle} {cycle : ArbitrageCycle}

/-! ## Registration -/

theorem addStep_eq_insertAbsent (dictionary : TradeDictionary) (step : Step) :
    addStep setting cycle dictionary step =
      setting.dictionaryPlacement.insertAbsent dictionary
        (setting.hashing.venueKey step.venue, cycle) := by
  have hexist : ((dictionary.equalRange (setting.hashing.venueKey step.venue)).any
      fun listed => listed = cycle) = true ↔
        (setting.hashing.venueKey step.venue, cycle) ∈ dictionary := by
    simp [TradeDictionary.equalRange]
  simp only [addStep, Placement.insertAbsent]
  split
  · rename_i h
    rw [if_pos (hexist.mp h)]
  · rename_i h
    rw [if_neg (mt hexist.mpr h)]
    rfl

/-- The loop over the steps inserts the entries that are missing. -/
theorem foldl_addStep (dictionary : TradeDictionary) (steps : List Step) :
    steps.foldl (addStep setting cycle) dictionary =
      setting.dictionaryPlacement.insertAll dictionary
        (steps.map fun step => (setting.hashing.venueKey step.venue, cycle)) := by
  rw [Placement.insertAll, List.foldl_map]
  congr 1
  funext dictionary step
  exact addStep_eq_insertAbsent dictionary step

/-- The trade of a cycle at its registration. -/
def newTrade (setting : Setting) (cycle : ArbitrageCycle) : TradeState :=
  { transactionStates := transactionsOf setting cycle }

theorem find_transactionsOf (cycle : ArbitrageCycle) :
    (transactionsOf setting cycle).find = writes (fun _ => none)
      (cycle.map fun step => (setting.hashing.stepHash step, some (.ofStep step))) :=
  UnorderedMap.find_foldl_set _ _ cycle _ _

/-- The transactions of a new trade are those of the steps. -/
theorem identities_newTrade_of_mem
    (hsteps : Set.InjOn setting.hashing.stepHash { step | step ∈ cycle }) {step : Step}
    (hstep : step ∈ cycle) :
    (newTrade setting cycle).identities (setting.hashing.stepHash step) =
      some (step.exchangeId, step.tradingPair, step.operation) := by
  have hfind : (transactionsOf setting cycle).find (setting.hashing.stepHash step) =
      some (.ofStep step) := by
    rw [find_transactionsOf]
    apply writes_apply_of_forall_mem
    · rw [List.map_map]
      exact List.mem_map_of_mem hstep
    · intro entry hentry hkey
      obtain ⟨other, hother, rfl⟩ := List.mem_map.mp hentry
      rw [hsteps hother hstep hkey]
  rw [TradeState.identities, newTrade, hfind]
  rfl

theorem identities_newTrade_of_notMem {key : UInt64}
    (hkey : key ∉ cycle.map setting.hashing.stepHash) :
    (newTrade setting cycle).identities key = none := by
  have hfind : (transactionsOf setting cycle).find key = none := by
    rw [find_transactionsOf]
    apply writes_apply_of_notMem
    rw [List.map_map]
    exact hkey
  rw [TradeState.identities, newTrade, hfind, Option.map_none]

theorem dictionary_addArbitrageCycle :
    (component.addArbitrageCycle setting cycle).exchangeTradingPairArbitrageMap =
      setting.dictionaryPlacement.insertAll component.exchangeTradingPairArbitrageMap
        (cycle.map fun step => (setting.hashing.venueKey step.venue, cycle)) := by
  rw [← foldl_addStep, addArbitrageCycle]
  split <;> rfl

@[simp]
theorem exchangeBboMap_addArbitrageCycle :
    (component.addArbitrageCycle setting cycle).exchangeBboMap = component.exchangeBboMap := by
  rw [addArbitrageCycle]
  split <;> rfl

/-- A cycle that has a trade keeps it. -/
theorem tradesState_addArbitrageCycle_of_some
    (h : (component.tradesState.find (setting.hashing.arbitrageCycleHash cycle)).isSome) :
    (component.addArbitrageCycle setting cycle).tradesState = component.tradesState := by
  simp only [addArbitrageCycle, h, if_true]

/-- A cycle without a trade gets one. -/
theorem find_addArbitrageCycle_of_none
    (h : component.tradesState.find (setting.hashing.arbitrageCycleHash cycle) = none)
    (uidTrade : UInt64) :
    (component.addArbitrageCycle setting cycle).tradesState.find uidTrade =
      if uidTrade = setting.hashing.arbitrageCycleHash cycle then
        some (newTrade setting cycle)
      else component.tradesState.find uidTrade := by
  simp only [addArbitrageCycle, h, Option.isSome_none, Bool.false_eq_true, if_false,
    UnorderedMap.find_modify, UnorderedMap.find_set]
  split <;> rfl

/-! ## The tables of a set of cycles -/

/-- The tables list the cycles, each under its venues and with a trade of its
own. -/
structure Registered (setting : Setting) (component : ArbitrageStrategyComponent)
    (cycles : List ArbitrageCycle) : Prop where
  nodup : component.exchangeTradingPairArbitrageMap.Nodup
  mem_dictionary : ∀ key cycle, (key, cycle) ∈ component.exchangeTradingPairArbitrageMap ↔
    cycle ∈ cycles ∧ key ∈ cycle.venues.map setting.hashing.venueKey
  mem_keys : ∀ uidTrade, uidTrade ∈ component.tradesState.keys ↔
    uidTrade ∈ cycles.map setting.hashing.arbitrageCycleHash
  identities : ∀ cycle ∈ cycles, ∀ trade,
    component.tradesState.find (setting.hashing.arbitrageCycleHash cycle) = some trade →
      trade.identities = (newTrade setting cycle).identities

namespace Registered

theorem nil : Registered setting {} [] where
  nodup := List.nodup_nil
  mem_dictionary := by simp
  mem_keys := by simp [UnorderedMap.keys, UnorderedMap.empty]
  identities := by simp

/-- The trade of a registered cycle. -/
theorem exists_trade (h : Registered setting component cycles) (hcycle : cycle ∈ cycles) :
    ∃ trade,
      component.tradesState.find (setting.hashing.arbitrageCycleHash cycle) = some trade := by
  have hkey := (h.mem_keys _).mpr (List.mem_map_of_mem hcycle)
  exact Option.isSome_iff_exists.mp (component.tradesState.mem_keys_iff.mp hkey)

/-- A quote changes none of it. -/
theorem keeps {later : ArbitrageStrategyComponent} (h : Registered setting component cycles)
    (hkeeps : component.Keeps later) : Registered setting later cycles where
  nodup := by
    rw [hkeeps.dictionary]
    exact h.nodup
  mem_dictionary key cycle := by
    rw [hkeeps.dictionary]
    exact h.mem_dictionary key cycle
  mem_keys uidTrade := by
    rw [hkeeps.keys]
    exact h.mem_keys uidTrade
  identities cycle hcycle trade htrade := by
    have hidentities := hkeeps.identities (setting.hashing.arbitrageCycleHash cycle)
    obtain ⟨earlier, hearlier⟩ := h.exists_trade hcycle
    rw [htrade, hearlier, Option.map_some, Option.map_some, Option.some.injEq] at hidentities
    rw [hidentities]
    exact h.identities cycle hcycle earlier hearlier

theorem addOrUpdateBBO (h : Registered setting component cycles) (key : UInt64) (bbo : BBO) :
    Registered setting (component.addOrUpdateBBO key bbo) cycles := by
  rw [addOrUpdateBBO_eq]
  exact ⟨h.nodup, h.mem_dictionary, h.mem_keys, h.identities⟩

theorem handleNewBBO (h : Registered setting component cycles) (event : NewBBO) :
    Registered setting (component.handleNewBBO setting event).1 cycles :=
  (h.addOrUpdateBBO _ event.bbo).keeps (keeps_handleNewBBO event)

variable {added : ArbitrageCycle}

theorem isSome_find_iff (h : Registered setting component cycles)
    (hinjective : Set.InjOn setting.hashing.arbitrageCycleHash
      { cycle | cycle ∈ cycles ++ [added] }) :
    (component.tradesState.find (setting.hashing.arbitrageCycleHash added)).isSome ↔
      added ∈ cycles := by
  rw [← UnorderedMap.mem_keys_iff, h.mem_keys, List.mem_map]
  constructor
  · rintro ⟨cycle, hcycle, hhash⟩
    have hequal : cycle = added := hinjective (by simp [hcycle]) (by simp) hhash
    rwa [← hequal]
  · intro hadded
    exact ⟨added, hadded, rfl⟩

theorem addArbitrageCycle (h : Registered setting component cycles)
    (hinjective : Set.InjOn setting.hashing.arbitrageCycleHash
      { cycle | cycle ∈ cycles ++ [added] }) :
    Registered setting (component.addArbitrageCycle setting added) (cycles ++ [added]) where
  nodup := by
    rw [dictionary_addArbitrageCycle]
    exact Placement.nodup_insertAll _ h.nodup
  mem_dictionary key cycle := by
    rw [dictionary_addArbitrageCycle, Placement.mem_insertAll, h.mem_dictionary]
    simp only [ArbitrageCycle.venues, List.mem_append, List.mem_singleton, List.mem_map,
      Prod.mk.injEq]
    grind
  mem_keys uidTrade := by
    by_cases hadded : added ∈ cycles
    · rw [tradesState_addArbitrageCycle_of_some ((h.isSome_find_iff hinjective).mpr hadded),
        h.mem_keys]
      simp only [List.map_append, List.mem_append, List.map_cons, List.map_nil,
        List.mem_singleton]
      exact ⟨.inl, fun hmem => hmem.elim id fun heq => heq ▸ List.mem_map_of_mem hadded⟩
    · have hnone := Option.not_isSome_iff_eq_none.mp (mt (h.isSome_find_iff hinjective).mp hadded)
      rw [UnorderedMap.mem_keys_iff, find_addArbitrageCycle_of_none hnone]
      have hkeys := h.mem_keys uidTrade
      rw [UnorderedMap.mem_keys_iff] at hkeys
      split
      · rename_i huid
        simp [huid]
      · rename_i huid
        simp [hkeys, huid]
  identities cycle hcycle trade htrade := by
    by_cases hadded : added ∈ cycles
    · rw [tradesState_addArbitrageCycle_of_some ((h.isSome_find_iff hinjective).mpr hadded)]
        at htrade
      have hold : cycle ∈ cycles := by
        rcases List.mem_append.mp hcycle with hold | hnew
        · exact hold
        · rwa [List.mem_singleton.mp hnew]
      exact h.identities cycle hold trade htrade
    · have hnone := Option.not_isSome_iff_eq_none.mp (mt (h.isSome_find_iff hinjective).mp hadded)
      rw [find_addArbitrageCycle_of_none hnone] at htrade
      split at htrade
      · rename_i hhash
        have hequal : cycle = added := hinjective hcycle (by simp) hhash
        cases htrade
        rw [hequal]
      · rename_i hhash
        have hold : cycle ∈ cycles := by
          rcases List.mem_append.mp hcycle with hold | hnew
          · exact hold
          · exact absurd (congrArg _ (List.mem_singleton.mp hnew)) hhash
        exact h.identities cycle hold trade htrade

end Registered

variable {events : List Event}

theorem added_concat_addArbitrageCycle :
    added (events ++ [Event.addArbitrageCycle cycle]) = added events ++ [cycle] := by
  simp [added]

theorem added_concat_newBBO (event : NewBBO) :
    added (events ++ [Event.newBBO event]) = added events := by
  simp [added]

/-- The tables in a run are those of the cycles that were registered in it. -/
theorem registered_run
    (hinjective : Set.InjOn setting.hashing.arbitrageCycleHash
      { cycle | cycle ∈ added events }) :
    Registered setting ((machine setting).run events) (added events) := by
  induction events using List.reverseRecOn with
  | nil => exact .nil
  | append_singleton events event ih =>
      rw [Machine.run_concat]
      cases event with
      | addArbitrageCycle cycle =>
          rw [added_concat_addArbitrageCycle] at hinjective ⊢
          have hearlier := ih (hinjective.mono fun earlier h => List.mem_append_left _ h)
          exact hearlier.addArbitrageCycle hinjective
      | newBBO event =>
          rw [added_concat_newBBO] at hinjective ⊢
          exact (ih hinjective).handleNewBBO event

/-! ## The law of the dictionary -/

theorem evaluations_evaluate :
    evaluations (component.evaluateOpportunityArbitrageCycle setting cycle).2 = [] := by
  obtain hsame | ⟨quotes, trade, -, heval⟩ := evaluate_cases setting component cycle
  · rw [hsame]
    rfl
  · rw [heval, evaluateTrade]
    cases (trade.tryOpen quotes).2 <;>
      cases ((trade.tryOpen quotes).1.tryClose quotes setting.pairs
        (setting.hashing.arbitrageCycleHash cycle)).2 <;>
      simp [evaluations]

/-- The loop evaluates the cycles it is given. -/
theorem evaluations_evaluateAll (component : ArbitrageStrategyComponent)
    (cycles : List ArbitrageCycle) :
    evaluations (evaluateAll setting component cycles).2 = cycles := by
  induction cycles generalizing component with
  | nil => rfl
  | cons cycle cycles ih =>
      have hcycle : evaluations
          (component.evaluateOpportunityArbitrageCycle setting cycle).2 = [] :=
        evaluations_evaluate
      have hrest := ih (component.evaluateOpportunityArbitrageCycle setting cycle).1
      simp only [evaluations] at hcycle hrest
      simp [evaluations, evaluateAll, hcycle, hrest]

/-- The tables are those of the set of the given cycles, and the component behaves
accordingly. -/
structure Exact (setting : Setting) (component : ArbitrageStrategyComponent)
    (cycles : List ArbitrageCycle) (event : NewBBO) : Prop where
  /-- One entry for each cycle and each venue of it. -/
  dictionary : component.exchangeTradingPairArbitrageMap.Perm
    (cycles.dedup.flatMap fun cycle =>
      cycle.venues.dedup.map fun venue => (setting.hashing.venueKey venue, cycle))
  uniqueCycles : (component.exchangeTradingPairArbitrageMap.getUniqueCycles
    setting.cyclePlacement).Perm cycles.dedup
  /-- One trade for each cycle. -/
  trades : component.tradesState.keys.Perm (cycles.dedup.map setting.hashing.arbitrageCycleHash)
  /-- One transaction for each step of the cycle, on what the step says. -/
  transactions : ∀ cycle ∈ cycles, ∃ trade,
    component.tradesState.find (setting.hashing.arbitrageCycleHash cycle) = some trade ∧
      trade.transactionStates.keys.Perm (cycle.dedup.map setting.hashing.stepHash) ∧
      ∀ step ∈ cycle, trade.identities (setting.hashing.stepHash step) =
        some (step.exchangeId, step.tradingPair, step.operation)
  again : ∀ cycle ∈ cycles, component.addArbitrageCycle setting cycle = component
  /-- A quote evaluates the cycles through its venue, each of them once. -/
  evaluated : (evaluations (component.handleNewBBO setting event).2).Perm
    (cycles.dedup.filter fun cycle => venueOf event ∈ cycle.venues)

namespace Registered

theorem dictionary_perm (h : Registered setting component cycles)
    (hvenues : Set.InjOn setting.hashing.venueKey
      { venue | venue ∈ cycles.flatMap ArbitrageCycle.venues }) :
    component.exchangeTradingPairArbitrageMap.Perm
      (cycles.dedup.flatMap fun cycle =>
        cycle.venues.dedup.map fun venue => (setting.hashing.venueKey venue, cycle)) := by
  have hnodup : (cycles.dedup.flatMap fun cycle =>
      cycle.venues.dedup.map fun venue => (setting.hashing.venueKey venue, cycle)).Nodup := by
    rw [List.nodup_flatMap]
    constructor
    · intro cycle hcycle
      apply nodup_map_dedup
      intro first hfirst second hsecond hkey
      have hcycle := List.mem_dedup.mp hcycle
      exact hvenues (List.mem_flatMap.mpr ⟨cycle, hcycle, hfirst⟩)
        (List.mem_flatMap.mpr ⟨cycle, hcycle, hsecond⟩) (Prod.mk.inj hkey).1
    · refine cycles.nodup_dedup.imp fun {first second} hne entry hfirst hsecond => hne ?_
      obtain ⟨_, _, rfl⟩ := List.mem_map.mp hfirst
      obtain ⟨_, _, hentry⟩ := List.mem_map.mp hsecond
      exact (Prod.mk.inj hentry).2.symm
  rw [List.perm_ext_iff_of_nodup h.nodup hnodup]
  rintro ⟨key, cycle⟩
  rw [h.mem_dictionary]
  simp

/-- Every cycle has a first step, so every cycle is listed. -/
theorem uniqueCycles_perm (h : Registered setting component cycles)
    (hnonempty : ∀ cycle ∈ cycles, cycle ≠ []) (placement : Placement ArbitrageCycle) :
    (component.exchangeTradingPairArbitrageMap.getUniqueCycles placement).Perm cycles.dedup := by
  rw [TradeDictionary.getUniqueCycles,
    List.perm_ext_iff_of_nodup (placement.nodup_insertAll List.nodup_nil) cycles.nodup_dedup]
  intro cycle
  rw [Placement.mem_insertAll, List.mem_dedup]
  simp only [List.not_mem_nil, false_or, List.mem_map, Prod.exists, exists_eq_right,
    h.mem_dictionary]
  constructor
  · rintro ⟨_, hcycle, _⟩
    exact hcycle
  · intro hcycle
    obtain ⟨step, hstep⟩ := List.exists_mem_of_ne_nil cycle (hnonempty cycle hcycle)
    exact ⟨_, hcycle, step.venue, List.mem_map_of_mem hstep, rfl⟩

theorem transactions_perm (h : Registered setting component cycles) (hcycle : cycle ∈ cycles)
    (hsteps : Set.InjOn setting.hashing.stepHash { step | step ∈ cycle }) :
    ∃ trade, component.tradesState.find (setting.hashing.arbitrageCycleHash cycle) = some trade ∧
      trade.transactionStates.keys.Perm (cycle.dedup.map setting.hashing.stepHash) ∧
      ∀ step ∈ cycle, trade.identities (setting.hashing.stepHash step) =
        some (step.exchangeId, step.tradingPair, step.operation) := by
  obtain ⟨trade, htrade⟩ := h.exists_trade hcycle
  have hidentities := h.identities cycle hcycle trade htrade
  have hstep : ∀ step ∈ cycle, trade.identities (setting.hashing.stepHash step) =
      some (step.exchangeId, step.tradingPair, step.operation) := by
    intro step hstep
    rw [hidentities, identities_newTrade_of_mem hsteps hstep]
  refine ⟨trade, htrade, UnorderedMap.keys_perm _ (fun key => ?_) hsteps, hstep⟩
  have hisSome : (trade.transactionStates.find key).isSome = (trade.identities key).isSome := by
    rw [TradeState.identities, Option.isSome_map]
  rw [UnorderedMap.mem_keys_iff, hisSome]
  by_cases hkey : key ∈ cycle.map setting.hashing.stepHash
  · obtain ⟨step, hmem, rfl⟩ := List.mem_map.mp hkey
    simp [hstep step hmem, hkey]
  · simp [hidentities, identities_newTrade_of_notMem hkey, hkey]

/-- Registering a cycle again finds all of its entries and its trade. -/
theorem addArbitrageCycle_again (h : Registered setting component cycles)
    (hcycle : cycle ∈ cycles) : component.addArbitrageCycle setting cycle = component := by
  have hdictionary : (component.addArbitrageCycle setting cycle).exchangeTradingPairArbitrageMap =
      component.exchangeTradingPairArbitrageMap := by
    rw [dictionary_addArbitrageCycle]
    apply Placement.insertAll_of_subset
    intro entry hentry
    obtain ⟨step, hstep, rfl⟩ := List.mem_map.mp hentry
    rw [h.mem_dictionary, ArbitrageCycle.venues, List.map_map]
    exact ⟨hcycle, List.mem_map_of_mem hstep⟩
  obtain ⟨trade, htrade⟩ := h.exists_trade hcycle
  have htrades : (component.addArbitrageCycle setting cycle).tradesState =
      component.tradesState := by
    apply tradesState_addArbitrageCycle_of_some
    rw [htrade, Option.isSome_some]
  calc component.addArbitrageCycle setting cycle
      = ⟨(component.addArbitrageCycle setting cycle).exchangeBboMap,
          (component.addArbitrageCycle setting cycle).exchangeTradingPairArbitrageMap,
          (component.addArbitrageCycle setting cycle).tradesState⟩ := rfl
    _ = component := by rw [exchangeBboMap_addArbitrageCycle, hdictionary, htrades]

/-- The cycles listed under a venue are the cycles through it. -/
theorem equalRange_perm (h : Registered setting component cycles) {venue : Venue}
    (hvenues : Set.InjOn setting.hashing.venueKey
      { other | other ∈ venue :: cycles.flatMap ArbitrageCycle.venues }) :
    (component.exchangeTradingPairArbitrageMap.equalRange (setting.hashing.venueKey venue)).Perm
      (cycles.dedup.filter fun cycle => venue ∈ cycle.venues) := by
  have hnodup : (component.exchangeTradingPairArbitrageMap.equalRange
      (setting.hashing.venueKey venue)).Nodup := by
    apply (h.nodup.filter _).map_on
    intro first hfirst second hsecond hcycle
    have hfirst := (List.mem_filter.mp hfirst).2
    have hsecond := (List.mem_filter.mp hsecond).2
    simp only [decide_eq_true_eq] at hfirst hsecond
    exact Prod.ext (hfirst.trans hsecond.symm) hcycle
  rw [List.perm_ext_iff_of_nodup hnodup (cycles.nodup_dedup.filter _)]
  intro cycle
  simp only [TradeDictionary.equalRange, List.mem_map, List.mem_filter, Prod.exists,
    exists_eq_right, decide_eq_true_eq, h.mem_dictionary, List.mem_dedup]
  refine and_congr_right fun hcycle => ⟨?_, fun hvenue => ⟨venue, hvenue, rfl⟩⟩
  rintro ⟨other, hother, hkey⟩
  have hequal : other = venue :=
    hvenues (List.mem_cons_of_mem _ (List.mem_flatMap.mpr ⟨cycle, hcycle, hother⟩))
      List.mem_cons_self hkey
  rwa [← hequal]

end Registered

theorem steps_subset (hcycle : cycle ∈ cycles) :
    { step | step ∈ cycle } ⊆ { step | ∃ cycle ∈ cycles, step ∈ cycle } := by
  intro step hstep
  exact ⟨cycle, hcycle, hstep⟩

/-- After any run of registrations and quotes the tables are exact. -/
theorem exact_run (setting : Setting) (events : List Event) (event : NewBBO)
    (hnonempty : ∀ cycle ∈ added events, cycle ≠ [])
    (hinjective : setting.hashing.InjectiveOn
      (venueOf event :: (added events).flatMap ArbitrageCycle.venues) (added events)) :
    Exact setting ((machine setting).run events) (added events) event := by
  have h : Registered setting ((machine setting).run events) (added events) :=
    registered_run hinjective.arbitrageCycleHash
  exact
    { dictionary := h.dictionary_perm
        (hinjective.venueKey.mono fun venue hvenue => List.mem_cons_of_mem _ hvenue)
      uniqueCycles := h.uniqueCycles_perm hnonempty setting.cyclePlacement
      trades := UnorderedMap.keys_perm _ h.mem_keys hinjective.arbitrageCycleHash
      transactions := fun cycle hcycle =>
        h.transactions_perm hcycle (hinjective.stepHash.mono (steps_subset hcycle))
      again := fun cycle hcycle => h.addArbitrageCycle_again hcycle
      evaluated := by
        rw [handleNewBBO, evaluations_evaluateAll, addOrUpdateBBO_eq]
        exact h.equalRange_perm hinjective.venueKey }

/-- The tables of a component whose new elements come last. -/
def boostSetting (pairs : ExchangeTradingPairs) : Setting where
  hashing := boostHashing
  pairs := pairs
  dictionaryPlacement := .back
  cyclePlacement := .back
  tradePlacement := .back
  transactionPlacement := .back

/-- Two cycles through one venue, the second one through it twice. -/
def binanceToBybit : ArbitrageCycle :=
  [⟨⟨2, 1⟩, .kBinance, .kSpot, .kBuy⟩, ⟨⟨2, 1⟩, .kBybit, .kSpot, .kSell⟩]

def aroundBinance : ArbitrageCycle :=
  [⟨⟨2, 1⟩, .kBinance, .kSpot, .kBuy⟩, ⟨⟨2, 1⟩, .kBinance, .kFutures, .kSell⟩,
    ⟨⟨2, 1⟩, .kBinance, .kSpot, .kBuy⟩]

/-- The first cycle is registered twice, with a quote in between. -/
def registrations : List Event :=
  [.addArbitrageCycle binanceToBybit, .newBBO ⟨.kBinance, ⟨2, 1⟩, {}, .kSpot⟩,
    .addArbitrageCycle aroundBinance, .addArbitrageCycle binanceToBybit]

theorem exact_registrations :
    Exact (boostSetting ⟨fun _ => none⟩)
      ((machine (boostSetting ⟨fun _ => none⟩)).run registrations)
      [binanceToBybit, aroundBinance, binanceToBybit] ⟨.kBinance, ⟨2, 1⟩, {}, .kSpot⟩ :=
  exact_run (boostSetting ⟨fun _ => none⟩) registrations ⟨.kBinance, ⟨2, 1⟩, {}, .kSpot⟩ (by decide)
    (.of_forall _ (by decide +kernel) (by decide +kernel) (by decide +kernel))

end ArbitrageStrategyComponent

end CryptoBot.Arbitrage

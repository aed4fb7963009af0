/-
# The signals of a book

A book signals its best prices when they may have changed, and the component that
owns it publishes each signal under the venue of the book.  Two facts about whole
runs are read off the handlers here: the cached best prices of a book are always
those it has signalled last, and what a component publishes for a venue is what
the book of the venue signals over the messages that came for it, whatever other
messages came in between.
-/

import CryptoBot.Arbitrage.Cycle

namespace CryptoBot.Book.MarketOrderBook2

open CryptoBot.Common CryptoBot.MarketData CryptoBot.Math

variable {containers : Containers} (book : MarketOrderBook2 containers)

@[simp]
theorem bbo_removeOrdersAtPrice (side : Side) (price : Price) :
    (book.removeOrdersAtPrice side price).bbo = book.bbo := by
  unfold removeOrdersAtPrice
  dsimp only
  split
  · rfl
  · split_ifs <;> rfl

@[simp]
theorem bbo_addOrdersAtPrice (node : Addr) (newOrdersAtPrice : MarketOrdersAtPrice) :
    (book.addOrdersAtPrice node newOrdersAtPrice).bbo = book.bbo := by
  unfold addOrdersAtPrice
  split_ifs <;> rfl

@[simp]
theorem bbo_addOrder (order : MarketOrder) : (book.addOrder order).bbo = book.bbo := by
  have hallocate : ∀ isBids value, (book.allocate isBids value).2.bbo = book.bbo := by
    intro isBids value
    unfold allocate
    split_ifs <;> rfl
  unfold addOrder
  dsimp only
  split
  · split
    · rename_i hpair
      rw [bbo_addOrdersAtPrice, ← hallocate, hpair]
    · rename_i hpair
      rw [← hallocate, hpair]
  · split_ifs <;> rfl

theorem bbo_processLevel (side : Side) (touched : MarketOrderBook2 containers → Price → Bool)
    (flagRemovals : Bool) (state : MarketOrderBook2 containers × Bool)
    (level : BookSnapshotElem) :
    (processLevel side touched flagRemovals state level).1.bbo = state.1.bbo := by
  unfold processLevel
  dsimp only
  split_ifs <;> simp

theorem bbo_foldl_processLevel (side : Side)
    (touched : MarketOrderBook2 containers → Price → Bool) (flagRemovals : Bool)
    (state : MarketOrderBook2 containers × Bool) (levels : List BookSnapshotElem) :
    (levels.foldl (processLevel side touched flagRemovals) state).1.bbo = state.1.bbo := by
  induction levels generalizing state with
  | nil => rfl
  | cons level rest ih => rw [List.foldl_cons, ih, bbo_processLevel]

/-- The cache moves with a signal only. -/
theorem bbo_publish (bidWillBeUpdated askWillBeUpdated : Bool) :
    (book.publish bidWillBeUpdated askWillBeUpdated).1.bbo =
      (book.publish bidWillBeUpdated askWillBeUpdated).2.getLast?.getD book.bbo := by
  cases bidWillBeUpdated <;> cases askWillBeUpdated <;> rfl

theorem bbo_processLevels (flagRemovals : Bool) (bids asks : List BookSnapshotElem) :
    (book.processLevels flagRemovals bids asks).1.bbo =
      (book.processLevels flagRemovals bids asks).2.getLast?.getD book.bbo := by
  rw [processLevels, bbo_publish, bbo_foldl_processLevel, bbo_foldl_processLevel]

theorem bbo_step (message : BookMessage) :
    ((machine containers).step book message).1.bbo =
      ((machine containers).step book message).2.getLast?.getD book.bbo := by
  cases message with
  | update marketUpdate =>
      change (book.onMarketUpdate marketUpdate).1.bbo =
        (book.onMarketUpdate marketUpdate).2.getLast?.getD book.bbo
      unfold onMarketUpdate
      rw [bbo_publish]
      split_ifs <;> simp [clearOrderBook]
  | snapshot marketSnapshot =>
      cases marketSnapshot with
      | none => rfl
      | some marketSnapshot => exact bbo_processLevels book.clearOrderBook _ _ _
  | diff marketDiff =>
      cases marketDiff with
      | none => rfl
      | some marketDiff => exact bbo_processLevels book _ _ _

/-- The cached best prices are those that were signalled last. -/
theorem bbo_run (containers : Containers) (messages : List BookMessage) :
    ((machine containers).run messages).bbo =
      ((machine containers).outputs messages).getLast?.getD {} := by
  induction messages using List.reverseRecOn with
  | nil => rfl
  | append_singleton messages message ih =>
      rw [Machine.run_concat, Machine.outputs_concat, bbo_step, ih, List.getLast?_append,
        Machine.emitted]
      cases ((machine containers).step ((machine containers).run messages) message).2.getLast? <;>
        rfl

end CryptoBot.Book.MarketOrderBook2

namespace CryptoBot.Book.OrderBookComponent

open CryptoBot.Common CryptoBot.Math CryptoBot.Arbitrage

variable {containers : Containers} {exchangeId : ExchangeId} {tradingPair : TradingPair}

/-- The history of a book that was registered before all messages. -/
theorem history_append_of_registered {first rest : List Event}
    (hadded : ∀ event ∈ first, event.market = none)
    (hmem : .addOrderBook exchangeId tradingPair ∈ first) :
    history exchangeId tradingPair (first ++ rest) =
      rest.filterMap (Event.messageFor exchangeId tradingPair) := by
  induction rest using List.reverseRecOn with
  | nil =>
      rw [List.append_nil, history, List.filterMap_nil, List.filterMap_eq_nil_iff]
      intro event hevent
      rw [Event.messageFor, hadded event (List.dropWhile_sublist _ |>.mem hevent)]
      rfl
  | append_singleton rest event ih =>
      rw [← List.append_assoc, history_concat_of_mem (by simp [hmem]), ih]
      cases hmessage : event.messageFor exchangeId tradingPair <;> simp [hmessage]

theorem history_of_notMem {events : List Event}
    (h : .addOrderBook exchangeId tradingPair ∉ events) :
    history exchangeId tradingPair events = [] := by
  have hclosed : events.dropWhile (· ≠ .addOrderBook exchangeId tradingPair) = [] := by
    rw [List.dropWhile_eq_nil_iff]
    intro event hmem
    simp only [decide_eq_true_eq]
    rintro rfl
    exact h hmem
  rw [history, hclosed, List.filterMap_nil]

@[simp]
theorem marketType_setBook (component : OrderBookComponent containers) (exchangeId : ExchangeId)
    (tradingPair : TradingPair) (orderBook : Subscribed containers) :
    (component.setBook exchangeId tradingPair orderBook).marketType = component.marketType := rfl

theorem marketType_step (component : OrderBookComponent containers) (event : Event) :
    (component.step event).1.marketType = component.marketType := by
  cases hmarket : event.market with
  | none =>
      cases event with
      | addOrderBook exchangeId tradingPair => rfl
      | meMarketUpdate event =>
          rw [step_of_null hmarket (by simp)]
      | newSnapshot event =>
          rw [step_of_null hmarket (by simp)]
      | newDiff event =>
          rw [step_of_null hmarket (by simp)]
  | some target =>
      obtain ⟨exchangeId, tradingPair, message⟩ := target
      rw [step_of_market hmarket]
      cases hfind : component.find exchangeId tradingPair with
      | none => rw [process_of_none hfind]
      | some orderBook => rw [process_of_find hfind, marketType_setBook]

theorem marketType_run (marketType : MarketType) (events : List Event) :
    ((machine containers marketType).run events).marketType = marketType := by
  induction events using List.reverseRecOn with
  | nil => rfl
  | append_singleton events event ih =>
      rw [Machine.run_concat]
      exact (marketType_step _ event).trans ih

/-- What the component publishes carries its market type. -/
theorem marketType_of_mem_outputs {marketType : MarketType} {events : List Event}
    {newBBO : NewBBO} (h : newBBO ∈ (machine containers marketType).outputs events) :
    newBBO.marketType = marketType := by
  refine ((machine containers marketType).outputs_of_everyStep (fun _ _ => True)
    (fun component => component.marketType = marketType)
    (fun newBBO => newBBO.marketType = marketType) rfl ?_
    (EveryStep.of_forall_mem fun _ _ => trivial)).2 newBBO h
  intro component event hcomponent _
  refine ⟨(marketType_step component event).trans hcomponent, fun newBBO hmem => ?_⟩
  change newBBO ∈ (component.step event).2 at hmem
  cases hmarket : event.market with
  | none =>
      cases event with
      | addOrderBook exchangeId tradingPair => cases hmem
      | meMarketUpdate event =>
          rw [step_of_null hmarket (by simp)] at hmem
          cases hmem
      | newSnapshot event =>
          rw [step_of_null hmarket (by simp)] at hmem
          cases hmem
      | newDiff event =>
          rw [step_of_null hmarket (by simp)] at hmem
          cases hmem
  | some target =>
      obtain ⟨exchangeId, tradingPair, message⟩ := target
      rw [step_of_market hmarket] at hmem
      cases hfind : component.find exchangeId tradingPair with
      | none =>
          rw [process_of_none hfind] at hmem
          cases hmem
      | some orderBook =>
          rw [process_of_find hfind, List.mem_flatMap] at hmem
          obtain ⟨bbo, -, hemitted⟩ := hmem
          obtain ⟨subscriber, -, rfl⟩ := List.mem_map.mp hemitted
          exact hcomponent

/-- The best prices of one venue. -/
def bboOf (venue : Venue) (event : NewBBO) : Option BBO :=
  if venueOf event = venue then some event.bbo else none

/-- One event is signalled under the venue of its book. -/
theorem filterMap_emitted (marketType : MarketType) (events : List Event) (event : Event)
    (exchangeId : ExchangeId) (tradingPair : TradingPair) :
    ((machine containers marketType).emitted events event).filterMap
        (bboOf ⟨exchangeId, marketType, tradingPair⟩) =
      if .addOrderBook exchangeId tradingPair ∈ events then
        ((event.messageFor exchangeId tradingPair).toList).flatMap
          ((MarketOrderBook2.machine containers).emitted (history exchangeId tradingPair events))
      else [] := by
  set component := (machine containers marketType).run events with hcomponent
  have hfindRun : ∀ other otherPair, component.find other otherPair =
      bookOf containers other otherPair events := find_run marketType events
  have hroutes : component.Routes event := (labelled_of_find hfindRun).routes event
  have hmarketType : component.marketType = marketType := marketType_run marketType events
  rw [show (machine containers marketType).emitted events event = (component.step event).2 from
    rfl]
  cases hmarket : event.market with
  | none =>
      have hsilent : (component.step event).2 = [] := by
        by_cases hadd : ∃ other otherPair, event = .addOrderBook other otherPair
        · obtain ⟨other, otherPair, hevent⟩ := hadd
          exact (hroutes.added other otherPair hevent).1
        · push Not at hadd
          rw [hroutes.null hmarket hadd]
      simp [hsilent, Event.messageFor, hmarket]
  | some target =>
      obtain ⟨other, otherPair, message⟩ := target
      have hother : (other, otherPair) ≠ (exchangeId, tradingPair) →
          event.messageFor exchangeId tradingPair = none := by
        intro hkey
        simp only [Event.messageFor, hmarket, Option.bind_some]
        exact if_neg hkey
      cases hfind : component.find other otherPair with
      | none =>
          rw [hroutes.unregistered _ _ _ hmarket hfind, List.filterMap_nil]
          by_cases hkey : (other, otherPair) = (exchangeId, tradingPair)
          · cases hkey
            have hnew : .addOrderBook exchangeId tradingPair ∉ events := by
              intro hmem
              rw [hfindRun, bookOf, if_pos hmem] at hfind
              cases hfind
            rw [if_neg hnew]
          · simp [hother hkey]
      | some orderBook =>
          obtain ⟨-, -, hemitted, -⟩ := hroutes.routed _ _ _ _ hmarket hfind
          rw [hemitted]
          by_cases hkey : (other, otherPair) = (exchangeId, tradingPair)
          · cases hkey
            have hmem : .addOrderBook exchangeId tradingPair ∈ events := by
              by_contra hnew
              rw [hfindRun, bookOf, if_neg hnew] at hfind
              cases hfind
            rw [hfindRun, bookOf, if_pos hmem, Option.some.injEq] at hfind
            subst hfind
            have hread : ∀ bbo, bboOf ⟨exchangeId, marketType, tradingPair⟩
                (component.sendBBOToBus exchangeId tradingPair bbo) = some bbo := by
              intro bbo
              simp [bboOf, sendBBOToBus, venueOf, hmarketType]
            rw [List.filterMap_map, if_pos hmem]
            simp only [Event.messageFor, hmarket, Option.bind_some, if_true, Option.toList_some,
              List.flatMap_cons, List.flatMap_nil, List.append_nil]
            rw [show bboOf ⟨exchangeId, marketType, tradingPair⟩ ∘
              component.sendBBOToBus exchangeId tradingPair = some from funext hread,
              List.filterMap_some]
            rfl
          · have hread : ∀ bbo, bboOf ⟨exchangeId, marketType, tradingPair⟩
                (component.sendBBOToBus other otherPair bbo) = none := by
              intro bbo
              simp only [Prod.mk.injEq] at hkey
              simp only [bboOf, sendBBOToBus, venueOf, Venue.mk.injEq]
              exact if_neg fun hvenue => hkey ⟨hvenue.1, hvenue.2.2⟩
            simp [List.filterMap_map, hread, hother hkey]

/-- What the component publishes for a venue is what its book signals. -/
theorem filterMap_outputs (marketType : MarketType) (events : List Event)
    (exchangeId : ExchangeId) (tradingPair : TradingPair) :
    ((machine containers marketType).outputs events).filterMap
        (bboOf ⟨exchangeId, marketType, tradingPair⟩) =
      (MarketOrderBook2.machine containers).outputs (history exchangeId tradingPair events) := by
  induction events using List.reverseRecOn with
  | nil => rfl
  | append_singleton events event ih =>
      rw [Machine.outputs_concat, List.filterMap_append, ih, filterMap_emitted]
      by_cases hmem : .addOrderBook exchangeId tradingPair ∈ events
      · rw [if_pos hmem, history_concat_of_mem hmem]
        cases event.messageFor exchangeId tradingPair with
        | none => simp
        | some message => simp [Machine.outputs_concat]
      · rw [if_neg hmem, List.append_nil, history_of_notMem hmem]
        by_cases hadd : event = .addOrderBook exchangeId tradingPair
        · rw [hadd, history_concat_of_notMem hmem]
        · rw [history_of_notMem (by simp [hmem, Ne.symm hadd])]

/-- The component publishes for registered books only. -/
theorem registered_of_mem_outputs {marketType : MarketType} {events : List Event}
    {newBBO : NewBBO} (h : newBBO ∈ (machine containers marketType).outputs events) :
    .addOrderBook newBBO.exchangeId newBBO.tradingPair ∈ events := by
  by_contra hnew
  have hquotes : ((machine containers marketType).outputs events).filterMap _ = _ :=
    filterMap_outputs marketType events newBBO.exchangeId newBBO.tradingPair
  rw [history_of_notMem hnew] at hquotes
  have hmem : newBBO.bbo ∈ ((machine containers marketType).outputs events).filterMap
      (bboOf ⟨newBBO.exchangeId, marketType, newBBO.tradingPair⟩) := by
    refine List.mem_filterMap.mpr ⟨newBBO, h, if_pos ?_⟩
    rw [venueOf, marketType_of_mem_outputs h]
  rw [hquotes] at hmem
  cases hmem

end CryptoBot.Book.OrderBookComponent

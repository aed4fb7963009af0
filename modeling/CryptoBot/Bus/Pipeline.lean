/-
# From the feeds to the quotes

A snapshot or a diff that reaches a generator is published to the order book
component of its market type, the book of its pair signals its best prices, and
the signals go to Red Panda and to the strategy.  Every stage runs on its own
executor, so at any time each of them is somewhere behind the one before it, and
the events of several generators meet in one mailbox in any order.

None of this can be seen in a book or in the records of Red Panda.  A book has
handled a prefix of what its own generator has published for its pair, which has
handled a prefix of what the feed has sent; and the records of a venue are a
prefix of the signals of its book.  The strategy is different: its handlers do
not keep the order of the signals, and the quote it holds may be one that the
book has replaced.
-/

import CryptoBot.Arbitrage.Reporting
import CryptoBot.Book.Signals
import CryptoBot.Bus.Wiring

namespace CryptoBot.Arbitrage.ArbitrageStrategyComponent

open CryptoBot.Common CryptoBot.Math CryptoBot.Book

/-- The quote of a venue in an event. -/
def quoteOf (venue : Venue) : Event → Option BBO
  | .newBBO event => if venueOf event = venue then some event.bbo else none
  | .addArbitrageCycle _ => none

theorem latest_eq_getLast (events : List Event) (venue : Venue) :
    latest events venue = (events.filterMap (quoteOf venue)).getLast? := by
  induction events using List.reverseRecOn with
  | nil => rfl
  | append_singleton events event ih =>
      rw [List.filterMap_append, List.getLast?_append, ← ih]
      cases event with
      | addArbitrageCycle cycle =>
          rw [latest_concat_addArbitrageCycle]
          rfl
      | newBBO event =>
          rw [latest_concat_newBBO]
          by_cases hvenue : venueOf event = venue
          · simp [quoteOf, hvenue]
          · simp [quoteOf, hvenue, Function.update_of_ne (Ne.symm hvenue)]

end CryptoBot.Arbitrage.ArbitrageStrategyComponent

namespace CryptoBot.Bus

open CryptoBot.Common CryptoBot.MarketData CryptoBot.Math CryptoBot.Sync CryptoBot.Book
open CryptoBot.Arbitrage

/-! ## The labels of a generator -/

/-- A stored snapshot carries the exchange of its generator, or none while there is no snapshot. -/
def ExchangeLabel (exchangeId other : ExchangeId) : Prop := other = exchangeId ∨ other = .kInvalid

/-- What a generator hands to its callbacks carries its exchange. -/
def Labelled (exchangeId : ExchangeId) : Sync.Action → Prop
  | .snapshotCallback snapshot => ExchangeLabel exchangeId snapshot.exchangeId
  | .diffCallback diff => diff.exchangeId = exchangeId
  | .requestNewSnapshot _ | .requestSubscribeToDiff _ _ => True

/-- The outcome of a diff: the stored snapshot stays, and nothing but it and the diff is handed to
the callbacks. -/
def Passes (state : BidAskState) (diff : BookDiffSnapshot2)
    (result : BidAskState × List Sync.Action) : Prop :=
  result.1.snapshot = state.snapshot ∧ ∀ action ∈ result.2,
    action = .snapshotCallback state.snapshot ∨ action = .diffCallback diff ∨
      ∀ exchangeId, Labelled exchangeId action

/-- The handlers invent no snapshot. -/
structure KeepsLabels (generator : Generator) : Prop where
  snapshot : ∀ state (snapshot : BookSnapshot2),
    (generator.handleNewSnapshotEvent state snapshot).snapshot = .assign snapshot ∨
      (generator.handleNewSnapshotEvent state snapshot).snapshot = state.snapshot
  diff : ∀ state diff,
    Passes state diff (generator.handleBookDiffSnapshotEvent .registered state diff)

theorem passes_binance {policy : Binance.PolicyPacketLoss} {state : BidAskState}
    {diff : BookDiffSnapshot2} {result : BidAskState × List Sync.Action}
    (h : Binance.DiffOutcome policy state diff result) : Passes state diff result := by
  cases h with
  | outdated hneed hold => simp [Passes]
  | requested hneed hnew => simp [Passes, Labelled]
  | resynchronised hlost hmake hpending => simp [Passes]
  | continued hlost hmake hpending hdiff => simp [Passes]
  | silent hmake hpending hdiff => simp [Passes]

theorem passes_bybit {state : BidAskState} {diff : BookDiffSnapshot2}
    {result : BidAskState × List Sync.Action} (h : Bybit.DiffOutcome state diff result) :
    Passes state diff result := by
  cases h with
  | lost hlost => simp [Passes, Labelled]
  | resynchronised hnext hpending => simp [Passes]
  | continued hnext hpending hdiff => simp [Passes]
  | silent hnext hpending hdiff => simp [Passes]

theorem keepsLabels_binance (policy : Binance.PolicyPacketLoss) :
    KeepsLabels (Binance.generator policy) where
  snapshot _ _ := .inl rfl
  diff state diff := passes_binance (Binance.diffOutcome policy state diff)

theorem keepsLabels_bybit : KeepsLabels Bybit.generator where
  snapshot state snapshot := by
    change (Bybit.handleNewSnapshotEvent state snapshot).snapshot = _ ∨
      (Bybit.handleNewSnapshotEvent state snapshot).snapshot = _
    by_cases hrepeated : snapshot.lastUpdateId = state.snapshot.lastUpdateId
    · rw [Bybit.handleNewSnapshotEvent_of_repeated hrepeated]
      exact .inr rfl
    · rw [Bybit.handleNewSnapshotEvent_of_new hrepeated]
      exact .inl rfl
  diff state diff := passes_bybit (Bybit.diffOutcome_of_eq rfl)

theorem Feed.keepsLabels (feed : Feed) : KeepsLabels feed.generator := by
  cases feed with
  | bybit => exact keepsLabels_bybit
  | futuresBybit => exact keepsLabels_bybit
  | spotBinance => exact keepsLabels_binance .spot
  | futuresBinance => exact keepsLabels_binance .futures

/-- Whatever comes to a generator, it hands its own exchange to the callbacks. -/
theorem KeepsLabels.labelled_outputs {generator : Generator} (h : KeepsLabels generator)
    (events : List Sync.Event) :
    ∀ action ∈ generator.machine.outputs events, Labelled generator.exchangeId action := by
  let Inv (stateMap : TradingPair → BidAskState) : Prop :=
    ∀ pair, ExchangeLabel generator.exchangeId (stateMap pair).snapshot.exchangeId
  have hinit : Inv generator.machine.init := fun _ => .inr rfl
  refine (generator.machine.outputs_of_everyStep (fun _ _ => True) Inv _ hinit ?_
    (EveryStep.of_forall_mem fun _ _ => trivial)).2
  intro stateMap event hinv _
  by_cases hvenue : event.exchangeId = generator.exchangeId
  · simp only [Generator.machine, generator.handle_of_accepted _ hvenue]
    -- The state of the pair of the event is the only one that moves.
    have hother : ∀ after : BidAskState,
        ExchangeLabel generator.exchangeId after.snapshot.exchangeId →
          Inv (Function.update stateMap event.tradingPair after) := by
      intro after hafter pair
      by_cases hpair : pair = event.tradingPair
      · rw [hpair, Function.update_self]
        exact hafter
      · rw [Function.update_of_ne hpair]
        exact hinv pair
    cases event with
    | responseNewSnapshot snapshot =>
        refine ⟨hother _ ?_, by simp [Generator.react]⟩
        rcases h.snapshot (stateMap snapshot.tradingPair) snapshot with hnew | hold
        · exact .inl (hnew ▸ hvenue)
        · exact hold ▸ hinv snapshot.tradingPair
    | bookDiffSnapshot diff =>
        obtain ⟨hkept, hemitted⟩ := h.diff (stateMap diff.tradingPair) diff
        refine ⟨hother _ (hkept ▸ hinv diff.tradingPair), fun action hmem => ?_⟩
        rcases hemitted action hmem with rfl | rfl | hrequest
        · exact hinv diff.tradingPair
        · exact hvenue
        · exact hrequest _
  · simp only [Generator.machine, generator.handle_of_dropped _ hvenue]
    exact ⟨hinv, by simp⟩

/-- The exchange of a message for a book. -/
def messageExchange : BookMessage → Option ExchangeId
  | .update event => some event.exchangeId
  | .snapshot event => event.map BookSnapshot2.exchangeId
  | .diff event => event.map BookDiffSnapshot2.exchangeId

/-- Both ways of publication pass the label on. -/
theorem Feed.exchange_publish (feed : Feed) {exchangeId : ExchangeId} {action : Sync.Action}
    (h : Labelled exchangeId action) {message : BookMessage} (hmem : message ∈ feed.publish action)
    {other : ExchangeId} (hother : messageExchange message = some other) :
    ExchangeLabel exchangeId other := by
  have hlevels : message ∈ CallbackHandler.publish action → ExchangeLabel exchangeId other := by
    intro hmem
    cases action with
    | snapshotCallback snapshot =>
        simp only [CallbackHandler.publish, CallbackHandler.processBookEntries, List.mem_append,
          List.mem_map] at hmem
        rcases hmem with ⟨elem, -, rfl⟩ | ⟨elem, -, rfl⟩
        · cases hother
          exact h
        · cases hother
          exact h
    | diffCallback diff =>
        simp only [CallbackHandler.publish, CallbackHandler.processBookEntries, List.mem_append,
          List.mem_map] at hmem
        rcases hmem with ⟨elem, -, rfl⟩ | ⟨elem, -, rfl⟩
        · cases hother
          exact .inl h
        · cases hother
          exact .inl h
    | requestNewSnapshot pair => cases hmem
    | requestSubscribeToDiff subscribe pair => cases hmem
  have hbatches : message ∈ CallbackBatchHandler.publish action →
      ExchangeLabel exchangeId other := by
    intro hmem
    cases action with
    | snapshotCallback snapshot =>
        cases List.mem_singleton.mp hmem
        cases hother
        exact h
    | diffCallback diff =>
        cases List.mem_singleton.mp hmem
        cases hother
        exact .inl h
    | requestNewSnapshot pair => cases hmem
    | requestSubscribeToDiff subscribe pair => cases hmem
  cases feed with
  | bybit => exact hlevels hmem
  | futuresBybit => exact hlevels hmem
  | spotBinance => exact hbatches hmem
  | futuresBinance => exact hbatches hmem

/-! ## Who sends what -/

namespace Setup

variable {setup : Setup} {moves : List (Move ComponentId BusEvent)}

theorem receivers_eq (setup : Setup) (publisher : ComponentId) (event : BusEvent) :
    setup.network.receivers publisher event =
      (subscriptions.filter fun subscription => subscription.1 = publisher).map Prod.snd := by
  simp only [network, bus, CoBus.map_asyncSend_subscribeAll]

/-- Each subscription of the program is made once. -/
theorem count_subscribers : ∀ subscription ∈ subscriptions,
    ((subscriptions.filter fun other => other.1 = subscription.1).map Prod.snd).count
      subscription.2 = 1 := by
  decide +kernel

theorem copiesFor_eq (setup : Setup) {publisher receiver : ComponentId}
    (h : (publisher, receiver) ∈ subscriptions) (events : List BusEvent) :
    setup.network.copiesFor publisher receiver events = events := by
  have hone : ∀ event, (setup.network.receivers publisher event).count receiver = 1 := by
    intro event
    rw [receivers_eq]
    exact count_subscribers _ h
  simp [Network.copiesFor, hone]

/-- An order book component is subscribed to the generators of its market type. -/
theorem publisher_of_orderBook {publisher : ComponentId} {marketType : MarketType}
    (h : (publisher, .orderBook marketType) ∈ subscriptions) :
    ∃ feed, publisher = .bidAskGenerator feed ∧ feed.marketType = marketType := by
  simp only [subscriptions, List.mem_cons, Prod.mk.injEq, ComponentId.orderBook.injEq, reduceCtorEq,
    and_false, or_false, List.not_mem_nil] at h
  rcases h with ⟨rfl, rfl⟩ | ⟨rfl, rfl⟩ | ⟨rfl, rfl⟩ | ⟨rfl, rfl⟩
  · exact ⟨.bybit, rfl, rfl⟩
  · exact ⟨.futuresBybit, rfl, rfl⟩
  · exact ⟨.spotBinance, rfl, rfl⟩
  · exact ⟨.futuresBinance, rfl, rfl⟩

theorem publisher_of_quotes {publisher receiver : ComponentId}
    (hreceiver : receiver = .redPanda ∨ receiver = .arbitrageStrategy)
    (h : (publisher, receiver) ∈ subscriptions) :
    (∃ marketType, publisher = .orderBook marketType) ∨ publisher = .arbitrageStrategy := by
  rcases hreceiver with rfl | rfl
  · simp only [subscriptions, List.mem_cons, Prod.mk.injEq, reduceCtorEq, and_false, and_true,
      false_or, or_false, List.not_mem_nil] at h
    rcases h with rfl | rfl | rfl
    · exact .inl ⟨_, rfl⟩
    · exact .inl ⟨_, rfl⟩
    · exact .inr rfl
  · simp only [subscriptions, List.mem_cons, Prod.mk.injEq, reduceCtorEq, and_false, and_true,
      false_or, or_false, List.not_mem_nil] at h
    rcases h with rfl | rfl
    · exact .inl ⟨_, rfl⟩
    · exact .inl ⟨_, rfl⟩

/-- An event comes from a publisher to which the receiver is subscribed. -/
theorem of_mem_sent {config : Configuration ComponentId setup.State BusEvent}
    {publisher receiver : ComponentId} {event : BusEvent}
    (h : event ∈ setup.network.sent moves config (some publisher) receiver) :
    (publisher, receiver) ∈ subscriptions ∧
      event ∈ setup.network.published config publisher := by
  obtain ⟨published, hpublished, hmem⟩ := List.mem_flatMap.mp h
  obtain ⟨hcount, rfl⟩ := List.mem_replicate.mp hmem
  refine ⟨?_, hpublished⟩
  have hreceiver := List.count_pos_iff.mp (Nat.pos_of_ne_zero hcount)
  rw [receivers_eq, List.mem_map] at hreceiver
  obtain ⟨subscription, hsubscription, rfl⟩ := hreceiver
  obtain ⟨hlisted, hpublisher⟩ := List.mem_filter.mp hsubscription
  rw [decide_eq_true_iff] at hpublisher
  exact hpublisher ▸ hlisted

theorem accounted (setup : Setup) (moves : List (Move ComponentId BusEvent)) :
    setup.network.Accounted moves (setup.machine.run moves) :=
  setup.network.accounted_run moves

/-- The senders of what has come to a component. -/
theorem sender_cases {receiver : ComponentId} {entry : Option ComponentId × BusEvent}
    (h : entry ∈ Network.received (setup.machine.run moves) receiver) :
    (entry.1 = none ∧ entry.2 ∈ Network.posted receiver moves) ∨
      ∃ publisher, entry.1 = some publisher ∧ (publisher, receiver) ∈ subscriptions ∧
        entry.2 ∈ setup.network.published (setup.machine.run moves) publisher := by
  have hsent := (setup.accounted moves).mem_sent h
  cases hsender : entry.1 with
  | none =>
      rw [hsender] at hsent
      exact .inl ⟨rfl, hsent⟩
  | some publisher =>
      rw [hsender] at hsent
      exact .inr ⟨publisher, rfl, of_mem_sent hsent⟩

theorem posted_eq_nil (hfeeds : FromFeeds moves) {receiver : ComponentId}
    (hreceiver : ∀ feed, receiver ≠ .bidAskGenerator feed) :
    Network.posted receiver moves = [] := by
  rw [Network.posted, List.filterMap_eq_nil_iff]
  intro move hmem
  cases move with
  | take other position => rfl
  | post other event =>
      obtain ⟨feed, rfl⟩ := hfeeds other event hmem
      simp [Ne.symm (hreceiver feed)]

/-- All components but the strategy run on a strand. -/
theorem takesInOrder (setup : Setup) {receiver : ComponentId} (h : receiver ≠ .arbitrageStrategy)
    (moves : List (Move ComponentId BusEvent)) : setup.network.TakesInOrder receiver moves := by
  apply Or.inl
  cases receiver with
  | bidAskGenerator feed => rfl
  | orderBook marketType => rfl
  | redPanda => rfl
  | arbitrageStrategy => exact absurd rfl h

end Setup

/-! ## The stages -/

/-- The venue of a book. -/
def Feed.venue (feed : Feed) (tradingPair : TradingPair) : Venue :=
  ⟨feed.exchangeId, feed.marketType, tradingPair⟩

/-- The snapshots and diffs that a feed has sent. -/
def Feed.arrived (feed : Feed) (moves : List (Move ComponentId BusEvent)) : List Sync.Event :=
  (Network.posted (.bidAskGenerator feed) moves).filterMap BusEvent.forGenerator

/-- The message that an event is for a book. -/
def BusEvent.messageFor (exchangeId : ExchangeId) (tradingPair : TradingPair) (event : BusEvent) :
    Option BookMessage :=
  event.forOrderBook.bind (OrderBookComponent.Event.messageFor exchangeId tradingPair)

/-- The messages that a generator publishes for the book of a pair while it handles the events. -/
def Feed.messagesFor (feed : Feed) (tradingPair : TradingPair) (events : List Sync.Event) :
    List BookMessage :=
  ((feed.generator.machine.outputs events).flatMap feed.busEvents).filterMap
    (BusEvent.messageFor feed.exchangeId tradingPair)

namespace Setup

variable {setup : Setup} {moves : List (Move ComponentId BusEvent)}

section Views

variable (setup) (config : Configuration ComponentId setup.State BusEvent)

def orderBooks (marketType : MarketType) : OrderBookComponent setup.containers :=
  config.state (.orderBook marketType)

def strategy : ArbitrageStrategyComponent := config.state .arbitrageStrategy

/-- What Red Panda has sent. -/
def redPandaMessages : List RedPandaMessage :=
  (RedPanda.machine setup.setting.pairs).outputs (Network.handled config .redPanda)

/-- What a generator has handled. -/
def handledEvents (feed : Feed) : List Sync.Event :=
  (Network.handled config (.bidAskGenerator feed)).filterMap BusEvent.forGenerator

/-- What the book of a pair has handled. -/
def handledMessages (feed : Feed) (tradingPair : TradingPair) : List BookMessage :=
  (Network.handled config (.orderBook feed.marketType)).filterMap
    (BusEvent.messageFor feed.exchangeId tradingPair)

end Views

/-- A generator hears of the feed only. -/
theorem handledEvents_append (setup : Setup) (moves : List (Move ComponentId BusEvent))
    (feed : Feed) :
    setup.handledEvents (setup.machine.run moves) feed ++
        (((setup.machine.run moves).pending (.bidAskGenerator feed)).map Prod.snd).filterMap
          BusEvent.forGenerator =
      feed.arrived moves := by
  apply (setup.accounted moves).filterMap_handled BusEvent.forGenerator none
    (.bidAskGenerator feed) (setup.takesInOrder (by simp) moves)
  intro entry hentry _
  rcases sender_cases hentry with ⟨hnone, -⟩ | ⟨publisher, -, hsubscribed, -⟩
  · exact hnone
  · simp [subscriptions] at hsubscribed

theorem published_generator (config : Configuration ComponentId setup.State BusEvent)
    (feed : Feed) :
    setup.network.published config (.bidAskGenerator feed) =
      (feed.generator.machine.outputs (setup.handledEvents config feed)).flatMap
        feed.busEvents := by
  change ((feed.generator.machine.reading [] BusEvent.forGenerator).outputs
    (Network.handled config (.bidAskGenerator feed))).flatMap feed.busEvents = _
  rw [Machine.outputs_reading]
  rfl

/-- A message carries the exchange of the generator that has published it. -/
theorem exchange_of_published {config : Configuration ComponentId setup.State BusEvent}
    {feed : Feed} {event : BusEvent}
    (h : event ∈ setup.network.published config (.bidAskGenerator feed)) {exchangeId : ExchangeId}
    {tradingPair : TradingPair} (hmessage : (event.messageFor exchangeId tradingPair).isSome) :
    ExchangeLabel feed.exchangeId exchangeId := by
  rw [published_generator, List.mem_flatMap] at h
  obtain ⟨action, haction, hmem⟩ := h
  obtain ⟨message, hpublished, hevent⟩ := List.mem_filterMap.mp hmem
  have hlabel := feed.keepsLabels.labelled_outputs _ action haction
  rw [feed.exchangeId_generator] at hlabel
  apply feed.exchange_publish hlabel hpublished
  -- The book is found by the exchange that the message names.
  cases message with
  | update update =>
      cases hevent
      simp only [BusEvent.messageFor, BusEvent.forOrderBook, Option.bind_some,
        OrderBookComponent.Event.messageFor, OrderBookComponent.Event.market, Option.map_some,
        Option.isSome_ite, Prod.mk.injEq] at hmessage
      simp [messageExchange, hmessage.1]
  | snapshot snapshot =>
      obtain ⟨snapshot, rfl, rfl⟩ := Option.map_eq_some_iff.mp hevent
      simp only [BusEvent.messageFor, BusEvent.forOrderBook, Option.bind_some,
        OrderBookComponent.Event.messageFor, OrderBookComponent.Event.market, Option.map_some,
        Option.isSome_ite, Prod.mk.injEq] at hmessage
      simp [messageExchange, hmessage.1]
  | diff diff =>
      obtain ⟨diff, rfl, rfl⟩ := Option.map_eq_some_iff.mp hevent
      simp only [BusEvent.messageFor, BusEvent.forOrderBook, Option.bind_some,
        OrderBookComponent.Event.messageFor, OrderBookComponent.Event.market, Option.map_some,
        Option.isSome_ite, Prod.mk.injEq] at hmessage
      simp [messageExchange, hmessage.1]

/-- A book hears of one generator only. -/
theorem handledMessages_append (hfeeds : FromFeeds moves) (feed : Feed)
    (tradingPair : TradingPair) :
    setup.handledMessages (setup.machine.run moves) feed tradingPair ++
        (((setup.machine.run moves).pending (.orderBook feed.marketType)).map Prod.snd).filterMap
          (BusEvent.messageFor feed.exchangeId tradingPair) =
      feed.messagesFor tradingPair (setup.handledEvents (setup.machine.run moves) feed) := by
  have hsubscribed : (ComponentId.bidAskGenerator feed, ComponentId.orderBook feed.marketType) ∈
      subscriptions := by
    cases feed <;> simp [subscriptions, Feed.marketType]
  have hsent : setup.network.sent moves (setup.machine.run moves) (some (.bidAskGenerator feed))
      (.orderBook feed.marketType) =
        (feed.generator.machine.outputs (setup.handledEvents (setup.machine.run moves)
          feed)).flatMap feed.busEvents := by
    rw [Network.sent, copiesFor_eq setup hsubscribed, published_generator]
  rw [Feed.messagesFor, ← hsent]
  apply (setup.accounted moves).filterMap_handled _ (some (.bidAskGenerator feed))
    (.orderBook feed.marketType) (setup.takesInOrder (by simp) moves)
  intro entry hentry hread
  rcases sender_cases hentry with ⟨-, hposted⟩ | ⟨publisher, hsender, hlisted, hpublished⟩
  · rw [posted_eq_nil hfeeds (by simp)] at hposted
    cases hposted
  · obtain ⟨other, rfl, hmarket⟩ := publisher_of_orderBook hlisted
    have hexchange : other.exchangeId = feed.exchangeId := by
      rcases exchange_of_published hpublished hread with hsame | hinvalid
      · exact hsame.symm
      · exact absurd hinvalid feed.exchangeId_ne_kInvalid
    rw [hsender, Feed.ext hexchange hmarket]

theorem mem_registrations {exchangeId : ExchangeId} {tradingPair : TradingPair}
    (h : (exchangeId, tradingPair) ∈ setup.registered) :
    .addOrderBook exchangeId tradingPair ∈ setup.registrations :=
  List.mem_map.mpr ⟨_, h, rfl⟩

theorem market_registrations (setup : Setup) :
    ∀ event ∈ setup.registrations, event.market = none := by
  intro event hevent
  obtain ⟨registered, -, rfl⟩ := List.mem_map.mp hevent
  rfl

theorem find_orderBooks (setup : Setup) (moves : List (Move ComponentId BusEvent)) {feed : Feed}
    {tradingPair : TradingPair} (hregistered : (feed.exchangeId, tradingPair) ∈ setup.registered) :
    (setup.orderBooks (setup.machine.run moves) feed.marketType).find feed.exchangeId tradingPair =
      some ⟨(MarketOrderBook2.machine setup.containers).run
        (setup.handledMessages (setup.machine.run moves) feed tradingPair),
        [(feed.exchangeId, tradingPair)]⟩ := by
  have hstate := (setup.accounted moves).state (.orderBook feed.marketType)
  change setup.orderBooks (setup.machine.run moves) feed.marketType =
    ((OrderBookComponent.machine setup.containers feed.marketType).reading _ _).run _ at hstate
  rw [hstate, Machine.run_reading, OrderBookComponent.find_run, OrderBookComponent.bookOf]
  have hadded := mem_registrations hregistered
  rw [if_pos (List.mem_append_left _ hadded), OrderBookComponent.history_append_of_registered
    (market_registrations setup) hadded, List.filterMap_filterMap]
  rfl

/-- In every interleaving of the components, a book has handled a prefix of what its generator has
published for its pair, and the generator a prefix of what its feed has sent.  What the other
feeds and pairs send makes no difference. -/
theorem book_follows_feed (setup : Setup) (moves : List (Move ComponentId BusEvent))
    (hfeeds : FromFeeds moves) (feed : Feed) (tradingPair : TradingPair)
    (hregistered : (feed.exchangeId, tradingPair) ∈ setup.registered) :
    let config := setup.machine.run moves
    let events := setup.handledEvents config feed
    let messages := setup.handledMessages config feed tradingPair
    (setup.orderBooks config feed.marketType).find feed.exchangeId tradingPair =
        some ⟨(MarketOrderBook2.machine setup.containers).run messages,
          [(feed.exchangeId, tradingPair)]⟩ ∧
      events <+: feed.arrived moves ∧ messages <+: feed.messagesFor tradingPair events ∧
      (config.pending (.bidAskGenerator feed) = [] → events = feed.arrived moves) ∧
      (config.pending (.orderBook feed.marketType) = [] →
        messages = feed.messagesFor tradingPair events) := by
  intro config events messages
  have hevents := handledEvents_append setup moves feed
  have hmessages : messages ++ _ = feed.messagesFor tradingPair events :=
    handledMessages_append hfeeds feed tradingPair
  refine ⟨find_orderBooks setup moves hregistered, ⟨_, hevents⟩, ⟨_, hmessages⟩, ?_, ?_⟩
  · intro hdrained
    simpa [config, hdrained] using hevents
  · intro hdrained
    simpa [config, hdrained] using hmessages

/-- One pair on Bybit. -/
def onePair : Setup where
  containers := .lists
  setting :=
    { hashing := boostHashing
      pairs := ⟨fun _ => some fun _ => some ⟨2, 3, "BTCUSDT", "BTCUSDT"⟩⟩
      dictionaryPlacement := .back
      cyclePlacement := .back
      tradePlacement := .back
      transactionPlacement := .back }
  registered := [(.kBybit, ⟨2, 1⟩)]
  cycles := []
  placement := .back

/-- A snapshot and a diff that raises the bid go through all stages; the strategy takes its three
quotes from the given positions. -/
def raisedBid (first second third : ℕ) : List (Move ComponentId BusEvent) :=
  [.post (.bidAskGenerator .bybit) (.responseNewSnapshot
      { exchangeId := .kBybit
        tradingPair := ⟨2, 1⟩
        bids := [⟨100, 1⟩]
        asks := [⟨102, 1⟩]
        lastUpdateId := 10 }),
    .post (.bidAskGenerator .bybit) (.bookDiffSnapshot
      { exchangeId := .kBybit
        tradingPair := ⟨2, 1⟩
        bids := [⟨101, 1⟩]
        lastId := 11 }),
    .take (.bidAskGenerator .bybit) 0, .take (.bidAskGenerator .bybit) 0,
    .take (.orderBook .kSpot) 0, .take (.orderBook .kSpot) 0, .take (.orderBook .kSpot) 0,
    .take .redPanda 0, .take .redPanda 0, .take .redPanda 0,
    .take .arbitrageStrategy first, .take .arbitrageStrategy second,
    .take .arbitrageStrategy third]

theorem fromFeeds_raisedBid (first second third : ℕ) :
    FromFeeds (raisedBid first second third) := by
  intro receiver event hmem
  simp only [raisedBid, List.mem_cons, Move.post.injEq, reduceCtorEq, or_false,
    List.not_mem_nil] at hmem
  rcases hmem with ⟨rfl, -⟩ | ⟨rfl, -⟩
  · exact ⟨.bybit, rfl⟩
  · exact ⟨.bybit, rfl⟩

theorem book_follows_raisedBid :
    (Feed.bybit.exchangeId, ⟨2, 1⟩) ∈ onePair.registered ∧
      onePair.handledEvents (onePair.machine.run (raisedBid 0 0 0)) .bybit <+:
        Feed.bybit.arrived (raisedBid 0 0 0) :=
  ⟨by decide, (book_follows_feed onePair (raisedBid 0 0 0) (fromFeeds_raisedBid 0 0 0) .bybit
    ⟨2, 1⟩ (by decide)).2.1⟩

/-! ## The signals of the books -/

/-- What the component of a market type has published, over the events it has handled. -/
theorem published_orderBook (config : Configuration ComponentId setup.State BusEvent)
    (marketType : MarketType) :
    setup.network.published config (.orderBook marketType) =
      ((OrderBookComponent.machine setup.containers marketType).outputs (setup.registrations ++
        (Network.handled config (.orderBook marketType)).filterMap BusEvent.forOrderBook)).map
          BusEvent.newBBO := by
  have hsilent : (OrderBookComponent.machine setup.containers marketType).outputs
      setup.registrations = [] := by
    rw [registrations]
    induction setup.registered using List.reverseRecOn with
    | nil => rfl
    | append_singleton registered last ih =>
        rw [List.map_append, List.map_singleton, Machine.outputs_concat, ih]
        rfl
  change (((OrderBookComponent.machine setup.containers marketType).reading _ _).outputs
    (Network.handled config (.orderBook marketType))).flatMap
      (fun newBBO => [BusEvent.newBBO newBBO]) = _
  rw [Machine.outputs_reading, Machine.outputs_append, hsilent, List.nil_append,
    ← List.map_eq_flatMap]

/-- The quotes of a venue that its component has published are the signals of its book. -/
theorem quotes_published (config : Configuration ComponentId setup.State BusEvent) {feed : Feed}
    {tradingPair : TradingPair} (hregistered : (feed.exchangeId, tradingPair) ∈ setup.registered) :
    (setup.network.published config (.orderBook feed.marketType)).filterMap
        (BusEvent.quoteOf (feed.venue tradingPair)) =
      (MarketOrderBook2.machine setup.containers).outputs
        (setup.handledMessages config feed tradingPair) := by
  rw [published_orderBook, List.filterMap_map]
  change (List.filterMap (OrderBookComponent.bboOf ⟨_, feed.marketType, _⟩) _) = _
  rw [OrderBookComponent.filterMap_outputs, OrderBookComponent.history_append_of_registered
    (market_registrations setup) (mem_registrations hregistered), List.filterMap_filterMap]
  rfl

/-- Only the order book component of its market type sends the quotes of a venue. -/
theorem sender_of_quote (hfeeds : FromFeeds moves) {receiver : ComponentId}
    (hreceiver : receiver = .redPanda ∨ receiver = .arbitrageStrategy)
    {entry : Option ComponentId × BusEvent}
    (hentry : entry ∈ Network.received (setup.machine.run moves) receiver) {venue : Venue}
    (hquote : (entry.2.quoteOf venue).isSome) : entry.1 = some (.orderBook venue.marketType) := by
  rcases sender_cases hentry with ⟨-, hposted⟩ | ⟨publisher, hsender, hlisted, hpublished⟩
  · rw [posted_eq_nil hfeeds (by rcases hreceiver with rfl | rfl <;> simp)] at hposted
    cases hposted
  · rcases publisher_of_quotes hreceiver hlisted with ⟨marketType, rfl⟩ | rfl
    · rw [published_orderBook, List.mem_map] at hpublished
      obtain ⟨newBBO, hmem, hnewBBO⟩ := hpublished
      have hvenue : venueOf newBBO = venue := by
        rw [← hnewBBO, BusEvent.quoteOf] at hquote
        by_contra hother
        simp [hother] at hquote
      rw [hsender, ← hvenue, venueOf, OrderBookComponent.marketType_of_mem_outputs hmem]
    · obtain ⟨effect, -, hreport⟩ := List.mem_flatMap.mp hpublished
      obtain ⟨report, hreport⟩ : ∃ report, entry.2 = .arbitrageReport report := by
        cases effect with
        | evaluated cycle => cases hreport
        | opened uidTrade buyEntryPrice sellEntryPrice => cases hreport
        | reported report => exact ⟨report, List.mem_singleton.mp hreport⟩
      rw [hreport] at hquote
      cases hquote

/-- The quotes of a venue that have come to a component are signals of the book. -/
theorem sent_quotes (config : Configuration ComponentId setup.State BusEvent)
    (moves : List (Move ComponentId BusEvent)) {receiver : ComponentId}
    (hreceiver : receiver = .redPanda ∨ receiver = .arbitrageStrategy) {feed : Feed}
    {tradingPair : TradingPair} (hregistered : (feed.exchangeId, tradingPair) ∈ setup.registered) :
    (setup.network.sent moves config (some (.orderBook feed.marketType)) receiver).filterMap
        (BusEvent.quoteOf (feed.venue tradingPair)) =
      (MarketOrderBook2.machine setup.containers).outputs
        (setup.handledMessages config feed tradingPair) := by
  have hsubscribed : (ComponentId.orderBook feed.marketType, receiver) ∈ subscriptions := by
    rcases hreceiver with rfl | rfl <;> cases feed <;> simp [subscriptions, Feed.marketType]
  rw [Network.sent, copiesFor_eq setup hsubscribed, quotes_published config hregistered]

/-! ## Red Panda -/

/-- A record carries the venue of its quote. -/
theorem venue_of_handleNewBBO {pairs : ExchangeTradingPairs} {event : NewBBO}
    {record : OrderBookRecord} (h : RedPanda.handleNewBBO pairs event = some record) :
    record.venue = venueOf event := by
  unfold RedPanda.handleNewBBO at h
  split at h
  · cases h
  · split at h
    · cases h
      rfl
    · cases h

/-- The record of a quote of a venue. -/
def record (setup : Setup) (venue : Venue) (bbo : BBO) : Option OrderBookRecord :=
  RedPanda.handleNewBBO setup.setting.pairs
    ⟨venue.exchangeId, venue.tradingPair, bbo, venue.marketType⟩

/-- One quote becomes at most one record, of its own venue. -/
theorem recordsOf_handle (setup : Setup) (venue : Venue) (newBBO : NewBBO) :
    RedPanda.recordsOf venue (RedPanda.handle setup.setting.pairs (.newBBO newBBO)) =
      if venueOf newBBO = venue then (setup.record venue newBBO.bbo).toList else [] := by
  by_cases hvenue : venueOf newBBO = venue
  · subst hvenue
    rw [if_pos rfl, RedPanda.handle, show setup.record (venueOf newBBO) newBBO.bbo =
      RedPanda.handleNewBBO setup.setting.pairs newBBO from rfl]
    cases hhandle : RedPanda.handleNewBBO setup.setting.pairs newBBO with
    | none => rfl
    | some record => simp [RedPanda.recordsOf, venue_of_handleNewBBO hhandle]
  · rw [if_neg hvenue, RedPanda.handle]
    cases hhandle : RedPanda.handleNewBBO setup.setting.pairs newBBO with
    | none => rfl
    | some record => simp [RedPanda.recordsOf, venue_of_handleNewBBO hhandle, hvenue]

/-- The records of a venue are made from its quotes. -/
theorem recordsOf_outputs (setup : Setup) (venue : Venue) (events : List BusEvent) :
    RedPanda.recordsOf venue ((RedPanda.machine setup.setting.pairs).outputs events) =
      (events.filterMap (BusEvent.quoteOf venue)).filterMap (setup.record venue) := by
  induction events using List.reverseRecOn with
  | nil => rfl
  | append_singleton events event ih =>
      rw [Machine.outputs_concat, RedPanda.recordsOf, List.filterMap_append, ← RedPanda.recordsOf,
        ih, List.filterMap_append, List.filterMap_append]
      congr 1
      change RedPanda.recordsOf venue (RedPanda.handle setup.setting.pairs event) = _
      cases event with
      | newBBO newBBO =>
          rw [recordsOf_handle]
          by_cases hvenue : venueOf newBBO = venue
          · cases hrecord : setup.record venue newBBO.bbo <;>
              simp [BusEvent.quoteOf, hvenue, hrecord]
          · simp [BusEvent.quoteOf, hvenue]
      | responseNewSnapshot snapshot => rfl
      | bookDiffSnapshot diff => rfl
      | meMarketUpdate2 update => rfl
      | arbitrageReport report => rfl

/-- The records that Red Panda sends of a venue are a prefix of the records of the signals of its
book: none is lost, doubled or out of order. -/
theorem records_follow_book (setup : Setup) (moves : List (Move ComponentId BusEvent))
    (hfeeds : FromFeeds moves) (feed : Feed) (tradingPair : TradingPair)
    (hregistered : (feed.exchangeId, tradingPair) ∈ setup.registered) :
    let config := setup.machine.run moves
    let signals := (MarketOrderBook2.machine setup.containers).outputs
      (setup.handledMessages config feed tradingPair)
    let records := RedPanda.recordsOf (feed.venue tradingPair) (setup.redPandaMessages config)
    records <+: signals.filterMap (setup.record (feed.venue tradingPair)) ∧
      (config.pending .redPanda = [] →
        records = signals.filterMap (setup.record (feed.venue tradingPair))) := by
  intro config signals records
  have haccount := (setup.accounted moves).filterMap_handled
    (BusEvent.quoteOf (feed.venue tradingPair)) (some (.orderBook feed.marketType)) .redPanda
    (setup.takesInOrder (by simp) moves)
    fun entry hentry hquote => sender_of_quote hfeeds (.inl rfl) hentry hquote
  rw [sent_quotes _ moves (.inl rfl) hregistered] at haccount
  have hrecords : records = _ := recordsOf_outputs setup _ _
  rw [hrecords]
  refine ⟨List.IsPrefix.filterMap _ ⟨_, haccount⟩, fun hdrained => ?_⟩
  rw [hdrained, List.map_nil, List.filterMap_nil, List.append_nil] at haccount
  exact congrArg _ haccount

theorem records_follow_raisedBid :
    (onePair.machine.run (raisedBid 0 0 0)).pending .redPanda = [] ∧
      RedPanda.recordsOf (Feed.bybit.venue ⟨2, 1⟩)
          (onePair.redPandaMessages (onePair.machine.run (raisedBid 0 0 0))) =
        ((MarketOrderBook2.machine onePair.containers).outputs
          (onePair.handledMessages (onePair.machine.run (raisedBid 0 0 0)) .bybit
            ⟨2, 1⟩)).filterMap (onePair.record (Feed.bybit.venue ⟨2, 1⟩)) := by
  have hdrained : (onePair.machine.run (raisedBid 0 0 0)).pending .redPanda = [] := by
    apply List.isEmpty_iff.mp
    decide +kernel
  exact ⟨hdrained, (records_follow_book onePair (raisedBid 0 0 0) (fromFeeds_raisedBid 0 0 0)
    .bybit ⟨2, 1⟩ (by decide)).2 hdrained⟩

/-! ## The strategy -/

/-- The venues whose quotes the strategy can hear of. -/
def venues (setup : Setup) : List Venue :=
  setup.registered.flatMap fun registered =>
    [⟨registered.1, .kSpot, registered.2⟩, ⟨registered.1, .kFutures, registered.2⟩]

/-- A quote that has come to the strategy is of a registered book. -/
theorem venue_of_received (hfeeds : FromFeeds moves)
    {entry : Option ComponentId × BusEvent}
    (hentry : entry ∈ Network.received (setup.machine.run moves) .arbitrageStrategy)
    {newBBO : NewBBO} (hnewBBO : entry.2 = .newBBO newBBO) : venueOf newBBO ∈ setup.venues := by
  rcases sender_cases hentry with ⟨-, hposted⟩ | ⟨publisher, -, hlisted, hpublished⟩
  · rw [posted_eq_nil hfeeds (by simp)] at hposted
    cases hposted
  · have hmarket : ∃ marketType, publisher = .orderBook marketType ∧
        (marketType = .kSpot ∨ marketType = .kFutures) := by
      simp only [subscriptions, List.mem_cons, Prod.mk.injEq, reduceCtorEq, and_false, and_true,
        false_or, or_false, List.not_mem_nil] at hlisted
      rcases hlisted with rfl | rfl
      · exact ⟨_, rfl, .inl rfl⟩
      · exact ⟨_, rfl, .inr rfl⟩
    obtain ⟨marketType, rfl, hmarket⟩ := hmarket
    rw [hnewBBO, published_orderBook, List.mem_map] at hpublished
    obtain ⟨published, hmem, hsame⟩ := hpublished
    cases hsame
    have hregistered : (newBBO.exchangeId, newBBO.tradingPair) ∈ setup.registered := by
      rcases List.mem_append.mp (OrderBookComponent.registered_of_mem_outputs hmem) with
        hadded | hhandled
      · obtain ⟨registered, hregistered, hsame⟩ := List.mem_map.mp hadded
        rw [OrderBookComponent.Event.addOrderBook.injEq] at hsame
        rwa [← hsame.1, ← hsame.2]
      · obtain ⟨event, -, hread⟩ := List.mem_filterMap.mp hhandled
        cases event <;> cases hread
    rw [venueOf, OrderBookComponent.marketType_of_mem_outputs hmem]
    refine List.mem_flatMap.mpr ⟨_, hregistered, ?_⟩
    rcases hmarket with rfl | rfl <;> simp

/-- The quote that the strategy holds of a venue is the one it has handled last. -/
theorem exchangeBboMap_eq (hfeeds : FromFeeds moves)
    (hhashing : Set.InjOn setup.setting.hashing.venueKey { venue | venue ∈ setup.venues })
    {venue : Venue} (hvenue : venue ∈ setup.venues) :
    (setup.strategy (setup.machine.run moves)).exchangeBboMap
        (setup.setting.hashing.venueKey venue) =
      ((Network.handled (setup.machine.run moves) .arbitrageStrategy).filterMap
        (BusEvent.quoteOf venue)).getLast? := by
  have hstate := (setup.accounted moves).state .arbitrageStrategy
  change setup.strategy (setup.machine.run moves) =
    ((ArbitrageStrategyComponent.machine setup.setting).reading _ _).run _ at hstate
  rw [hstate, Machine.run_reading,
    ArbitrageStrategyComponent.exchangeBboMap_run hhashing ?_ hvenue,
    ArbitrageStrategyComponent.latest_eq_getLast, List.filterMap_append, List.filterMap_filterMap]
  · have hcycles : (setup.cycles.map ArbitrageStrategyComponent.Event.addArbitrageCycle).filterMap
        (ArbitrageStrategyComponent.quoteOf venue) = [] := by
      simp [ArbitrageStrategyComponent.quoteOf]
    rw [hcycles, List.nil_append]
    congr 2
    funext event
    cases event <;> rfl
  · -- The quotes that the strategy has handled have come to it.
    intro quoted hquoted
    obtain ⟨write, hwrite, rfl⟩ := List.mem_map.mp hquoted
    obtain ⟨event, hevent, hread⟩ := List.mem_filterMap.mp hwrite
    rcases List.mem_append.mp hevent with hcycle | hhandled
    · obtain ⟨cycle, -, rfl⟩ := List.mem_map.mp hcycle
      cases hread
    · obtain ⟨busEvent, hbusEvent, hforStrategy⟩ := List.mem_filterMap.mp hhandled
      obtain ⟨entry, hentry, rfl⟩ := List.mem_map.mp hbusEvent
      cases hentryEvent : entry.2 with
      | newBBO newBBO =>
          rw [hentryEvent] at hforStrategy
          cases hforStrategy
          cases hread
          exact venue_of_received hfeeds (List.mem_append_left _ hentry) hentryEvent
      | responseNewSnapshot snapshot =>
          rw [hentryEvent] at hforStrategy
          cases hforStrategy
      | bookDiffSnapshot diff =>
          rw [hentryEvent] at hforStrategy
          cases hforStrategy
      | meMarketUpdate2 update =>
          rw [hentryEvent] at hforStrategy
          cases hforStrategy
      | arbitrageReport report =>
          rw [hentryEvent] at hforStrategy
          cases hforStrategy

/-- The quote that the strategy holds of a venue is one that the book of the venue has signalled.
Once the strategy has nothing left to handle, there is a quote if the book has signalled any; and
if its handlers have run in the order in which they were posted, the quote is the cached one of the
book. -/
theorem quote_follows_book (setup : Setup) (moves : List (Move ComponentId BusEvent))
    (hfeeds : FromFeeds moves)
    (hhashing : Set.InjOn setup.setting.hashing.venueKey { venue | venue ∈ setup.venues })
    (feed : Feed) (tradingPair : TradingPair)
    (hregistered : (feed.exchangeId, tradingPair) ∈ setup.registered) :
    let config := setup.machine.run moves
    let messages := setup.handledMessages config feed tradingPair
    let signals := (MarketOrderBook2.machine setup.containers).outputs messages
    let quote := (setup.strategy config).exchangeBboMap
      (setup.setting.hashing.venueKey (feed.venue tradingPair))
    (∀ bbo, quote = some bbo → bbo ∈ signals) ∧
      (config.pending .arbitrageStrategy = [] →
        (quote = none ↔ signals = []) ∧
          ((∀ position, .take .arbitrageStrategy position ∈ moves → position = 0) →
            quote.getD {} = ((MarketOrderBook2.machine setup.containers).run messages).bbo)) := by
  intro config messages signals quote
  have hvenue : feed.venue tradingPair ∈ setup.venues := by
    refine List.mem_flatMap.mpr ⟨_, hregistered, ?_⟩
    cases feed <;> simp [Feed.venue, Feed.marketType, Feed.exchangeId]
  have hquote : quote = _ := exchangeBboMap_eq hfeeds hhashing hvenue
  have honly : ∀ entry ∈ Network.received (setup.machine.run moves)
      ComponentId.arbitrageStrategy, (entry.2.quoteOf (feed.venue tradingPair)).isSome →
        entry.1 = some (.orderBook feed.marketType) :=
    fun entry hentry hread => sender_of_quote hfeeds (.inr rfl) hentry hread
  have hperm := (setup.accounted moves).filterMap_handled_perm
    (BusEvent.quoteOf (feed.venue tradingPair)) _ _ honly
  rw [sent_quotes _ moves (.inr rfl) hregistered] at hperm
  constructor
  · intro bbo hbbo
    rw [hquote] at hbbo
    exact hperm.mem_iff.mp (List.mem_append_left _ (List.mem_of_getLast? hbbo))
  · intro hdrained
    rw [hdrained, List.map_nil, List.filterMap_nil, List.append_nil] at hperm
    constructor
    · rw [hquote, List.getLast?_eq_none_iff, ← List.length_eq_zero_iff, hperm.length_eq,
        List.length_eq_zero_iff]
    · intro hinOrder
      have haccount := (setup.accounted moves).filterMap_handled
        (BusEvent.quoteOf (feed.venue tradingPair)) _ _ (.inr hinOrder) honly
      rw [sent_quotes _ moves (.inr rfl) hregistered, hdrained, List.map_nil, List.filterMap_nil,
        List.append_nil] at haccount
      rw [hquote, MarketOrderBook2.bbo_run]
      exact congrArg (fun quotes : List BBO => quotes.getLast?.getD {}) haccount

theorem venueKey_injOn_onePair :
    Set.InjOn onePair.setting.hashing.venueKey { venue | venue ∈ onePair.venues } := by
  have htable : ∀ first ∈ onePair.venues, ∀ second ∈ onePair.venues,
      onePair.setting.hashing.venueKey first = onePair.setting.hashing.venueKey second →
        first = second := by
    decide +kernel
  exact fun first hfirst second hsecond => htable first hfirst second hsecond

theorem quote_follows_raisedBid :
    (onePair.machine.run (raisedBid 0 0 0)).pending .arbitrageStrategy = [] ∧
      ((onePair.strategy (onePair.machine.run (raisedBid 0 0 0))).exchangeBboMap
        (onePair.setting.hashing.venueKey (Feed.bybit.venue ⟨2, 1⟩))).getD {} =
          ((MarketOrderBook2.machine onePair.containers).run
            (onePair.handledMessages (onePair.machine.run (raisedBid 0 0 0)) .bybit
              ⟨2, 1⟩)).bbo := by
  have hdrained : (onePair.machine.run (raisedBid 0 0 0)).pending .arbitrageStrategy = [] := by
    apply List.isEmpty_iff.mp
    decide +kernel
  refine ⟨hdrained, ((quote_follows_book onePair (raisedBid 0 0 0) (fromFeeds_raisedBid 0 0 0)
    venueKey_injOn_onePair .bybit ⟨2, 1⟩ (by decide)).2 hdrained).2 ?_⟩
  intro position hmem
  simpa [raisedBid] using hmem

/-- The handlers of the strategy may run in another order: here it is left with the quote before
the bid was raised. -/
example :
    (onePair.machine.run (raisedBid 2 0 0)).pending .arbitrageStrategy = [] ∧
      ((onePair.strategy (onePair.machine.run (raisedBid 2 0 0))).exchangeBboMap
        (onePair.setting.hashing.venueKey (Feed.bybit.venue ⟨2, 1⟩))).getD {} ≠
          ((MarketOrderBook2.machine onePair.containers).run
            (onePair.handledMessages (onePair.machine.run (raisedBid 2 0 0)) .bybit
              ⟨2, 1⟩)).bbo := by
  constructor
  · apply List.isEmpty_iff.mp
    decide +kernel
  · decide +kernel

end Setup

end CryptoBot.Bus

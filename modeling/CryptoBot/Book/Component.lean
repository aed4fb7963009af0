/-
# The order book component

`OrderBookComponent` owns a book for each exchange and pair that was registered
with it, and hands every market event to the book of its exchange and pair.  When
a book is registered, the component subscribes to its BBO signal with a callback
that has captured the exchange and the pair, and publishes a `NewBBO` for each
call of it.

The maps are two levels deep and every handler walks them with operations that
may insert on the way.  The routing law says that none of them does: a run of the
component is, for each exchange and pair, a run of one book over the messages
that came after its registration.
-/

import Mathlib.Data.List.TakeWhile
import CryptoBot.Book.MarketOrderBook
import CryptoBot.Math.PartialMap

namespace CryptoBot.Book

open CryptoBot.Common CryptoBot.MarketData CryptoBot.Math

structure NewBBO where
  exchangeId : ExchangeId := .kInvalid
  tradingPair : TradingPair := {}
  bbo : BBO := {}
  marketType : MarketType := .kInvalid
  deriving DecidableEq, Repr

/-- A book with the subscribers of its BBO signal, by what each callback has
captured. -/
structure Subscribed (containers : Containers) where
  book : MarketOrderBook2 containers
  subscribers : List (ExchangeId × TradingPair) := []

structure OrderBookComponent (containers : Containers) where
  orderBooks : ExchangeId → Option (TradingPair → Option (Subscribed containers)) := fun _ => none
  marketType : MarketType

namespace OrderBookComponent

variable {containers : Containers} (component : OrderBookComponent containers)

/-- A book as `try_emplace` constructs it, without subscribers. -/
def fresh (containers : Containers) : Subscribed containers := ⟨.new containers, []⟩

def addOrderBook (exchangeId : ExchangeId) (tradingPair : TradingPair) :
    OrderBookComponent containers :=
  let (orderBooks, innerMap, _) := tryEmplace component.orderBooks exchangeId fun _ => none
  let (innerMap, orderBook, inserted) := tryEmplace innerMap tradingPair (fresh containers)
  let orderBook :=
    if inserted then
      { orderBook with subscribers := orderBook.subscribers ++ [(exchangeId, tradingPair)] }
    else orderBook
  { component with
    orderBooks := Function.update orderBooks exchangeId
      (some (Function.update innerMap tradingPair (some orderBook))) }

def sendBBOToBus (exchangeId : ExchangeId) (tradingPair : TradingPair) (bbo : BBO) : NewBBO :=
  ⟨exchangeId, tradingPair, bbo, component.marketType⟩

/-- `Emit` calls the subscribers in the order of their subscription. -/
def emit (subscribers : List (ExchangeId × TradingPair)) (bbo : BBO) : List NewBBO :=
  subscribers.map fun (exchangeId, tradingPair) =>
    component.sendBBOToBus exchangeId tradingPair bbo

/-- The body the three handlers share. -/
def process (exchangeId : ExchangeId) (tradingPair : TradingPair) (message : BookMessage) :
    OrderBookComponent containers × List NewBBO :=
  if (component.orderBooks exchangeId).isNone then (component, [])
  else
    let (orderBooks, innerMap) := subscript component.orderBooks exchangeId fun _ => none
    let component := { component with orderBooks }
    if (innerMap tradingPair).isNone then (component, [])
    else
      let (orderBooks, innerMap, _) := tryEmplace component.orderBooks exchangeId fun _ => none
      let (innerMap, orderBook, _) := tryEmplace innerMap tradingPair (fresh containers)
      let (book, signals) := (MarketOrderBook2.machine containers).step orderBook.book message
      ({ component with
          orderBooks := Function.update orderBooks exchangeId
            (some (Function.update innerMap tradingPair (some { orderBook with book }))) },
        signals.flatMap (component.emit orderBook.subscribers))

def handleNewMEMarketUpdate : Option MEMarketUpdate2 → OrderBookComponent containers × List NewBBO
  | none => (component, [])
  | some event => component.process event.exchangeId event.tradingPair (.update event)

def handleResponseNewSnapshot : Option BookSnapshot2 → OrderBookComponent containers × List NewBBO
  | none => (component, [])
  | some event => component.process event.exchangeId event.tradingPair (.snapshot (some event))

def handleNewDiff : Option BookDiffSnapshot2 → OrderBookComponent containers × List NewBBO
  | none => (component, [])
  | some event => component.process event.exchangeId event.tradingPair (.diff (some event))

/-- A registration or an event of the bus; its wrapped event may be null. -/
inductive Event
  | addOrderBook (exchangeId : ExchangeId) (tradingPair : TradingPair)
  | meMarketUpdate (event : Option MEMarketUpdate2)
  | newSnapshot (event : Option BookSnapshot2)
  | newDiff (event : Option BookDiffSnapshot2)
  deriving DecidableEq, Repr

def step : Event → OrderBookComponent containers × List NewBBO
  | .addOrderBook exchangeId tradingPair => (component.addOrderBook exchangeId tradingPair, [])
  | .meMarketUpdate event => component.handleNewMEMarketUpdate event
  | .newSnapshot event => component.handleResponseNewSnapshot event
  | .newDiff event => component.handleNewDiff event

/-- The runs of a component without books. -/
def machine (containers : Containers) (marketType : MarketType) :
    Machine (OrderBookComponent containers) Event NewBBO :=
  ⟨{ marketType }, step⟩

/-! ## Books -/

/-- The book registered for an exchange and a pair. -/
def find (exchangeId : ExchangeId) (tradingPair : TradingPair) : Option (Subscribed containers) :=
  (component.orderBooks exchangeId).bind (· tradingPair)

/-- The component with one book replaced. -/
def setBook (exchangeId : ExchangeId) (tradingPair : TradingPair)
    (orderBook : Subscribed containers) : OrderBookComponent containers :=
  { component with
    orderBooks := Function.update component.orderBooks exchangeId
      (some (Function.update ((component.orderBooks exchangeId).getD fun _ => none) tradingPair
        (some orderBook))) }

theorem find_setBook (exchangeId other : ExchangeId) (tradingPair otherPair : TradingPair)
    (orderBook : Subscribed containers) :
    (component.setBook exchangeId tradingPair orderBook).find other otherPair =
      if (other, otherPair) = (exchangeId, tradingPair) then some orderBook
      else component.find other otherPair := by
  by_cases hexchange : other = exchangeId
  · subst hexchange
    by_cases hpair : otherPair = tradingPair
    · simp [setBook, find, hpair]
    · cases hinner : component.orderBooks other <;>
        simp [setBook, find, hpair, hinner]
  · simp [setBook, find, hexchange]

variable {component} {exchangeId : ExchangeId} {tradingPair : TradingPair}

/-- A book that is registered keeps its state and its subscribers. -/
theorem setBook_of_find {orderBook : Subscribed containers}
    (h : component.find exchangeId tradingPair = some orderBook) :
    component.setBook exchangeId tradingPair orderBook = component := by
  obtain ⟨innerMap, hinner, hbook⟩ := Option.bind_eq_some_iff.mp h
  simp only [setBook, hinner, Option.getD_some]
  rw [← hbook, Function.update_eq_self, ← hinner, Function.update_eq_self]

theorem addOrderBook_of_find {orderBook : Subscribed containers}
    (h : component.find exchangeId tradingPair = some orderBook) :
    component.addOrderBook exchangeId tradingPair = component := by
  obtain ⟨innerMap, hinner, hbook⟩ := Option.bind_eq_some_iff.mp h
  refine Eq.trans ?_ (setBook_of_find h)
  simp [addOrderBook, setBook, tryEmplace_of_some hinner, tryEmplace_of_some hbook, hinner]

/-- A new book has one subscriber, with its own exchange and pair. -/
theorem addOrderBook_of_none (h : component.find exchangeId tradingPair = none) :
    component.addOrderBook exchangeId tradingPair =
      component.setBook exchangeId tradingPair ⟨.new containers, [(exchangeId, tradingPair)]⟩ := by
  cases hinner : component.orderBooks exchangeId with
  | none => simp [addOrderBook, setBook, tryEmplace, hinner, fresh]
  | some innerMap =>
      have hbook : innerMap tradingPair = none := by simpa [find, hinner] using h
      simp [addOrderBook, setBook, tryEmplace_of_some hinner, tryEmplace_of_none hbook, hinner,
        fresh]

theorem process_of_none (h : component.find exchangeId tradingPair = none) (message : BookMessage) :
    component.process exchangeId tradingPair message = (component, []) := by
  cases hinner : component.orderBooks exchangeId with
  | none => simp [process, hinner]
  | some innerMap =>
      have hbook : innerMap tradingPair = none := by simpa [find, hinner] using h
      simp [process, hinner, subscript_of_some hinner, hbook]

theorem process_of_find {orderBook : Subscribed containers}
    (h : component.find exchangeId tradingPair = some orderBook) (message : BookMessage) :
    component.process exchangeId tradingPair message =
      (component.setBook exchangeId tradingPair
          { orderBook with
            book := ((MarketOrderBook2.machine containers).step orderBook.book message).1 },
        ((MarketOrderBook2.machine containers).step orderBook.book message).2.flatMap
          (component.emit orderBook.subscribers)) := by
  obtain ⟨innerMap, hinner, hbook⟩ := Option.bind_eq_some_iff.mp h
  simp [process, hinner, subscript_of_some hinner, hbook, tryEmplace_of_some hinner,
    tryEmplace_of_some hbook, setBook]

/-! ## One event -/

/-- The exchange, the pair and the message of a market event that is not null. -/
def Event.market : Event → Option (ExchangeId × TradingPair × BookMessage)
  | .addOrderBook _ _ => none
  | .meMarketUpdate event => event.map fun event =>
      (event.exchangeId, event.tradingPair, .update event)
  | .newSnapshot event => event.map fun event =>
      (event.exchangeId, event.tradingPair, .snapshot (some event))
  | .newDiff event => event.map fun event =>
      (event.exchangeId, event.tradingPair, .diff (some event))

theorem step_of_market {event : Event} {message : BookMessage}
    (h : event.market = some (exchangeId, tradingPair, message)) :
    component.step event = component.process exchangeId tradingPair message := by
  cases event with
  | addOrderBook _ _ => cases h
  | meMarketUpdate event =>
      obtain ⟨event, rfl, heq⟩ := Option.map_eq_some_iff.mp h
      cases heq
      rfl
  | newSnapshot event =>
      obtain ⟨event, rfl, heq⟩ := Option.map_eq_some_iff.mp h
      cases heq
      rfl
  | newDiff event =>
      obtain ⟨event, rfl, heq⟩ := Option.map_eq_some_iff.mp h
      cases heq
      rfl

/-- An event with a null pointer. -/
theorem step_of_null {event : Event} (hmarket : event.market = none)
    (hadd : ∀ exchangeId tradingPair, event ≠ .addOrderBook exchangeId tradingPair) :
    component.step event = (component, []) := by
  cases event with
  | addOrderBook exchangeId tradingPair => exact (hadd exchangeId tradingPair rfl).elim
  | meMarketUpdate event => rw [step, Option.map_eq_none_iff.mp hmarket]; rfl
  | newSnapshot event => rw [step, Option.map_eq_none_iff.mp hmarket]; rfl
  | newDiff event => rw [step, Option.map_eq_none_iff.mp hmarket]; rfl

/-- A book emits nothing but its own BBO. -/
theorem bbo_of_signal {book : MarketOrderBook2 containers} {message : BookMessage} {bbo : BBO}
    (h : bbo ∈ ((MarketOrderBook2.machine containers).step book message).2) :
    bbo = ((MarketOrderBook2.machine containers).step book message).1.bbo := by
  have hpublish (book : MarketOrderBook2 containers) (updateBid updateAsk : Bool)
      (hmem : bbo ∈ (book.publish updateBid updateAsk).2) :
      bbo = (book.publish updateBid updateAsk).1.bbo := by
    simp only [MarketOrderBook2.publish] at hmem ⊢
    split at hmem
    · simpa using hmem
    · simp at hmem
  cases message with
  | update marketUpdate => exact hpublish _ _ _ h
  | snapshot marketSnapshot =>
      cases marketSnapshot with
      | none => simp [MarketOrderBook2.machine, MarketOrderBook2.onMarketSnapshot] at h
      | some marketSnapshot => exact hpublish _ _ _ h
  | diff marketDiff =>
      cases marketDiff with
      | none => simp [MarketOrderBook2.machine, MarketOrderBook2.onMarketDiff] at h
      | some marketDiff => exact hpublish _ _ _ h

/-- What one event may do: a registration adds a book or does nothing, a market
event moves the book it names and publishes its signals under the label of that
book, and an event for a book that is not registered, or a null event, does
nothing. -/
structure Routes (component : OrderBookComponent containers) (event : Event) : Prop where
  added : ∀ exchangeId tradingPair, event = .addOrderBook exchangeId tradingPair →
    (component.step event).2 = [] ∧
      ((component.find exchangeId tradingPair).isSome → (component.step event).1 = component) ∧
      (component.find exchangeId tradingPair = none →
        (component.step event).1.find exchangeId tradingPair =
          some ⟨.new containers, [(exchangeId, tradingPair)]⟩) ∧
      ∀ other otherPair, (other, otherPair) ≠ (exchangeId, tradingPair) →
        (component.step event).1.find other otherPair = component.find other otherPair
  routed : ∀ exchangeId tradingPair message orderBook,
    event.market = some (exchangeId, tradingPair, message) →
    component.find exchangeId tradingPair = some orderBook →
      (component.step event).1.find exchangeId tradingPair = some
          { orderBook with
            book := ((MarketOrderBook2.machine containers).step orderBook.book message).1 } ∧
        (∀ other otherPair, (other, otherPair) ≠ (exchangeId, tradingPair) →
          (component.step event).1.find other otherPair = component.find other otherPair) ∧
        (component.step event).2 =
          ((MarketOrderBook2.machine containers).step orderBook.book message).2.map
            (component.sendBBOToBus exchangeId tradingPair) ∧
        ∀ newBBO ∈ (component.step event).2, newBBO.bbo =
          ((MarketOrderBook2.machine containers).step orderBook.book message).1.bbo
  unregistered : ∀ exchangeId tradingPair message,
    event.market = some (exchangeId, tradingPair, message) →
    component.find exchangeId tradingPair = none → component.step event = (component, [])
  null : event.market = none →
    (∀ exchangeId tradingPair, event ≠ .addOrderBook exchangeId tradingPair) →
    component.step event = (component, [])

/-- Every book has one subscriber, with its own exchange and pair. -/
def Labelled (component : OrderBookComponent containers) : Prop :=
  ∀ exchangeId tradingPair orderBook, component.find exchangeId tradingPair = some orderBook →
    orderBook.subscribers = [(exchangeId, tradingPair)]

theorem Labelled.routes (h : component.Labelled) (event : Event) : component.Routes event where
  added := by
    rintro exchangeId tradingPair rfl
    refine ⟨rfl, ?_, ?_, ?_⟩
    · intro hsome
      obtain ⟨orderBook, hfind⟩ := Option.isSome_iff_exists.mp hsome
      exact addOrderBook_of_find hfind
    · intro hnone
      simp [step, addOrderBook_of_none hnone, find_setBook]
    · intro other otherPair hother
      cases hfind : component.find exchangeId tradingPair with
      | none => simp only [step, addOrderBook_of_none hfind, find_setBook, if_neg hother]
      | some orderBook => simp only [step, addOrderBook_of_find hfind]
  routed := by
    intro exchangeId tradingPair message orderBook hmarket hfind
    have hlabel := h exchangeId tradingPair orderBook hfind
    have hprocess := process_of_find hfind message
    rw [step_of_market hmarket, hprocess]
    have hpublished : ((MarketOrderBook2.machine containers).step orderBook.book message).2.flatMap
        (component.emit orderBook.subscribers) =
          ((MarketOrderBook2.machine containers).step orderBook.book message).2.map
            (component.sendBBOToBus exchangeId tradingPair) := by
      rw [hlabel, List.map_eq_flatMap]
      rfl
    refine ⟨by simp [find_setBook], ?_, hpublished, ?_⟩
    · intro other otherPair hother
      rw [find_setBook, if_neg hother]
    · rw [hpublished]
      intro newBBO hmem
      obtain ⟨bbo, hsignal, rfl⟩ := List.mem_map.mp hmem
      exact bbo_of_signal hsignal
  unregistered := by
    intro exchangeId tradingPair message hmarket hfind
    rw [step_of_market hmarket, process_of_none hfind]
  null := step_of_null

/-! ## Runs -/

/-- The message of an event for this exchange and pair. -/
def Event.messageFor (exchangeId : ExchangeId) (tradingPair : TradingPair) (event : Event) :
    Option BookMessage :=
  event.market.bind fun (other, otherPair, message) =>
    if (other, otherPair) = (exchangeId, tradingPair) then some message else none

/-- The messages for a book since it was registered first. -/
def history (exchangeId : ExchangeId) (tradingPair : TradingPair) (events : List Event) :
    List BookMessage :=
  (events.dropWhile (· ≠ .addOrderBook exchangeId tradingPair)).filterMap
    (Event.messageFor exchangeId tradingPair)

/-- The book that a run leaves for an exchange and a pair. -/
def bookOf (containers : Containers) (exchangeId : ExchangeId) (tradingPair : TradingPair)
    (events : List Event) : Option (Subscribed containers) :=
  if .addOrderBook exchangeId tradingPair ∈ events then
    some ⟨(MarketOrderBook2.machine containers).run (history exchangeId tradingPair events),
      [(exchangeId, tradingPair)]⟩
  else none

theorem history_concat_of_mem {events : List Event}
    (h : .addOrderBook exchangeId tradingPair ∈ events) (event : Event) :
    history exchangeId tradingPair (events ++ [event]) =
      history exchangeId tradingPair events ++
        (event.messageFor exchangeId tradingPair).toList := by
  have hopen : ¬ (events.dropWhile (· ≠ .addOrderBook exchangeId tradingPair)).isEmpty := by
    rw [List.isEmpty_iff, List.dropWhile_eq_nil_iff]
    intro hall
    simpa using hall _ h
  rw [history, List.dropWhile_append, if_neg hopen, List.filterMap_append]
  cases hmessage : event.messageFor exchangeId tradingPair <;> simp [history, hmessage]

theorem history_concat_of_notMem {events : List Event}
    (h : .addOrderBook exchangeId tradingPair ∉ events) :
    history exchangeId tradingPair
      (events ++ [Event.addOrderBook exchangeId tradingPair]) = [] := by
  have hclosed : (events.dropWhile (· ≠ .addOrderBook exchangeId tradingPair)).isEmpty := by
    rw [List.isEmpty_iff, List.dropWhile_eq_nil_iff]
    intro event hmem
    simp only [decide_eq_true_eq]
    rintro rfl
    exact h hmem
  rw [history, List.dropWhile_append, if_pos hclosed]
  simp [Event.messageFor, Event.market]

/-- An event that neither registers the book nor is for it. -/
theorem bookOf_concat_of_other {events : List Event} {event : Event}
    (hadd : event ≠ .addOrderBook exchangeId tradingPair)
    (hmessage : event.messageFor exchangeId tradingPair = none) :
    bookOf containers exchangeId tradingPair (events ++ [event]) =
      bookOf containers exchangeId tradingPair events := by
  by_cases hmem : .addOrderBook exchangeId tradingPair ∈ events
  · rw [bookOf, bookOf, if_pos hmem, if_pos (by simp [hmem]), history_concat_of_mem hmem, hmessage]
    simp
  · rw [bookOf, bookOf, if_neg hmem, if_neg (by simp [hmem, hadd.symm])]

theorem bookOf_concat_of_add (events : List Event) :
    bookOf containers exchangeId tradingPair
        (events ++ [Event.addOrderBook exchangeId tradingPair]) =
      some ((bookOf containers exchangeId tradingPair events).getD
        ⟨.new containers, [(exchangeId, tradingPair)]⟩) := by
  by_cases hmem : .addOrderBook exchangeId tradingPair ∈ events
  · simp [bookOf, hmem, history_concat_of_mem, Event.messageFor, Event.market]
  · simp [bookOf, hmem, history_concat_of_notMem hmem]
    rfl

theorem bookOf_concat_of_message (events : List Event) {event : Event} {message : BookMessage}
    (h : event.market = some (exchangeId, tradingPair, message)) :
    bookOf containers exchangeId tradingPair (events ++ [event]) =
      (bookOf containers exchangeId tradingPair events).map fun orderBook =>
        { orderBook with
          book := ((MarketOrderBook2.machine containers).step orderBook.book message).1 } := by
  have hmessage : event.messageFor exchangeId tradingPair = some message := by
    simp [Event.messageFor, h]
  have hadd : event ≠ .addOrderBook exchangeId tradingPair := by
    rintro rfl
    cases h
  by_cases hmem : .addOrderBook exchangeId tradingPair ∈ events
  · simp [bookOf, hmem, history_concat_of_mem, hmessage, Machine.run_concat]
  · simp [bookOf, hmem, hadd.symm]

/-- One event moves every book as its history does. -/
theorem Routes.find_step {event : Event} (hroutes : component.Routes event) {events : List Event}
    (h : ∀ exchangeId tradingPair, component.find exchangeId tradingPair =
      bookOf containers exchangeId tradingPair events)
    (exchangeId : ExchangeId) (tradingPair : TradingPair) :
    (component.step event).1.find exchangeId tradingPair =
      bookOf containers exchangeId tradingPair (events ++ [event]) := by
  cases hmarket : event.market with
  | none =>
      by_cases hadd : ∃ other otherPair, event = .addOrderBook other otherPair
      · obtain ⟨other, otherPair, rfl⟩ := hadd
        obtain ⟨-, hkept, hnew, hothers⟩ := hroutes.added other otherPair rfl
        by_cases hkey : (exchangeId, tradingPair) = (other, otherPair)
        · cases hkey
          rw [bookOf_concat_of_add, ← h]
          cases hfind : component.find exchangeId tradingPair with
          | none => rw [hnew hfind, Option.getD_none]
          | some orderBook => rw [hkept (by simp [hfind]), hfind, Option.getD_some]
        · rw [hothers _ _ hkey, h, bookOf_concat_of_other]
          · rintro heq
            cases heq
            exact hkey rfl
          · simp [Event.messageFor, hmarket]
      · push Not at hadd
        rw [hroutes.null hmarket hadd, h, bookOf_concat_of_other (hadd _ _)]
        simp [Event.messageFor, hmarket]
  | some target =>
      obtain ⟨other, otherPair, message⟩ := target
      by_cases hkey : (exchangeId, tradingPair) = (other, otherPair)
      · cases hkey
        rw [bookOf_concat_of_message events hmarket, ← h]
        cases hfind : component.find exchangeId tradingPair with
        | none => rw [hroutes.unregistered _ _ _ hmarket hfind, hfind, Option.map_none]
        | some orderBook => rw [(hroutes.routed _ _ _ _ hmarket hfind).1, Option.map_some]
      · have hsame : bookOf containers exchangeId tradingPair (events ++ [event]) =
            bookOf containers exchangeId tradingPair events := by
          apply bookOf_concat_of_other
          · rintro rfl
            cases hmarket
          · simpa [Event.messageFor, hmarket] using fun hexchange hpair =>
              hkey (by rw [hexchange, hpair])
        rw [hsame, ← h]
        cases hfind : component.find other otherPair with
        | none => rw [hroutes.unregistered _ _ _ hmarket hfind]
        | some orderBook => exact (hroutes.routed _ _ _ _ hmarket hfind).2.1 _ _ hkey

/-- The books of a run carry their own labels. -/
theorem labelled_of_find {events : List Event}
    (h : ∀ exchangeId tradingPair, component.find exchangeId tradingPair =
      bookOf containers exchangeId tradingPair events) : component.Labelled := by
  intro exchangeId tradingPair orderBook hfind
  rw [h, bookOf] at hfind
  split at hfind <;> cases hfind
  rfl

theorem find_run (marketType : MarketType) (events : List Event) (exchangeId : ExchangeId)
    (tradingPair : TradingPair) :
    ((machine containers marketType).run events).find exchangeId tradingPair =
      bookOf containers exchangeId tradingPair events := by
  induction events using List.reverseRecOn generalizing exchangeId tradingPair with
  | nil => simp [bookOf, Machine.run, Machine.runFrom, machine, find]
  | append_singleton events event ih =>
      rw [Machine.run_concat]
      exact ((labelled_of_find ih).routes event).find_step ih exchangeId tradingPair

/-- The routing law.  After every run each book is where the messages for it have
taken it since it was registered, with one subscriber, and every event of the run
is routed. -/
theorem routing (containers : Containers) (marketType : MarketType) (events : List Event) :
    (∀ exchangeId tradingPair,
        ((machine containers marketType).run events).find exchangeId tradingPair =
          bookOf containers exchangeId tradingPair events) ∧
      EveryStep (fun before event =>
        ((machine containers marketType).run before).Routes event) events := by
  refine ⟨find_run marketType events, ?_⟩
  intro before event after _
  exact (labelled_of_find (find_run marketType before)).routes event

end OrderBookComponent

end CryptoBot.Book

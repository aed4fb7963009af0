/-
# Tracking a trading pair

A generator synchronises whatever diffs it is sent, but it asks for nothing by
itself: `HandleTrackingNewTradingPair` stores a tracking request in `request_bbo_`
and subscribes to the diffs of its pair, and the coroutines that the diff handler
spawns look the pair up there before they send anything.  `HandleCancellation`
clears both maps, on whatever thread stops the component, and leaves the spawned
coroutines alone: they run later, against the maps of that time.

A run is one order in which the strand serves the handlers and the coroutines, with
cancellations anywhere.  Between two cancellations the component is a fresh
generator, and every request it sends carries the parameters of the first tracking
request for its pair since the last cancellation.
-/

import CryptoBot.Math.Epochs
import CryptoBot.MarketData.BybitMessages
import CryptoBot.Sync.Binance
import CryptoBot.Sync.Bybit

namespace CryptoBot.Sync

open CryptoBot.Common CryptoBot.MarketData CryptoBot.Math
open CryptoBot.MarketData.Bybit (RequestId)

abbrev FrequencyMS := UInt64

def kFrequencyMSInvalid : FrequencyMS := 0xFFFFFFFFFFFFFFFF

structure BusEventRequestBBOPrice where
  exchangeId : ExchangeId := .kInvalid
  tradingPair : TradingPair := {}
  snapshotDepth : UInt32 := 1000
  subscribe : Bool := true
  id : RequestId := .text ""
  deriving DecidableEq, Repr

structure RequestSnapshot where
  exchangeId : ExchangeId
  tradingPair : TradingPair
  depth : UInt32
  deriving DecidableEq, Repr

structure RequestDiffOrderBook where
  exchangeId : ExchangeId
  tradingPair : TradingPair
  frequency : FrequencyMS
  subscribe : Bool
  id : RequestId
  deriving DecidableEq, Repr

/-- The two generators. -/
inductive Venue
  | binance (policy : Binance.PolicyPacketLoss)
  | bybit
  deriving DecidableEq, Repr

def Venue.generator : Venue → Generator
  | .binance policy => Binance.generator policy
  | .bybit => Bybit.generator

/-- A coroutine that a diff handler spawned on the strand. -/
inductive Coroutine
  | requestNewSnapshot (tradingPair : TradingPair)
  | requestSubscribeToDiff (subscribe : Bool) (tradingPair : TradingPair)
  deriving DecidableEq, Repr

def Coroutine.tradingPair : Coroutine → TradingPair
  | .requestNewSnapshot tradingPair => tradingPair
  | .requestSubscribeToDiff _ tradingPair => tradingPair

/-- What leaves the component: calls of the two callbacks, and requests that are
sent to the bus. -/
inductive Output
  | snapshotCallback (snapshot : BookSnapshot)
  | diffCallback (diff : BookDiffSnapshot2)
  | requestNewSnapshot (request : RequestSnapshot)
  | requestDiffOrderBook (request : RequestDiffOrderBook)
  deriving DecidableEq, Repr

namespace Action

/-- The callbacks run while the diff is handled. -/
def callback : Action → Option Output
  | .snapshotCallback snapshot => some (.snapshotCallback snapshot)
  | .diffCallback diff => some (.diffCallback diff)
  | .requestNewSnapshot _ | .requestSubscribeToDiff _ _ => none

/-- The requests are spawned. -/
def coroutine : Action → Option Coroutine
  | .snapshotCallback _ | .diffCallback _ => none
  | .requestNewSnapshot tradingPair => some (.requestNewSnapshot tradingPair)
  | .requestSubscribeToDiff subscribe tradingPair =>
      some (.requestSubscribeToDiff subscribe tradingPair)

end Action

structure BidAskGeneratorComponent where
  stateMap : TradingPair → BidAskState := fun _ => {}
  requestBbo : TradingPair → Option BusEventRequestBBOPrice := fun _ => none
  /-- The coroutines that wait for the strand. -/
  spawned : List Coroutine := []

/-- What the strand serves next, or a cancellation. -/
inductive Task
  | requestBBOPrice (request : BusEventRequestBBOPrice)
  | market (event : Event)
  | resume
  | cancel
  deriving DecidableEq, Repr

namespace BidAskGeneratorComponent

variable (venue : Venue) (component : BidAskGeneratorComponent)

/-- Only the generator of Binance has this coroutine. -/
def requestNewSnapshot (tradingPair : TradingPair) : List Output :=
  match component.requestBbo tradingPair with
  | none => []
  | some info => [.requestNewSnapshot ⟨info.exchangeId, info.tradingPair, info.snapshotDepth⟩]

/-- Binance sends no frequency.  Bybit sends the depth of the snapshot in its place. -/
def frequency (info : BusEventRequestBBOPrice) : FrequencyMS :=
  match venue with
  | .binance _ => kFrequencyMSInvalid
  | .bybit => info.snapshotDepth.toUInt64

def requestSubscribeToDiff (subscribe : Bool) (tradingPair : TradingPair) : List Output :=
  match component.requestBbo tradingPair with
  | none => []
  | some info =>
      [.requestDiffOrderBook
        ⟨info.exchangeId, info.tradingPair, frequency venue info, subscribe, info.id⟩]

def resume : Coroutine → List Output
  | .requestNewSnapshot tradingPair => component.requestNewSnapshot tradingPair
  | .requestSubscribeToDiff subscribe tradingPair =>
      component.requestSubscribeToDiff venue subscribe tradingPair

/-- `request_bbo_[trading_pair] = event`. -/
def track (request : BusEventRequestBBOPrice) : BidAskGeneratorComponent :=
  { component with
    requestBbo := Function.update component.requestBbo request.tradingPair (some request) }

/-- Binance ignores a pair that is tracked.  Bybit keeps the request it has, but
subscribes or unsubscribes again as the new request says. -/
def handleTrackingNewTradingPair (request : BusEventRequestBBOPrice) :
    BidAskGeneratorComponent × List Output :=
  match venue with
  | .binance _ =>
      if (component.requestBbo request.tradingPair).isSome then (component, [])
      else
        let component := component.track request
        (component, component.requestSubscribeToDiff venue true request.tradingPair)
  | .bybit =>
      let component :=
        if (component.requestBbo request.tradingPair).isSome then component
        else component.track request
      (component, component.requestSubscribeToDiff venue request.subscribe request.tradingPair)

def handleCancellation : BidAskGeneratorComponent :=
  { component with stateMap := fun _ => {}, requestBbo := fun _ => none }

def step : Task → BidAskGeneratorComponent × List Output
  | .requestBBOPrice request => component.handleTrackingNewTradingPair venue request
  | .market event =>
      let outcome := venue.generator.handle .registered component.stateMap event
      ({ component with
          stateMap := outcome.1
          spawned := component.spawned ++ outcome.2.filterMap Action.coroutine },
        outcome.2.filterMap Action.callback)
  | .resume =>
      match component.spawned with
      | [] => (component, [])
      | coroutine :: rest =>
          ({ component with spawned := rest }, component.resume venue coroutine)
  | .cancel => (component.handleCancellation, [])

/-- The component with both callbacks registered. -/
def machine : Machine BidAskGeneratorComponent Task Output := ⟨{}, step venue⟩

end BidAskGeneratorComponent

namespace Task

def isCancel : Task → Bool
  | .cancel => true
  | _ => false

/-- The event a generator handles. -/
def event : Task → Option Event
  | .market event => some event
  | _ => none

/-- The tracking request of the pair. -/
def tracking (tradingPair : TradingPair) : Task → Option BusEventRequestBBOPrice
  | .requestBBOPrice request => if request.tradingPair = tradingPair then some request else none
  | _ => none

theorem tracking_self (request : BusEventRequestBBOPrice) :
    (Task.requestBBOPrice request).tracking request.tradingPair = some request := by
  simp [tracking]

end Task

namespace Output

def isCallback : Output → Bool
  | .snapshotCallback _ | .diffCallback _ => true
  | .requestNewSnapshot _ | .requestDiffOrderBook _ => false

/-- The pair of a request. -/
def requested : Output → Option TradingPair
  | .snapshotCallback _ | .diffCallback _ => none
  | .requestNewSnapshot request => some request.tradingPair
  | .requestDiffOrderBook request => some request.tradingPair

end Output

namespace BidAskGeneratorComponent

variable (venue : Venue)

/-- What happened since the last cancellation. -/
abbrev sinceCancel (tasks : List Task) : List (Task × List Output) :=
  (machine venue).epoch Task.isCancel tasks

/-- The events among the tasks of a trace. -/
def eventsOf (trace : List (Task × List Output)) : List Event :=
  trace.filterMap fun step => step.1.event

/-- The first request in a trace that tracks the pair. -/
def firstTracking (trace : List (Task × List Output)) (tradingPair : TradingPair) :
    Option BusEventRequestBBOPrice :=
  trace.findSome? fun step => step.1.tracking tradingPair

def callbacksOf (trace : List (Task × List Output)) : List Output :=
  (trace.flatMap Prod.snd).filter Output.isCallback

/-- The requests of a trace for a pair. -/
def requestsOf (trace : List (Task × List Output)) (tradingPair : TradingPair) : List Output :=
  (trace.flatMap Prod.snd).filter fun output => output.requested = some tradingPair

end BidAskGeneratorComponent

/-- The request that a coroutine sends for the tracking request of its pair. -/
def Coroutine.request (venue : Venue) (coroutine : Coroutine) (info : BusEventRequestBBOPrice) :
    Output :=
  match coroutine with
  | .requestNewSnapshot _ =>
      .requestNewSnapshot ⟨info.exchangeId, info.tradingPair, info.snapshotDepth⟩
  | .requestSubscribeToDiff subscribe _ =>
      .requestDiffOrderBook ⟨info.exchangeId, info.tradingPair,
        BidAskGeneratorComponent.frequency venue info, subscribe, info.id⟩

theorem Coroutine.isCallback_request (venue : Venue) (coroutine : Coroutine)
    (info : BusEventRequestBBOPrice) : (coroutine.request venue info).isCallback = false := by
  cases coroutine <;> rfl

theorem Coroutine.requested_request (venue : Venue) (coroutine : Coroutine)
    (info : BusEventRequestBBOPrice) :
    (coroutine.request venue info).requested = some info.tradingPair := by
  cases coroutine <;> rfl

namespace BidAskGeneratorComponent

variable (venue : Venue)

/-! ## One epoch -/

section Trace

variable (trace : List (Task × List Output)) (task : Task) (outputs : List Output)

theorem eventsOf_concat :
    eventsOf (trace ++ [(task, outputs)]) = eventsOf trace ++ task.event.toList := by
  cases hevent : task.event <;> simp [eventsOf, hevent]

theorem firstTracking_concat (tradingPair : TradingPair) :
    firstTracking (trace ++ [(task, outputs)]) tradingPair =
      (firstTracking trace tradingPair).or (task.tracking tradingPair) := by
  simp [firstTracking, List.findSome?_append]

theorem callbacksOf_concat :
    callbacksOf (trace ++ [(task, outputs)]) =
      callbacksOf trace ++ outputs.filter Output.isCallback := by
  simp [callbacksOf]

theorem requestsOf_concat (tradingPair : TradingPair) :
    requestsOf (trace ++ [(task, outputs)]) tradingPair =
      requestsOf trace tradingPair ++
        outputs.filter fun output => output.requested = some tradingPair := by
  simp [requestsOf]

end Trace

/-- The component is a fresh generator that has handled the events of the trace, and
it tracks each pair with the first request of the trace. -/
structure Restarted (component : BidAskGeneratorComponent) (trace : List (Task × List Output)) :
    Prop where
  stateMap : component.stateMap = venue.generator.machine.run (eventsOf trace)
  requestBbo : component.requestBbo = firstTracking trace
  callbacks : callbacksOf trace =
    (venue.generator.machine.outputs (eventsOf trace)).filterMap Action.callback

section Step

variable {venue} {component : BidAskGeneratorComponent}

theorem stateMap_handleTracking (request : BusEventRequestBBOPrice) :
    (component.handleTrackingNewTradingPair venue request).1.stateMap = component.stateMap := by
  cases venue <;> simp only [handleTrackingNewTradingPair] <;> split <;> rfl

theorem spawned_handleTracking (request : BusEventRequestBBOPrice) :
    (component.handleTrackingNewTradingPair venue request).1.spawned = component.spawned := by
  cases venue <;> simp only [handleTrackingNewTradingPair] <;> split <;> rfl

/-- Either generator keeps the request it has. -/
theorem requestBbo_handleTracking (request : BusEventRequestBBOPrice) (tradingPair : TradingPair) :
    (component.handleTrackingNewTradingPair venue request).1.requestBbo tradingPair =
      (component.requestBbo tradingPair).or
        ((Task.requestBBOPrice request).tracking tradingPair) := by
  have hkept (hsome : (component.requestBbo request.tradingPair).isSome = true) :
      component.requestBbo tradingPair = (component.requestBbo tradingPair).or
        ((Task.requestBBOPrice request).tracking tradingPair) := by
    by_cases hpair : request.tradingPair = tradingPair
    · subst hpair
      exact (Option.or_of_isSome hsome).symm
    · simp [Task.tracking, hpair]
  have hnew (hnone : ¬ (component.requestBbo request.tradingPair).isSome = true) :
      (component.track request).requestBbo tradingPair = (component.requestBbo tradingPair).or
        ((Task.requestBBOPrice request).tracking tradingPair) := by
    by_cases hpair : request.tradingPair = tradingPair
    · subst hpair
      simp [Task.tracking, track, Option.not_isSome_iff_eq_none.mp hnone]
    · simp [Task.tracking, track, hpair, Function.update_of_ne (Ne.symm hpair)]
  cases venue with
  | binance policy =>
      simp only [handleTrackingNewTradingPair]
      split
      · next hsome => exact hkept hsome
      · next hnone => exact hnew hnone
  | bybit =>
      simp only [handleTrackingNewTradingPair]
      split
      · next hsome => exact hkept hsome
      · next hnone => exact hnew hnone

theorem resume_eq (coroutine : Coroutine) :
    component.resume venue coroutine =
      (component.requestBbo coroutine.tradingPair).toList.map (coroutine.request venue) := by
  cases coroutine with
  | requestNewSnapshot tradingPair =>
      cases hinfo : component.requestBbo tradingPair <;>
        simp [resume, requestNewSnapshot, Coroutine.tradingPair, Coroutine.request, hinfo]
  | requestSubscribeToDiff subscribe tradingPair =>
      cases hinfo : component.requestBbo tradingPair <;>
        simp [resume, requestSubscribeToDiff, Coroutine.tradingPair, Coroutine.request, hinfo]

theorem callbacks_map_request (coroutine : Coroutine) (infos : List BusEventRequestBBOPrice) :
    (infos.map (coroutine.request venue)).filter Output.isCallback = [] := by
  simp [List.filter_map, Function.comp_def, coroutine.isCallback_request venue]

/-- A tracking request that Binance takes. -/
theorem outputs_handleTracking_binance {policy : Binance.PolicyPacketLoss}
    (request : BusEventRequestBBOPrice) :
    (component.handleTrackingNewTradingPair (.binance policy) request).2 =
      if (component.requestBbo request.tradingPair).isSome then []
      else [(Coroutine.requestSubscribeToDiff true request.tradingPair).request (.binance policy)
        request] := by
  simp only [handleTrackingNewTradingPair]
  split
  · rfl
  · simp [requestSubscribeToDiff, track, Coroutine.request]

/-- Bybit answers every tracking request, with the parameters of the first one. -/
theorem outputs_handleTracking_bybit (request : BusEventRequestBBOPrice) :
    (component.handleTrackingNewTradingPair .bybit request).2 =
      [(Coroutine.requestSubscribeToDiff request.subscribe request.tradingPair).request .bybit
        ((component.requestBbo request.tradingPair).getD request)] := by
  simp only [handleTrackingNewTradingPair]
  cases hinfo : component.requestBbo request.tradingPair with
  | none => simp [requestSubscribeToDiff, track, Coroutine.request]
  | some info => simp [requestSubscribeToDiff, hinfo, Coroutine.request]

theorem callbacks_handleTracking (request : BusEventRequestBBOPrice) :
    (component.handleTrackingNewTradingPair venue request).2.filter Output.isCallback = [] := by
  cases venue with
  | binance policy =>
      rw [outputs_handleTracking_binance]
      split
      · rfl
      · exact callbacks_map_request _ [request]
  | bybit =>
      rw [outputs_handleTracking_bybit]
      exact callbacks_map_request _ [_]

theorem callbacks_filterMap (actions : List Action) :
    (actions.filterMap Action.callback).filter Output.isCallback =
      actions.filterMap Action.callback := by
  apply List.filter_eq_self.mpr
  intro output hmem
  obtain ⟨action, -, haction⟩ := List.mem_filterMap.mp hmem
  cases action <;> cases haction <;> rfl

end Step

namespace Restarted

variable {venue} {component : BidAskGeneratorComponent} {trace : List (Task × List Output)}

theorem init : Restarted venue {} [] := ⟨rfl, rfl, rfl⟩

theorem requestBBOPrice (h : Restarted venue component trace) (request : BusEventRequestBBOPrice) :
    Restarted venue (component.step venue (.requestBBOPrice request)).1
      (trace ++ [(.requestBBOPrice request,
        (component.step venue (.requestBBOPrice request)).2)]) := by
  have hevents (outputs : List Output) :
      eventsOf (trace ++ [(.requestBBOPrice request, outputs)]) = eventsOf trace := by
    simp [eventsOf_concat, Task.event]
  constructor
  · rw [hevents, ← h.stateMap]
    exact stateMap_handleTracking request
  · funext tradingPair
    rw [firstTracking_concat, ← h.requestBbo]
    exact requestBbo_handleTracking request tradingPair
  · rw [hevents, ← h.callbacks, callbacksOf_concat]
    simp only [step, callbacks_handleTracking, List.append_nil]

theorem market (h : Restarted venue component trace) (event : Event) :
    Restarted venue (component.step venue (.market event)).1
      (trace ++ [(.market event, (component.step venue (.market event)).2)]) := by
  have hevents (outputs : List Output) :
      eventsOf (trace ++ [(.market event, outputs)]) = eventsOf trace ++ [event] := by
    simp [eventsOf_concat, Task.event]
  constructor
  · rw [hevents, Machine.run_concat, ← h.stateMap]
    rfl
  · funext tradingPair
    rw [firstTracking_concat, ← h.requestBbo]
    simp [step, Task.tracking]
  · rw [hevents, Machine.outputs_concat, List.filterMap_append, ← h.callbacks, callbacksOf_concat,
      Machine.emitted, ← h.stateMap]
    simp only [step, callbacks_filterMap]
    rfl

theorem resume (h : Restarted venue component trace) :
    Restarted venue (component.step venue .resume).1
      (trace ++ [(.resume, (component.step venue .resume).2)]) := by
  have hstep : (component.step venue .resume).1.stateMap = component.stateMap ∧
      (component.step venue .resume).1.requestBbo = component.requestBbo ∧
      (component.step venue .resume).2.filter Output.isCallback = [] := by
    simp only [step]
    cases component.spawned with
    | nil => exact ⟨rfl, rfl, rfl⟩
    | cons coroutine rest =>
        refine ⟨rfl, rfl, ?_⟩
        change (component.resume venue coroutine).filter Output.isCallback = []
        rw [resume_eq]
        exact callbacks_map_request _ _
  have hevents (outputs : List Output) :
      eventsOf (trace ++ [(.resume, outputs)]) = eventsOf trace := by
    simp [eventsOf_concat, Task.event]
  constructor
  · rw [hevents, hstep.1, h.stateMap]
  · funext tradingPair
    rw [hstep.2.1, firstTracking_concat, ← h.requestBbo]
    simp [Task.tracking]
  · rw [hevents, ← h.callbacks, callbacksOf_concat, hstep.2.2, List.append_nil]

theorem step (h : Restarted venue component trace) (task : Task) (htask : task.isCancel = false) :
    Restarted venue (component.step venue task).1
      (trace ++ [(task, (component.step venue task).2)]) := by
  cases task with
  | requestBBOPrice request => exact h.requestBBOPrice request
  | market event => exact h.market event
  | resume => exact h.resume
  | cancel => simp [Task.isCancel] at htask

theorem cancel : Restarted venue (component.step venue .cancel).1 [] := ⟨rfl, rfl, rfl⟩

theorem of_isCancel {task : Task} (htask : task.isCancel = true) :
    Restarted venue (component.step venue task).1 [] := by
  cases task with
  | cancel => exact cancel
  | requestBBOPrice | market | resume => simp [Task.isCancel] at htask

end Restarted

/-- However the handlers, the coroutines and the cancellations interleave, the states of
all pairs and the callbacks since the last cancellation are those of a generator that
has just been started and has handled the events since then, and a pair is tracked with
the first request for it since then. -/
theorem restarted_run (tasks : List Task) :
    Restarted venue ((machine venue).run tasks) (sinceCancel venue tasks) := by
  apply (machine venue).epoch_invariant Task.isCancel (fun _ => True) (Restarted venue)
  · exact Restarted.init
  · intro component trace task _ htask
    exact Restarted.of_isCancel htask
  · intro component trace task hrestarted _ htask
    exact hrestarted.step task htask
  · exact fun _ _ => trivial

/-! ## The requests of Binance -/

section Requests

variable {venue} {tradingPair : TradingPair}

theorem tradingPair_of_firstTracking {trace : List (Task × List Output)}
    {info : BusEventRequestBBOPrice} (h : firstTracking trace tradingPair = some info) :
    info.tradingPair = tradingPair := by
  obtain ⟨step, -, hstep⟩ := List.exists_of_findSome?_eq_some h
  cases htask : step.1 with
  | requestBBOPrice request =>
      rw [htask, Task.tracking] at hstep
      split at hstep
      · next hpair =>
          cases hstep
          exact hpair
      · cases hstep
  | market | resume | cancel => simp [htask, Task.tracking] at hstep

theorem requests_callbacks (actions : List Action) :
    (actions.filterMap Action.callback).filter
      (fun output => output.requested = some tradingPair) = [] := by
  apply List.filter_eq_nil_iff.mpr
  intro output hmem
  obtain ⟨action, -, haction⟩ := List.mem_filterMap.mp hmem
  cases action <;> cases haction <;> simp [Output.requested]

/-- Where pairs are tracked as in a trace, a coroutine sends its request for its own
pair and nothing for another. -/
theorem requests_resume {component : BidAskGeneratorComponent} {trace : List (Task × List Output)}
    (h : Restarted venue component trace) (coroutine : Coroutine) (tradingPair : TradingPair) :
    (component.resume venue coroutine).filter (fun output => output.requested = some tradingPair) =
      if coroutine.tradingPair = tradingPair then
        (firstTracking trace tradingPair).toList.map (coroutine.request venue)
      else [] := by
  rw [resume_eq, h.requestBbo]
  cases hinfo : firstTracking trace coroutine.tradingPair with
  | none =>
      split
      · next hpair => simp [← hpair, hinfo]
      · rfl
  | some info =>
      have hpair := tradingPair_of_firstTracking hinfo
      by_cases hown : coroutine.tradingPair = tradingPair
      · subst hown
        simp [hinfo, coroutine.requested_request, hpair]
      · simp [hown, coroutine.requested_request, hpair]

end Requests

section Binance

variable {policy : Binance.PolicyPacketLoss}

theorem coroutine_binance {stateMap : TradingPair → BidAskState} {event : Event}
    {coroutine : Coroutine}
    (h : coroutine ∈ ((Binance.generator policy).handle .registered stateMap event).2.filterMap
      Action.coroutine) :
    ∃ tradingPair, coroutine = .requestNewSnapshot tradingPair := by
  obtain ⟨action, hmem, haction⟩ := List.mem_filterMap.mp h
  by_cases hvenue : event.exchangeId = (Binance.generator policy).exchangeId
  · rw [Generator.handle_of_accepted _ _ hvenue] at hmem
    cases event with
    | responseNewSnapshot snapshot => cases hmem
    | bookDiffSnapshot diff =>
        change action ∈ (Binance.handleBookDiffSnapshotEvent policy .registered
          (stateMap diff.tradingPair) diff).2 at hmem
        generalize hresult : Binance.handleBookDiffSnapshotEvent policy .registered
          (stateMap diff.tradingPair) diff = result at hmem
        cases Binance.diffOutcome_of_eq hresult with
        | outdated | silent => cases hmem
        | requested =>
            cases List.mem_singleton.mp hmem
            exact ⟨diff.tradingPair, (Option.some.inj haction).symm⟩
        | resynchronised =>
            rcases List.mem_pair.mp hmem with rfl | rfl <;> cases haction
        | continued =>
            cases List.mem_singleton.mp hmem
            cases haction
  · rw [Generator.handle_of_dropped _ _ hvenue] at hmem
    cases hmem

/-- A pair that is tracked was subscribed to once, with its first tracking request, and
after that only snapshots were requested for it.  For another pair nothing was sent. -/
def SubscribedOnce (policy : Binance.PolicyPacketLoss) (trace : List (Task × List Output))
    (tradingPair : TradingPair) : Prop :=
  match firstTracking trace tradingPair with
  | none => requestsOf trace tradingPair = []
  | some info => ∃ count, requestsOf trace tradingPair =
      (Coroutine.requestSubscribeToDiff true tradingPair).request (.binance policy) info ::
        List.replicate count
          ((Coroutine.requestNewSnapshot tradingPair).request (.binance policy) info)

theorem SubscribedOnce.congr {trace next : List (Task × List Output)} {tradingPair : TradingPair}
    (h : SubscribedOnce policy trace tradingPair)
    (hfirst : firstTracking next tradingPair = firstTracking trace tradingPair)
    (hrequests : requestsOf next tradingPair = requestsOf trace tradingPair) :
    SubscribedOnce policy next tradingPair := by
  rwa [SubscribedOnce, hfirst, hrequests]

/-- One more snapshot request for a pair, as far as it is tracked. -/
theorem SubscribedOnce.snapshot {trace next : List (Task × List Output)}
    {tradingPair : TradingPair} (h : SubscribedOnce policy trace tradingPair)
    (hfirst : firstTracking next tradingPair = firstTracking trace tradingPair)
    (hrequests : requestsOf next tradingPair = requestsOf trace tradingPair ++
      (firstTracking trace tradingPair).toList.map
        ((Coroutine.requestNewSnapshot tradingPair).request (.binance policy))) :
    SubscribedOnce policy next tradingPair := by
  rw [SubscribedOnce] at h ⊢
  rw [hfirst, hrequests]
  cases hinfo : firstTracking trace tradingPair with
  | none => simpa [hinfo] using h
  | some info =>
      rw [hinfo] at h
      obtain ⟨count, hcount⟩ := h
      refine ⟨count + 1, ?_⟩
      rw [hcount, List.replicate_succ']
      rfl

structure BinanceRequests (policy : Binance.PolicyPacketLoss)
    (component : BidAskGeneratorComponent) (trace : List (Task × List Output)) : Prop
    extends Restarted (.binance policy) component trace where
  spawned : ∀ coroutine ∈ component.spawned, ∃ tradingPair,
    coroutine = .requestNewSnapshot tradingPair
  requests : ∀ tradingPair, SubscribedOnce policy trace tradingPair

namespace BinanceRequests

variable {component : BidAskGeneratorComponent} {trace : List (Task × List Output)}

theorem requestBBOPrice (h : BinanceRequests policy component trace)
    (request : BusEventRequestBBOPrice) :
    ∀ tradingPair, SubscribedOnce policy
      (trace ++ [(.requestBBOPrice request,
        (component.step (.binance policy) (.requestBBOPrice request)).2)]) tradingPair := by
  intro tradingPair
  have hbefore := h.requests tradingPair
  have houtputs : (component.step (.binance policy) (.requestBBOPrice request)).2 =
      if (firstTracking trace request.tradingPair).isSome then []
      else [(Coroutine.requestSubscribeToDiff true request.tradingPair).request (.binance policy)
        request] := by
    rw [← h.requestBbo]
    exact outputs_handleTracking_binance request
  by_cases hpair : request.tradingPair = tradingPair
  · subst hpair
    cases hinfo : firstTracking trace request.tradingPair with
    | some info =>
        apply hbefore.congr
        · rw [firstTracking_concat, hinfo, Option.some_or]
        · rw [requestsOf_concat, houtputs, hinfo]
          simp
    | none =>
        rw [SubscribedOnce, hinfo] at hbefore
        rw [SubscribedOnce, firstTracking_concat, hinfo, Option.none_or, Task.tracking_self,
          requestsOf_concat, hbefore, houtputs, hinfo]
        refine ⟨0, ?_⟩
        simp [Coroutine.requested_request]
  · apply hbefore.congr
    · rw [firstTracking_concat]
      simp [Task.tracking, hpair]
    · rw [requestsOf_concat, houtputs]
      split <;> simp [Coroutine.requested_request, hpair]

theorem resume (h : BinanceRequests policy component trace) :
    ∀ tradingPair, SubscribedOnce policy
      (trace ++ [(.resume, (component.step (.binance policy) .resume).2)]) tradingPair := by
  intro tradingPair
  have hbefore := h.requests tradingPair
  have hfirst (outputs : List Output) :
      firstTracking (trace ++ [(.resume, outputs)]) tradingPair =
        firstTracking trace tradingPair := by
    simp [firstTracking_concat, Task.tracking]
  cases hspawned : component.spawned with
  | nil =>
      apply hbefore.congr (hfirst _)
      simp [requestsOf_concat, BidAskGeneratorComponent.step, hspawned]
  | cons coroutine rest =>
      obtain ⟨own, rfl⟩ := h.spawned coroutine (by simp [hspawned])
      have hrequests := requests_resume h.toRestarted (.requestNewSnapshot own) tradingPair
      by_cases hpair : own = tradingPair
      · subst hpair
        apply hbefore.snapshot (hfirst _)
        rw [requestsOf_concat]
        simp [BidAskGeneratorComponent.step, hspawned, hrequests, Coroutine.tradingPair]
      · apply hbefore.congr (hfirst _)
        rw [requestsOf_concat]
        simp [BidAskGeneratorComponent.step, hspawned, hrequests, Coroutine.tradingPair, hpair]

theorem step (h : BinanceRequests policy component trace) (task : Task)
    (htask : task.isCancel = false) :
    BinanceRequests policy (component.step (.binance policy) task).1
      (trace ++ [(task, (component.step (.binance policy) task).2)]) := by
  refine ⟨h.toRestarted.step task htask, ?_, ?_⟩
  · cases task with
    | requestBBOPrice request =>
        rw [show (component.step (.binance policy) (.requestBBOPrice request)).1.spawned =
          component.spawned from spawned_handleTracking request]
        exact h.spawned
    | market event =>
        intro coroutine hmem
        rcases List.mem_append.mp hmem with hold | hnew
        · exact h.spawned coroutine hold
        · exact coroutine_binance hnew
    | resume =>
        intro coroutine hmem
        apply h.spawned
        simp only [BidAskGeneratorComponent.step] at hmem
        cases hspawned : component.spawned with
        | nil => simp [hspawned] at hmem
        | cons first rest => exact List.mem_cons_of_mem _ (by simpa [hspawned] using hmem)
    | cancel => simp [Task.isCancel] at htask
  · cases task with
    | requestBBOPrice request => exact h.requestBBOPrice request
    | market event =>
        intro tradingPair
        apply (h.requests tradingPair).congr
        · simp [firstTracking_concat, Task.tracking]
        · rw [requestsOf_concat]
          simp only [BidAskGeneratorComponent.step, requests_callbacks, List.append_nil]
    | resume => exact h.resume
    | cancel => simp [Task.isCancel] at htask

end BinanceRequests

/-- In every run, whatever the diffs are and however often a pair is asked for, Binance
is subscribed to a pair at most once between two cancellations and never unsubscribed,
no request goes out for a pair before its subscription, and all requests for a pair
carry the parameters of the first tracking request. -/
theorem binance_subscribedOnce (policy : Binance.PolicyPacketLoss) (tasks : List Task)
    (tradingPair : TradingPair) :
    SubscribedOnce policy (sinceCancel (.binance policy) tasks) tradingPair := by
  suffices hrequests : BinanceRequests policy ((machine (.binance policy)).run tasks)
      (sinceCancel (.binance policy) tasks) from hrequests.requests tradingPair
  apply (machine (.binance policy)).epoch_invariant Task.isCancel (fun _ => True)
    (BinanceRequests policy)
  · exact ⟨Restarted.init, by simp [machine], fun _ => rfl⟩
  · intro component trace task hrequests htask
    cases task with
    | cancel => exact ⟨Restarted.cancel, hrequests.spawned, fun _ => rfl⟩
    | requestBBOPrice | market | resume => simp [Task.isCancel] at htask
  · intro component trace task hrequests _ htask
    exact hrequests.step task htask
  · exact fun _ _ => trivial

end Binance

/-! ## The subscriptions of Bybit -/

section Bybit

variable {component : BidAskGeneratorComponent} {trace : List (Task × List Output)}

/-- Any number of unsubscriptions, each with the subscription after it. -/
inductive Resubscriptions : List Bool → Prop
  | nil : Resubscriptions []
  | cons {flags : List Bool} (h : Resubscriptions flags) : Resubscriptions (false :: true :: flags)

theorem Resubscriptions.concat {flags : List Bool} (h : Resubscriptions flags) :
    Resubscriptions (flags ++ [false, true]) := by
  induction h with
  | nil => exact .cons .nil
  | cons _ ih => exact .cons ih

/-- The flags of the coroutines that wait for a pair. -/
def waiting (component : BidAskGeneratorComponent) (tradingPair : TradingPair) : List Bool :=
  component.spawned.filterMap fun
    | .requestSubscribeToDiff subscribe own => if own = tradingPair then some subscribe else none
    | .requestNewSnapshot _ => none

/-- A loss spawns an unsubscription and a subscription. -/
theorem coroutines_bybit (stateMap : TradingPair → BidAskState) (event : Event) :
    let coroutines := (Bybit.generator.handle .registered stateMap event).2.filterMap
      Action.coroutine
    coroutines = [] ∨ coroutines = [.requestSubscribeToDiff false event.tradingPair,
      .requestSubscribeToDiff true event.tradingPair] := by
  intro coroutines
  by_cases hvenue : event.exchangeId = Bybit.generator.exchangeId
  · have hreact : coroutines = (Bybit.generator.react .registered
        (stateMap event.tradingPair) event).2.filterMap Action.coroutine := by
      simp only [coroutines, Generator.handle_of_accepted _ _ hvenue]
    cases event with
    | responseNewSnapshot snapshot => exact .inl hreact
    | bookDiffSnapshot diff =>
        have hdiff : coroutines = (Bybit.handleBookDiffSnapshotEvent .registered
            (stateMap diff.tradingPair) diff).2.filterMap Action.coroutine := hreact
        rw [hdiff]
        generalize hresult : Bybit.handleBookDiffSnapshotEvent .registered
          (stateMap diff.tradingPair) diff = result
        cases Bybit.diffOutcome_of_eq hresult with
        | lost => exact .inr rfl
        | resynchronised | continued | silent => exact .inl rfl
  · left
    simp only [coroutines, Generator.handle_of_dropped _ _ hvenue, List.filterMap_nil]

/-- The last request for each pair that is tracked is a subscription, unless the
subscription is the next coroutine that waits for the pair. -/
structure BybitRequests (component : BidAskGeneratorComponent)
    (trace : List (Task × List Output)) : Prop extends Restarted .bybit component trace where
  spawned : ∀ coroutine ∈ component.spawned, ∃ subscribe tradingPair,
    coroutine = .requestSubscribeToDiff subscribe tradingPair
  waiting : ∀ tradingPair, Resubscriptions (component.waiting tradingPair) ∨
    ∃ flags, component.waiting tradingPair = true :: flags ∧ Resubscriptions flags
  last : ∀ tradingPair info, firstTracking trace tradingPair = some info →
    Resubscriptions (component.waiting tradingPair) →
    (requestsOf trace tradingPair).getLast? =
      some ((Coroutine.requestSubscribeToDiff true tradingPair).request .bybit info)

namespace BybitRequests

theorem requestBBOPrice (h : BybitRequests component trace) {request : BusEventRequestBBOPrice}
    (hrequest : request.subscribe = true) :
    BybitRequests (component.step .bybit (.requestBBOPrice request)).1
      (trace ++ [(.requestBBOPrice request,
        (component.step .bybit (.requestBBOPrice request)).2)]) := by
  have hspawned : (component.step .bybit (.requestBBOPrice request)).1.spawned =
      component.spawned := spawned_handleTracking request
  have hwaiting (tradingPair : TradingPair) :
      (component.step .bybit (.requestBBOPrice request)).1.waiting tradingPair =
        component.waiting tradingPair := by
    rw [BidAskGeneratorComponent.waiting, hspawned]
    rfl
  have houtputs : (component.step .bybit (.requestBBOPrice request)).2 =
      [(Coroutine.requestSubscribeToDiff true request.tradingPair).request .bybit
        ((firstTracking trace request.tradingPair).getD request)] := by
    rw [← h.requestBbo, ← hrequest]
    exact outputs_handleTracking_bybit request
  refine ⟨h.toRestarted.requestBBOPrice request, hspawned ▸ h.spawned, ?_, ?_⟩
  · intro tradingPair
    rw [hwaiting]
    exact h.waiting tradingPair
  · intro tradingPair info hinfo hresubscriptions
    rw [hwaiting] at hresubscriptions
    rw [firstTracking_concat] at hinfo
    rw [requestsOf_concat, houtputs]
    have hown : ((firstTracking trace request.tradingPair).getD request).tradingPair =
        request.tradingPair := by
      cases hfirst : firstTracking trace request.tradingPair with
      | none => rfl
      | some first => exact tradingPair_of_firstTracking hfirst
    by_cases hpair : request.tradingPair = tradingPair
    · subst hpair
      have hgetD : (firstTracking trace request.tradingPair).getD request = info := by
        rw [Task.tracking_self] at hinfo
        cases hfirst : firstTracking trace request.tradingPair <;> simpa [hfirst] using hinfo
      rw [List.filter_cons_of_pos (by simp [Coroutine.requested_request, hown]), hgetD]
      simp
    · rw [List.filter_cons_of_neg (by simp [Coroutine.requested_request, hown, hpair])]
      simp only [List.filter_nil, List.append_nil]
      apply h.last tradingPair info _ hresubscriptions
      simpa [Task.tracking, hpair] using hinfo

theorem market (h : BybitRequests component trace) (event : Event) :
    BybitRequests (component.step .bybit (.market event)).1
      (trace ++ [(.market event, (component.step .bybit (.market event)).2)]) := by
  obtain ⟨coroutines, hcoroutines⟩ : ∃ coroutines,
      (Bybit.generator.handle .registered component.stateMap event).2.filterMap
        Action.coroutine = coroutines := ⟨_, rfl⟩
  have hspawned : (component.step .bybit (.market event)).1.spawned =
      component.spawned ++ coroutines := by
    rw [← hcoroutines]
    rfl
  have hcases := coroutines_bybit component.stateMap event
  simp only [hcoroutines] at hcases
  have hwaiting (tradingPair : TradingPair) :
      (component.step .bybit (.market event)).1.waiting tradingPair =
        component.waiting tradingPair ∨
      (component.step .bybit (.market event)).1.waiting tradingPair =
        component.waiting tradingPair ++ [false, true] := by
    simp only [BidAskGeneratorComponent.waiting, hspawned, List.filterMap_append]
    rcases hcases with rfl | rfl
    · simp
    · by_cases hpair : event.tradingPair = tradingPair <;> simp [hpair]
  refine ⟨h.toRestarted.market event, ?_, ?_, ?_⟩
  · intro coroutine hmem
    rw [hspawned] at hmem
    rcases List.mem_append.mp hmem with hold | hnew
    · exact h.spawned coroutine hold
    · rcases hcases with rfl | rfl
      · cases hnew
      · rcases List.mem_pair.mp hnew with rfl | rfl <;> exact ⟨_, _, rfl⟩
  · intro tradingPair
    rcases hwaiting tradingPair with heq | heq
    · rw [heq]
      exact h.waiting tradingPair
    · rw [heq]
      rcases h.waiting tradingPair with hbefore | ⟨flags, hflags, hbefore⟩
      · exact .inl hbefore.concat
      · exact .inr ⟨flags ++ [false, true], by simp [hflags], hbefore.concat⟩
  · intro tradingPair info hinfo hresubscriptions
    rw [requestsOf_concat]
    simp only [BidAskGeneratorComponent.step, requests_callbacks, List.append_nil]
    apply h.last tradingPair info
    · simpa [firstTracking_concat, Task.tracking] using hinfo
    · rcases h.waiting tradingPair with hbefore | ⟨flags, hflags, -⟩
      · exact hbefore
      · -- the subscription that waits first still waits first
        rcases hwaiting tradingPair with heq | heq <;> rw [heq, hflags] at hresubscriptions <;>
          cases hresubscriptions

theorem resume (h : BybitRequests component trace) :
    BybitRequests (component.step .bybit .resume).1
      (trace ++ [(.resume, (component.step .bybit .resume).2)]) := by
  have hrestarted := h.toRestarted.resume
  have hfirst (outputs : List Output) (tradingPair : TradingPair) :
      firstTracking (trace ++ [(.resume, outputs)]) tradingPair =
        firstTracking trace tradingPair := by
    simp [firstTracking_concat, Task.tracking]
  cases hspawned : component.spawned with
  | nil =>
      have hstep : component.step .bybit .resume = (component, []) := by
        simp [BidAskGeneratorComponent.step, hspawned]
      rw [hstep] at hrestarted ⊢
      refine ⟨hrestarted, h.spawned, h.waiting, ?_⟩
      intro tradingPair info hinfo hresubscriptions
      rw [hfirst] at hinfo
      rw [requestsOf_concat, List.filter_nil, List.append_nil]
      exact h.last tradingPair info hinfo hresubscriptions
  | cons coroutine rest =>
      obtain ⟨subscribe, own, rfl⟩ := h.spawned coroutine (by simp [hspawned])
      have hstep : component.step .bybit .resume = ({ component with spawned := rest },
          component.resume .bybit (.requestSubscribeToDiff subscribe own)) := by
        simp [BidAskGeneratorComponent.step, hspawned]
      have hown : component.waiting own =
          subscribe ::
            ({ component with spawned := rest } : BidAskGeneratorComponent).waiting own := by
        simp [BidAskGeneratorComponent.waiting, hspawned]
      have hother {tradingPair : TradingPair} (hpair : own ≠ tradingPair) :
          ({ component with spawned := rest } : BidAskGeneratorComponent).waiting tradingPair =
            component.waiting tradingPair := by
        simp [BidAskGeneratorComponent.waiting, hspawned, hpair]
      rw [hstep] at hrestarted ⊢
      refine ⟨hrestarted, ?_, ?_, ?_⟩
      · intro coroutine hmem
        exact h.spawned coroutine (by rw [hspawned]; exact List.mem_cons_of_mem _ hmem)
      · intro tradingPair
        by_cases hpair : own = tradingPair
        · subst hpair
          rcases h.waiting own with hbefore | ⟨flags, hflags, hbefore⟩
          · rw [hown] at hbefore
            generalize ({ component with spawned := rest } : BidAskGeneratorComponent).waiting own
              = flags at hbefore ⊢
            cases hbefore with
            | cons hflags => exact .inr ⟨_, rfl, hflags⟩
          · rw [hown] at hflags
            rw [(List.cons.inj hflags).2]
            exact .inl hbefore
        · rw [hother hpair]
          exact h.waiting tradingPair
      · intro tradingPair info hinfo hresubscriptions
        rw [hfirst] at hinfo
        rw [requestsOf_concat, requests_resume h.toRestarted, hinfo]
        by_cases hpair : own = tradingPair
        · subst hpair
          have hsubscribe : subscribe = true := by
            rcases h.waiting own with hbefore | ⟨flags, hflags, -⟩
            · -- after an unsubscription a subscription waits, so this was none
              rw [hown] at hbefore
              generalize ({ component with spawned := rest } : BidAskGeneratorComponent).waiting own
                = flags at hbefore hresubscriptions
              cases hbefore with
              | cons => cases hresubscriptions
            · rw [hown] at hflags
              exact (List.cons.inj hflags).1
          simp [Coroutine.tradingPair, hsubscribe]
        · rw [hother hpair] at hresubscriptions
          simpa [Coroutine.tradingPair, hpair] using h.last tradingPair info hinfo hresubscriptions

theorem step (h : BybitRequests component trace) (task : Task) (htask : task.isCancel = false)
    (hsubscribe : ∀ request, task = .requestBBOPrice request → request.subscribe = true) :
    BybitRequests (component.step .bybit task).1
      (trace ++ [(task, (component.step .bybit task).2)]) := by
  cases task with
  | requestBBOPrice request => exact h.requestBBOPrice (hsubscribe request rfl)
  | market event => exact h.market event
  | resume => exact h.resume
  | cancel => simp [Task.isCancel] at htask

end BybitRequests

/-- A loss leaves no pair of Bybit unsubscribed.  In every run, whatever was lost and
whenever the component was cancelled, once no coroutine waits the last request for each
pair that is tracked is a subscription, with the parameters of the first tracking
request.  A tracking request may itself ask to unsubscribe; here none does. -/
theorem bybit_resubscribes (tasks : List Task)
    (hsubscribe : ∀ request, Task.requestBBOPrice request ∈ tasks → request.subscribe = true)
    (hidle : ((machine .bybit).run tasks).spawned = []) (tradingPair : TradingPair)
    (info : BusEventRequestBBOPrice)
    (htracked : ((machine .bybit).run tasks).requestBbo tradingPair = some info) :
    (requestsOf (sinceCancel .bybit tasks) tradingPair).getLast? =
      some ((Coroutine.requestSubscribeToDiff true tradingPair).request .bybit info) := by
  have hrequests : BybitRequests ((machine .bybit).run tasks) (sinceCancel .bybit tasks) := by
    apply (machine .bybit).epoch_invariant Task.isCancel
      (fun task => ∀ request, task = .requestBBOPrice request → request.subscribe = true)
    · exact ⟨Restarted.init, by simp [machine], fun _ => .inl .nil, by simp [firstTracking]⟩
    · intro component trace task hrequests htask
      cases task with
      | cancel =>
          exact ⟨Restarted.cancel, hrequests.spawned, hrequests.waiting, by simp [firstTracking]⟩
      | requestBBOPrice | market | resume => simp [Task.isCancel] at htask
    · intro component trace task hrequests hsubscribe htask
      exact hrequests.step task htask hsubscribe
    · rintro task hmem request rfl
      exact hsubscribe request hmem
  apply hrequests.last tradingPair info
  · rw [← hrequests.requestBbo, htracked]
  · rw [waiting, hidle]
    exact .nil

def trackedPair : TradingPair := ⟨2, 1⟩

/-- A loss, a cancellation between its two coroutines, and a new tracking request for
another depth that the second coroutine meets. -/
def lossThenCancel : List Task :=
  [.requestBBOPrice { exchangeId := .kBybit, tradingPair := trackedPair },
    .market (.bookDiffSnapshot { exchangeId := .kBybit, tradingPair := trackedPair, lastId := 7 }),
    .resume, .cancel,
    .requestBBOPrice { exchangeId := .kBybit, tradingPair := trackedPair, snapshotDepth := 50 },
    .resume]

theorem resubscribes_lossThenCancel :
    (requestsOf (sinceCancel .bybit lossThenCancel) trackedPair).getLast? =
      some (.requestDiffOrderBook ⟨.kBybit, trackedPair, 50, true, .text ""⟩) :=
  bybit_resubscribes lossThenCancel (by simp [lossThenCancel]) (by decide +kernel) trackedPair
    { exchangeId := .kBybit, tradingPair := trackedPair, snapshotDepth := 50 } (by decide +kernel)

end Bybit

end BidAskGeneratorComponent

end CryptoBot.Sync

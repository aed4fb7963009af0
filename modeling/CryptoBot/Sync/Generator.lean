/-
# Bid/ask generators

A `BidAskGeneratorComponent` keeps one `BidAskState` per trading pair and turns
two unordered inputs, full-depth snapshots answered over HTTP and depth diffs
pushed over a websocket, into one ordered output: a snapshot followed by the
diffs that continue it.  Binance and Bybit share the state record, the routing
by exchange and pair, and the tail that invokes the callbacks; they differ in
how a step decides that snapshot and diffs fit together.  `Generator` holds the
part that differs.

The component's strand handles one event at a time, so a run is a finite event
list.  Events of all pairs and all venues may be interleaved: a law about one
pair reads the `history` of that pair, and `Generator.pair_invariant` reduces it
to the handlers of a single `BidAskState`.
-/

import CryptoBot.Math.Machine
import CryptoBot.MarketData.Update
import Mathlib.Logic.Function.Basic

namespace CryptoBot.Sync

open CryptoBot.Common CryptoBot.MarketData CryptoBot.Math

structure BidAskState where
  needMakeSnapshot : Bool := true
  diffPacketLost : Bool := true
  needProcessCurrentSnapshot : Bool := false
  needProcessCurrentDiff : Bool := false
  lastIdDiffBookEvent : UInt64 := 0
  snapshot : BookSnapshot := {}
  deriving DecidableEq, Repr

/-- What a handler does besides changing the state: the invocations of the two
callbacks, and the requests it spawns. -/
inductive Action
  | snapshotCallback (snapshot : BookSnapshot)
  | diffCallback (diff : BookDiffSnapshot2)
  | requestNewSnapshot (tradingPair : TradingPair)
  | requestSubscribeToDiff (subscribe : Bool) (tradingPair : TradingPair)
  deriving DecidableEq, Repr

/-- Which of `snapshot_callback_` and `diff_callback_` are registered.  An
exception of a callback is caught and logged, so it is not part of the state. -/
structure Callbacks where
  snapshot : Bool
  diff : Bool

/-- Both callbacks are registered. -/
def Callbacks.registered : Callbacks := ⟨true, true⟩

inductive Event
  | responseNewSnapshot (snapshot : BookSnapshot2)
  | bookDiffSnapshot (diff : BookDiffSnapshot2)
  deriving DecidableEq, Repr

namespace Event

def tradingPair : Event → TradingPair
  | .responseNewSnapshot snapshot => snapshot.tradingPair
  | .bookDiffSnapshot diff => diff.tradingPair

def exchangeId : Event → ExchangeId
  | .responseNewSnapshot snapshot => snapshot.exchangeId
  | .bookDiffSnapshot diff => diff.exchangeId

end Event

/-! ## The shared blocks of the diff handlers -/

/-- The `need_make_snapshot` block of `HandleBookDiffSnapshotEvent`, for the
venue's value of `snapshot_and_diff_now_sync`. -/
def achieveSync (snapshotAndDiffNowSync : Bool) (state : BidAskState) : BidAskState :=
  if state.needMakeSnapshot then
    if snapshotAndDiffNowSync then
      { state with needMakeSnapshot := false, needProcessCurrentSnapshot := true }
    else state
  else state

/-- The state once the diff is recorded and synchronisation was attempted, for
the venue's values of `diff_packet_lost` and `snapshot_and_diff_now_sync`. -/
def attempt (lost nowSync : Bool) (state : BidAskState) (diff : BookDiffSnapshot2) :
    BidAskState :=
  achieveSync nowSync { state with
    diffPacketLost := lost
    lastIdDiffBookEvent := diff.lastId }

section Attempt

variable (lost nowSync : Bool) (state : BidAskState) (diff : BookDiffSnapshot2)

@[simp]
theorem attempt_needMakeSnapshot :
    (attempt lost nowSync state diff).needMakeSnapshot =
      (state.needMakeSnapshot && !nowSync) := by
  cases hmake : state.needMakeSnapshot <;> cases nowSync <;> simp [attempt, achieveSync, hmake]

@[simp]
theorem attempt_needProcessCurrentSnapshot :
    (attempt lost nowSync state diff).needProcessCurrentSnapshot =
      (state.needProcessCurrentSnapshot || (state.needMakeSnapshot && nowSync)) := by
  cases hmake : state.needMakeSnapshot <;> cases nowSync <;> simp [attempt, achieveSync, hmake]

/-- Synchronisation moves no other field. -/
theorem attempt_frame :
    (attempt lost nowSync state diff).needProcessCurrentDiff = state.needProcessCurrentDiff ∧
      (attempt lost nowSync state diff).diffPacketLost = lost ∧
      (attempt lost nowSync state diff).lastIdDiffBookEvent = diff.lastId ∧
      (attempt lost nowSync state diff).snapshot = state.snapshot := by
  unfold attempt achieveSync
  split <;> try split
  all_goals exact ⟨rfl, rfl, rfl, rfl⟩

@[simp]
theorem attempt_needProcessCurrentDiff :
    (attempt lost nowSync state diff).needProcessCurrentDiff = state.needProcessCurrentDiff :=
  (attempt_frame lost nowSync state diff).1

@[simp]
theorem attempt_diffPacketLost : (attempt lost nowSync state diff).diffPacketLost = lost :=
  (attempt_frame lost nowSync state diff).2.1

@[simp]
theorem attempt_lastIdDiffBookEvent :
    (attempt lost nowSync state diff).lastIdDiffBookEvent = diff.lastId :=
  (attempt_frame lost nowSync state diff).2.2.1

@[simp]
theorem attempt_snapshot : (attempt lost nowSync state diff).snapshot = state.snapshot :=
  (attempt_frame lost nowSync state diff).2.2.2

end Attempt

/-- The last block of `HandleBookDiffSnapshotEvent`. -/
def processDiff (callbacks : Callbacks) (state : BidAskState)
    (diff : BookDiffSnapshot2) : List Action :=
  if !state.diffPacketLost && state.needProcessCurrentDiff then
    if !callbacks.diff then [] else [.diffCallback diff]
  else []

/-- The last two blocks of `HandleBookDiffSnapshotEvent`: emit the stored
snapshot if one is pending, then the diff.  A missing snapshot callback returns
before the diff is looked at. -/
def forward (callbacks : Callbacks) (state : BidAskState)
    (diff : BookDiffSnapshot2) : BidAskState × List Action :=
  if state.needProcessCurrentSnapshot then
    let state := { state with
      needProcessCurrentSnapshot := false
      needProcessCurrentDiff := true }
    if !callbacks.snapshot then (state, [])
    else (state, .snapshotCallback state.snapshot :: processDiff callbacks state diff)
  else (state, processDiff callbacks state diff)

theorem forward_pending {state : BidAskState} (hpending : state.needProcessCurrentSnapshot = true)
    (hlost : state.diffPacketLost = false) (diff : BookDiffSnapshot2) :
    forward .registered state diff =
      ({ state with needProcessCurrentSnapshot := false, needProcessCurrentDiff := true },
        [.snapshotCallback state.snapshot, .diffCallback diff]) := by
  simp [forward, processDiff, Callbacks.registered, hpending, hlost]

theorem forward_not_pending {state : BidAskState}
    (hpending : state.needProcessCurrentSnapshot = false)
    (hlost : state.diffPacketLost = false) (diff : BookDiffSnapshot2) :
    forward .registered state diff =
      (state, if state.needProcessCurrentDiff then [.diffCallback diff] else []) := by
  simp [forward, processDiff, Callbacks.registered, hpending, hlost]

/-! ## Routing -/

/-- The venue of a component and its two handlers, past the venue check and the
lookup of the pair's state. -/
structure Generator where
  exchangeId : ExchangeId
  handleNewSnapshotEvent : BidAskState → BookSnapshot2 → BidAskState
  handleBookDiffSnapshotEvent :
    Callbacks → BidAskState → BookDiffSnapshot2 → BidAskState × List Action

namespace Generator

variable (generator : Generator) (callbacks : Callbacks)

/-- Handle an event on the state of its pair. -/
def react (state : BidAskState) : Event → BidAskState × List Action
  | .responseNewSnapshot snapshot => (generator.handleNewSnapshotEvent state snapshot, [])
  | .bookDiffSnapshot diff => generator.handleBookDiffSnapshotEvent callbacks state diff

/-- Handle an event: drop it when its venue is not the component's, otherwise
work on `state_map_[trading_pair]`, which is a fresh state for a new pair. -/
def handle (stateMap : TradingPair → BidAskState) (event : Event) :
    (TradingPair → BidAskState) × List Action :=
  if event.exchangeId ≠ generator.exchangeId then (stateMap, [])
  else
    let outcome := generator.react callbacks (stateMap event.tradingPair) event
    (Function.update stateMap event.tradingPair outcome.1, outcome.2)

/-- The component with both callbacks registered, started with an empty
`state_map_`. -/
def machine : Machine (TradingPair → BidAskState) Event Action where
  init := fun _ => {}
  step := generator.handle .registered

/-- The state of one pair after a run. -/
def stateOf (events : List Event) (pair : TradingPair) : BidAskState :=
  generator.machine.run events pair

/-- What the steps of one pair did, in order. -/
def historyOf (trace : List (Event × List Action)) (pair : TradingPair) : List Action :=
  (trace.filter fun step => step.1.tradingPair = pair).flatMap Prod.snd

/-- The history of one pair in the run of `events`. -/
def history (events : List Event) (pair : TradingPair) : List Action :=
  historyOf (generator.machine.trace events) pair

/-- Every step the component does not drop meets `C` in the state and after the
history of its pair. -/
def EveryAccepted (C : BidAskState → List Action → Event → Prop) (events : List Event) : Prop :=
  EveryStep (fun before event => event.exchangeId = generator.exchangeId →
    C (generator.stateOf before event.tradingPair) (generator.history before event.tradingPair)
      event) events

instance (C : BidAskState → List Action → Event → Prop)
    [∀ state history event, Decidable (C state history event)] (events : List Event) :
    Decidable (generator.EveryAccepted C events) :=
  inferInstanceAs (Decidable (EveryStep _ events))

theorem historyOf_concat (trace : List (Event × List Action)) (event : Event)
    (actions : List Action) (pair : TradingPair) :
    historyOf (trace ++ [(event, actions)]) pair =
      historyOf trace pair ++ if event.tradingPair = pair then actions else [] := by
  by_cases hpair : event.tradingPair = pair <;> simp [historyOf, hpair]

theorem handle_of_accepted {event : Event} (h : event.exchangeId = generator.exchangeId)
    (stateMap : TradingPair → BidAskState) :
    generator.handle callbacks stateMap event =
      (Function.update stateMap event.tradingPair
        (generator.react callbacks (stateMap event.tradingPair) event).1,
        (generator.react callbacks (stateMap event.tradingPair) event).2) := by
  simp [handle, h]

theorem handle_of_dropped {event : Event} (h : event.exchangeId ≠ generator.exchangeId)
    (stateMap : TradingPair → BidAskState) :
    generator.handle callbacks stateMap event = (stateMap, []) := by
  simp [handle, h]

/-- A step emits something only if it is accepted, and then it emits what the
handlers of its pair emit. -/
theorem mem_emitted_iff {before : List Event} {event : Event} {action : Action} :
    action ∈ generator.machine.emitted before event ↔
      event.exchangeId = generator.exchangeId ∧
        action ∈ (generator.react .registered
          (generator.stateOf before event.tradingPair) event).2 := by
  by_cases h : event.exchangeId = generator.exchangeId
  · simp [Machine.emitted, machine, generator.handle_of_accepted _ h, h, stateOf]
  · simp [Machine.emitted, machine, generator.handle_of_dropped _ h, h]

theorem emitted_of_accepted {event : Event} (h : event.exchangeId = generator.exchangeId)
    (before : List Event) :
    generator.machine.emitted before event =
      (generator.react .registered (generator.stateOf before event.tradingPair) event).2 := by
  simp [Machine.emitted, machine, generator.handle_of_accepted _ h, stateOf]

theorem stateOf_concat_of_accepted (before : List Event) (event : Event)
    (h : event.exchangeId = generator.exchangeId) :
    generator.stateOf (before ++ [event]) event.tradingPair =
      (generator.react .registered (generator.stateOf before event.tradingPair) event).1 := by
  rw [stateOf, Machine.run_concat]
  simp [machine, generator.handle_of_accepted _ h, stateOf]

theorem history_concat_of_accepted (before : List Event) (event : Event)
    (h : event.exchangeId = generator.exchangeId) :
    generator.history (before ++ [event]) event.tradingPair =
      generator.history before event.tradingPair ++
        (generator.react .registered (generator.stateOf before event.tradingPair) event).2 := by
  rw [history, Machine.trace_concat, historyOf_concat, if_pos rfl,
    generator.emitted_of_accepted h]
  rfl

/-- An invariant of one pair's state and history follows from its handlers
alone: steps of other pairs and of other venues leave both unchanged. -/
theorem pair_invariant (C : BidAskState → List Action → Event → Prop)
    (Inv : BidAskState → List Action → Prop) (hinit : Inv {} [])
    (hstep : ∀ state history event, Inv state history → C state history event →
      Inv (generator.react .registered state event).1
        (history ++ (generator.react .registered state event).2))
    {events : List Event} (hC : generator.EveryAccepted C events) (pair : TradingPair) :
    Inv (generator.stateOf events pair) (generator.history events pair) := by
  refine generator.machine.invariant_of_everyStep
    (fun stateMap trace event => event.exchangeId = generator.exchangeId →
      C (stateMap event.tradingPair) (historyOf trace event.tradingPair) event)
    (fun stateMap trace => ∀ pair, Inv (stateMap pair) (historyOf trace pair))
    (fun _ => hinit) ?_ hC pair
  intro stateMap trace event hinv hC pair
  rw [historyOf_concat]
  by_cases hvenue : event.exchangeId = generator.exchangeId
  · simp only [machine, generator.handle_of_accepted _ hvenue]
    by_cases hpair : event.tradingPair = pair
    · subst hpair
      simpa using hstep _ _ _ (hinv event.tradingPair) (hC hvenue)
    · simpa [hpair, Function.update_of_ne (Ne.symm hpair)] using hinv pair
  · simpa [machine, generator.handle_of_dropped _ hvenue] using hinv pair

end Generator

/-! ## Reading a history -/

/-- The diffs a history passed to `diff_callback_`. -/
def forwardedDiffs (history : List Action) : List BookDiffSnapshot2 :=
  history.filterMap fun
    | .diffCallback diff => some diff
    | _ => none

/-- The diff forwarded last. -/
def lastForwarded (history : List Action) : Option BookDiffSnapshot2 :=
  (forwardedDiffs history).getLast?

theorem lastForwarded_concat_diff (history : List Action) (diff : BookDiffSnapshot2) :
    lastForwarded (history ++ [Action.diffCallback diff]) = some diff := by
  simp [lastForwarded, forwardedDiffs]

/-- The id the next forwarded diff has to continue: that of the callback made
last, a snapshot's `lastUpdateId` or a diff's `lastId`. -/
def chainBase (history : List Action) : Option UInt64 :=
  (history.filterMap fun
    | .snapshotCallback snapshot => some snapshot.lastUpdateId
    | .diffCallback diff => some diff.lastId
    | _ => none).getLast?

theorem chainBase_concat_snapshot (history : List Action) (snapshot : BookSnapshot) :
    chainBase (history ++ [Action.snapshotCallback snapshot]) = some snapshot.lastUpdateId := by
  simp [chainBase]

theorem chainBase_concat_diff (history : List Action) (diff : BookDiffSnapshot2) :
    chainBase (history ++ [Action.diffCallback diff]) = some diff.lastId := by
  simp [chainBase]

end CryptoBot.Sync

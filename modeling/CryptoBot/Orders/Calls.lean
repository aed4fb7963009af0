/-
# Calls of the order manager

A strategy calls `NewOrder` and `CancelOrder`.  Each builds a request, hands it to
the trade engine and writes the slot.  Two things are left out on the way, and the
laws here say what follows from them.

The engine's queue may refuse the request.  The engine logs that and returns
nothing, so the order manager writes the slot as if the request were on its way.

`CancelOrder` does not look at the state of the slot, as `NewOrder` does.  It sends
a cancel for whatever the slot holds: an order that is over, one that was
cancelled already, or the invalid id of a slot that was never used.
-/

import CryptoBot.Math.LastWrite
import CryptoBot.Math.Machine
import CryptoBot.Orders.OrderManager

namespace CryptoBot.Orders

open CryptoBot.Common CryptoBot.Math

inductive Call
  | newOrder (exchangeId : ExchangeId) (tradingPair : TradingPair) (price : Price) (side : Side)
      (qty : Qty)
  | cancelOrder (exchangeId : ExchangeId) (tradingPair : TradingPair) (side : Side)
  deriving DecidableEq, Repr

inductive Request
  | newOrder (request : RequestNewOrder)
  | cancelOrder (request : RequestCancelOrder)
  deriving DecidableEq, Repr

namespace Call

/-- The pair and the side of the slot a call is for. -/
def tradingPair : Call → TradingPair
  | .newOrder _ tradingPair _ _ _ => tradingPair
  | .cancelOrder _ tradingPair _ => tradingPair

def side : Call → Side
  | .newOrder _ _ _ side _ => side
  | .cancelOrder _ _ side => side

end Call

/-- A call with the request it hands to the trade engine, if any. -/
def OrderManager.call (orderManager : OrderManager) : Call → OrderManager × List Request
  | .newOrder exchangeId tradingPair price side qty =>
      let (orderManager, request) := orderManager.newOrder exchangeId tradingPair price side qty
      (orderManager, request.toList.map .newOrder)
  | .cancelOrder exchangeId tradingPair side =>
      let (orderManager, request) := orderManager.cancelOrder exchangeId tradingPair side
      (orderManager, [.cancelOrder request])

/-! ## Refused requests -/

structure TradeEngine where
  requestNewOrder : List RequestNewOrder := []
  requestCancelOrder : List RequestCancelOrder := []

/-- `try_enqueue` of a queue that takes the element or refuses it. -/
def tryEnqueue {α : Type} (queue : List α) (element : α) (taken : Bool) : Bool × List α :=
  if taken then (true, queue ++ [element]) else (false, queue)

namespace TradeEngine

variable (tradeEngine : TradeEngine)

/-- `SendRequestNewOrder` and `SendRequestCancelOrder`.  The status is logged and
dropped. -/
def sendRequest (taken : Bool) : Request → TradeEngine
  | .newOrder request =>
      let (_, requestNewOrder) := tryEnqueue tradeEngine.requestNewOrder request taken
      { tradeEngine with requestNewOrder }
  | .cancelOrder request =>
      let (_, requestCancelOrder) := tryEnqueue tradeEngine.requestCancelOrder request taken
      { tradeEngine with requestCancelOrder }

theorem sendRequest_refused (request : Request) :
    tradeEngine.sendRequest false request = tradeEngine := by
  cases request <;> rfl

end TradeEngine

/-- The order manager with its trade engine. -/
structure Desk where
  orderManager : OrderManager := {}
  tradeEngine : TradeEngine := {}

namespace Desk

variable (desk : Desk)

/-- A call, with the answer of the queue to its request. -/
def call (call : Call) (taken : Bool) : Desk :=
  let (orderManager, requests) := desk.orderManager.call call
  ⟨orderManager, requests.foldl (fun engine => engine.sendRequest taken) desk.tradeEngine⟩

/-- A refused call leaves its slot and the next order id alone, so a slot that was
free takes a new order still. -/
structure LeavesNoTrace (call : Call) : Prop where
  slot : (desk.call call false).orderManager.getOrder call.tradingPair call.side =
    desk.orderManager.getOrder call.tradingPair call.side
  nextOrderId : (desk.call call false).orderManager.nextOrderId = desk.orderManager.nextOrderId
  free : desk.orderManager.Free call.tradingPair call.side →
    (desk.call call false).orderManager.Free call.tradingPair call.side

theorem tradeEngine_call_refused (call : Call) :
    (desk.call call false).tradeEngine = desk.tradeEngine := by
  rw [Desk.call]
  generalize desk.orderManager.call call = result
  obtain ⟨orderManager, requests⟩ := result
  induction requests with
  | nil => rfl
  | cons request requests ih =>
      simpa [TradeEngine.sendRequest_refused] using ih

/-- A new order that is refused is pending all the same. -/
theorem not_leavesNoTrace_newOrder {exchangeId : ExchangeId} {tradingPair : TradingPair}
    {price : Price} {side : Side} {qty : Qty} {request : Request}
    (h : (desk.orderManager.call (.newOrder exchangeId tradingPair price side qty)).2 = [request]) :
    ¬ desk.LeavesNoTrace (.newOrder exchangeId tradingPair price side qty) := by
  intro htrace
  rcases desk.orderManager.newOrder_cases exchangeId tradingPair price side qty with
    hlive | ⟨hfree, hsent⟩
  · simp [OrderManager.call, hlive] at h
  · have hslot := htrace.slot
    simp only [Desk.call, OrderManager.call, hsent, Call.tradingPair, Call.side] at hslot
    have hstate : (desk.orderManager.getOrder tradingPair side).state = .pendingNew := by
      rw [← hslot]
      exact congrArg OMOrder.state (OrderManager.getOrder_setOrder_self ..)
    rcases hfree with hdead | hinvalid
    · rw [hstate] at hdead
      cases hdead
    · rw [hstate] at hinvalid
      cases hinvalid

theorem leavesNoTrace_cancelOrder_iff {exchangeId : ExchangeId} {tradingPair : TradingPair}
    {side : Side} :
    desk.LeavesNoTrace (.cancelOrder exchangeId tradingPair side) ↔
      (desk.orderManager.getOrder tradingPair side).state = .pendingCancel := by
  have hslot : (desk.call (.cancelOrder exchangeId tradingPair side) false).orderManager.getOrder
      tradingPair side =
        { desk.orderManager.getOrder tradingPair side with state := .pendingCancel } :=
    OrderManager.getOrder_setOrder_self ..
  constructor
  · intro htrace
    exact congrArg OMOrder.state (htrace.slot.symm.trans hslot)
  · intro hstate
    have hsame : (desk.call (.cancelOrder exchangeId tradingPair side) false).orderManager.getOrder
        tradingPair side = desk.orderManager.getOrder tradingPair side := by
      rw [hslot, ← hstate]
    refine ⟨hsame, rfl, fun hfree => ?_⟩
    rwa [OrderManager.Free, Call.tradingPair, Call.side, hsame]

/-- A refused call queues nothing.  It leaves no trace exactly if it is a cancel of
an order that is being cancelled. -/
theorem leavesNoTrace_iff (desk : Desk) (call : Call) (request : Request)
    (hsent : (desk.orderManager.call call).2 = [request]) :
    (desk.call call false).tradeEngine = desk.tradeEngine ∧
      (desk.LeavesNoTrace call ↔
        (∃ exchangeId tradingPair side, call = .cancelOrder exchangeId tradingPair side) ∧
          (desk.orderManager.getOrder call.tradingPair call.side).state = .pendingCancel) := by
  refine ⟨desk.tradeEngine_call_refused call, ?_⟩
  cases call with
  | newOrder exchangeId tradingPair price side qty =>
      refine iff_of_false (desk.not_leavesNoTrace_newOrder hsent) ?_
      rintro ⟨⟨_, _, _, heq⟩, -⟩
      cases heq
  | cancelOrder exchangeId tradingPair side =>
      rw [desk.leavesNoTrace_cancelOrder_iff]
      exact (and_iff_right ⟨exchangeId, tradingPair, side, rfl⟩).symm

/-- A desk that has placed and cancelled an order. -/
def cancelling : Desk :=
  (({} : Desk).call (.newOrder .kBinance ⟨2, 1⟩ 100 .kAsk 5) true).call
    (.cancelOrder .kBinance ⟨2, 1⟩ .kAsk) true

theorem leavesNoTrace_cancelling :
    (cancelling.orderManager.call (.cancelOrder .kBinance ⟨2, 1⟩ .kAsk)).2 =
        [.cancelOrder ⟨.kBinance, ⟨2, 1⟩, 1⟩] ∧
      cancelling.LeavesNoTrace (.cancelOrder .kBinance ⟨2, 1⟩ .kAsk) := by
  refine ⟨by decide, ?_⟩
  exact (leavesNoTrace_iff cancelling _ (.cancelOrder ⟨.kBinance, ⟨2, 1⟩, 1⟩) (by decide)).2.mpr
    ⟨⟨_, _, _, rfl⟩, by decide⟩

/-- The first order of a desk, refused: the slot is pending and takes no other
order. -/
theorem refused_first_order :
    (({} : Desk).orderManager.call (.newOrder .kBinance ⟨2, 1⟩ 100 .kAsk 5)).2 ≠ [] ∧
      ¬ ({} : Desk).LeavesNoTrace (.newOrder .kBinance ⟨2, 1⟩ 100 .kAsk 5) ∧
      (((({} : Desk).call (.newOrder .kBinance ⟨2, 1⟩ 100 .kAsk 5) false).orderManager.call
        (.newOrder .kBinance ⟨2, 1⟩ 101 .kAsk 5)).2 = []) := by
  refine ⟨by decide, fun htrace => ?_, by decide⟩
  exact absurd htrace.nextOrderId (by decide)

end Desk

/-! ## Targets of a cancel -/

/-- What the order manager handles: a call of the strategy or a response. -/
inductive Event
  | call (call : Call)
  | onOrderResponse (response : MEClientResponse)

/-- The slot of a new order and the request, for a new order. -/
def Request.newOrderEntry : Request → Option ((TradingPair × Side) × Option RequestNewOrder)
  | .newOrder request => some ((request.tradingPair, request.side), some request)
  | .cancelOrder _ => none

/-- The last new order of each slot. -/
def lastNewOrder (requests : List Request) : TradingPair × Side → Option RequestNewOrder :=
  writes (fun _ => none) (requests.filterMap Request.newOrderEntry)

theorem lastNewOrder_concat_newOrder (requests : List Request) (request : RequestNewOrder) :
    lastNewOrder (requests ++ [Request.newOrder request]) =
      Function.update (lastNewOrder requests) (request.tradingPair, request.side)
        (some request) := by
  rw [lastNewOrder, List.filterMap_append, writes_append]
  rfl

theorem lastNewOrder_concat_cancelOrder (requests : List Request) (request : RequestCancelOrder) :
    lastNewOrder (requests ++ [Request.cancelOrder request]) = lastNewOrder requests := by
  rw [lastNewOrder, List.filterMap_append, writes_append]
  rfl

namespace OrderManager

variable (orderManager : OrderManager)

def handle : Event → OrderManager × List Request
  | .call call => orderManager.call call
  | .onOrderResponse response => (orderManager.onOrderResponse response, [])

def machine : Machine OrderManager Event Request := ⟨{}, handle⟩

/-- Each slot that had a new order sent holds the pair and the id of the last
one. -/
def Holds (last : TradingPair × Side → Option RequestNewOrder) : Prop :=
  ∀ tradingPair side request, last (tradingPair, side) = some request →
    (orderManager.getOrder tradingPair side).tradingPair = request.tradingPair ∧
      (orderManager.getOrder tradingPair side).orderId = request.orderId

variable {orderManager}

/-- A write that keeps the pair and the id of its slot. -/
theorem Holds.setOrder {last : TradingPair × Side → Option RequestNewOrder}
    (hholds : orderManager.Holds last) {tradingPair : TradingPair} {side : Side} {order : OMOrder}
    (hpair : order.tradingPair = (orderManager.getOrder tradingPair side).tradingPair)
    (hid : order.orderId = (orderManager.getOrder tradingPair side).orderId) :
    (orderManager.setOrder tradingPair side order).Holds last := by
  intro other otherSide request hlast
  by_cases hslot : (other, otherSide) = (tradingPair, side)
  · obtain ⟨rfl, rfl⟩ := Prod.mk.injEq .. ▸ hslot
    rw [getOrder_setOrder_self, hpair, hid]
    exact hholds _ _ _ hlast
  · rw [getOrder_setOrder_of_ne _ hslot]
    exact hholds _ _ _ hlast

/-- A response writes the quantity and the state of its slot, and no more. -/
theorem exists_respond_eq (response : MEClientResponse) (order : OMOrder) :
    ∃ qty state, respond response order = { order with qty, state } := by
  unfold respond
  cases response.type with
  | accepted => exact ⟨_, _, rfl⟩
  | canceled => exact ⟨_, _, rfl⟩
  | filled =>
      by_cases hfilled : response.leavesQty = 0
      · exact ⟨_, _, if_pos hfilled⟩
      · exact ⟨_, _, if_neg hfilled⟩
  | cancelRejected => exact ⟨_, _, rfl⟩
  | invalid => exact ⟨_, _, rfl⟩

/-- Only a new order gives its slot another pair or id, and it is the last new
order then. -/
theorem Holds.handle {requests : List Request} (hholds : orderManager.Holds (lastNewOrder requests))
    (event : Event) :
    (orderManager.handle event).1.Holds
      (lastNewOrder (requests ++ (orderManager.handle event).2)) := by
  cases event with
  | call call =>
      cases call with
      | newOrder exchangeId tradingPair price side qty =>
          rcases orderManager.newOrder_cases exchangeId tradingPair price side qty with
            hlive | ⟨-, hsent⟩
          · simp only [OrderManager.handle, OrderManager.call, hlive, Option.toList_none,
              List.map_nil, List.append_nil]
            intro other otherSide request hlast
            rw [getOrder_touch]
            exact hholds _ _ _ hlast
          · simp only [OrderManager.handle, OrderManager.call, hsent, Option.toList_some,
              List.map_cons, List.map_nil, lastNewOrder_concat_newOrder]
            intro other otherSide request hlast
            change ((orderManager.setOrder _ _ _).getOrder other otherSide).tradingPair = _ ∧
              ((orderManager.setOrder _ _ _).getOrder other otherSide).orderId = _
            by_cases hslot : (other, otherSide) = (tradingPair, side)
            · obtain ⟨rfl, rfl⟩ := Prod.mk.injEq .. ▸ hslot
              rw [Function.update_self, Option.some.injEq] at hlast
              rw [getOrder_setOrder_self, ← hlast]
              exact ⟨rfl, rfl⟩
            · rw [Function.update_of_ne hslot] at hlast
              rw [getOrder_setOrder_of_ne _ hslot]
              exact hholds _ _ _ hlast
      | cancelOrder exchangeId tradingPair side =>
          simp only [OrderManager.handle, OrderManager.call, lastNewOrder_concat_cancelOrder]
          exact hholds.setOrder rfl rfl
  | onOrderResponse response =>
      simp only [OrderManager.handle, OrderManager.onOrderResponse, List.append_nil]
      split
      · exact hholds
      · obtain ⟨qty, state, hrespond⟩ := exists_respond_eq response
          (orderManager.getOrder response.tradingPair response.side)
        rw [hrespond]
        exact hholds.setOrder rfl rfl

theorem holds_run (events : List Event) :
    (machine.run events).Holds (lastNewOrder (machine.outputs events)) := by
  induction events using List.reverseRecOn with
  | nil =>
      intro tradingPair side request hlast
      cases hlast
  | append_singleton events event ih =>
      rw [Machine.run_concat, Machine.outputs_concat]
      exact ih.handle event

/-- The slot waits for its new order to be accepted, or the order is live. -/
def Cancelable (orderManager : OrderManager) (tradingPair : TradingPair) (side : Side) : Prop :=
  (orderManager.getOrder tradingPair side).state = .pendingNew ∨
    (orderManager.getOrder tradingPair side).state = .live

/-- The law for a cancel after a run: it is sent for a pending or live order only
and names the last new order of the slot, and otherwise nothing happens. -/
structure TargetsLive (events : List Event) (exchangeId : ExchangeId) (tradingPair : TradingPair)
    (side : Side) : Prop where
  cancelable : machine.emitted events (.call (.cancelOrder exchangeId tradingPair side)) ≠ [] →
    (machine.run events).Cancelable tradingPair side
  names : ∀ request ∈ machine.emitted events (.call (.cancelOrder exchangeId tradingPair side)),
    ∃ last, lastNewOrder (machine.outputs events) (tradingPair, side) = some last ∧
      request = .cancelOrder ⟨exchangeId, last.tradingPair, last.orderId⟩
  otherwise : ¬ (machine.run events).Cancelable tradingPair side →
    machine.emitted events (.call (.cancelOrder exchangeId tradingPair side)) = [] ∧
      (machine.run (events ++ [.call (.cancelOrder exchangeId tradingPair side)])).getOrder
          tradingPair side =
        (machine.run events).getOrder tradingPair side

/-- After every run, a cancel keeps the law exactly if its slot is pending or live
and had a new order sent. -/
theorem targetsLive_iff (events : List Event) (exchangeId : ExchangeId) (tradingPair : TradingPair)
    (side : Side) :
    TargetsLive events exchangeId tradingPair side ↔
      (machine.run events).Cancelable tradingPair side ∧
        (lastNewOrder (machine.outputs events) (tradingPair, side)).isSome := by
  have hsent : machine.emitted events (.call (.cancelOrder exchangeId tradingPair side)) =
      [.cancelOrder ⟨exchangeId, ((machine.run events).getOrder tradingPair side).tradingPair,
        ((machine.run events).getOrder tradingPair side).orderId⟩] := rfl
  constructor
  · intro htargets
    obtain ⟨last, hlast, -⟩ := htargets.names _ (by rw [hsent]; exact List.mem_singleton_self _)
    refine ⟨htargets.cancelable (by simp [hsent]), ?_⟩
    rw [hlast]
    rfl
  · rintro ⟨hcancelable, hsome⟩
    obtain ⟨last, hlast⟩ := Option.isSome_iff_exists.mp hsome
    obtain ⟨hpair, hid⟩ := holds_run events _ _ _ hlast
    refine ⟨fun _ => hcancelable, fun request hmem => ?_, fun hother => absurd hcancelable hother⟩
    rw [hsent, List.mem_singleton] at hmem
    exact ⟨last, hlast, by rw [hmem, hpair, hid]⟩

/-- A cancel before any order: a request for the invalid id is sent, and the slot
is pending. -/
theorem cancel_of_no_order :
    machine.emitted [] (.call (.cancelOrder .kBinance ⟨2, 1⟩ .kAsk)) =
        [.cancelOrder ⟨.kBinance, {}, kOrderIdInvalid⟩] ∧
      ¬ TargetsLive [] .kBinance ⟨2, 1⟩ .kAsk := by
  refine ⟨rfl, fun htargets => ?_⟩
  rcases htargets.cancelable (by decide) with hpending | hlive
  · exact absurd hpending (by decide)
  · exact absurd hlive (by decide)

end OrderManager

end CryptoBot.Orders

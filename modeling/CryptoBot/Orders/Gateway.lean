/-
# The order gateway

The trade engine and the order gateway run on threads of their own and share three
queues.  A strategy's call puts a request on one of the engine's two queues, which may
refuse it.  `OrderGateway2::Run` takes up to 50 new orders at a time, hands each to the
executor of its exchange, does the same with the cancels, and starts again.  The
executors put responses on the third queue, and `TradeEngine::Run` takes up to 50 of
those at a time and adds the fills to its position keeper.

A run is one interleaving of the calls, the responses, and the steps of the two loops; a
bulk dequeue may return fewer elements than are there.  Each queue has one producer, and
keeps its order for that: the responses come from one thread, whichever executor they
are of.  Nothing on a queue is lost, doubled or reordered, except that a request for an
exchange without an executor is dropped with a log line.

The strategy that the engine informs of a fill does nothing with it: the line that
would pass the response to the order manager is commented out.  So a slot of the order
manager never becomes free again, and sends one new order in the whole run.
-/

import CryptoBot.Math.BulkQueue
import CryptoBot.Math.Doubles
import CryptoBot.Orders.Calls
import CryptoBot.Orders.Protocol
import CryptoBot.Positions.PositionKeeper

namespace CryptoBot.Orders.Gateway

open CryptoBot.Common CryptoBot.Math CryptoBot.Math.Doubles CryptoBot.Positions

/-- `executor_new_limit_orders_` and `executor_canceled_orders_`: which exchanges have an
executor. -/
structure Executors where
  newLimitOrders : ExchangeId → Bool
  canceledOrders : ExchangeId → Bool

/-- Where `OrderGateway2::Run` is, with what is left of the elements it dequeued. -/
inductive Phase
  | newOrders (batch : List RequestNewOrder)
  | cancelOrders (batch : List RequestCancelOrder)
  deriving DecidableEq, Repr

structure Floor where
  desk : Desk := {}
  gateway : Phase := .cancelOrders []
  /-- `response_`, which the executors fill. -/
  responses : List MEClientResponse := []
  /-- What is left of the responses `TradeEngine::Run` dequeued. -/
  batch : List MEClientResponse := []
  positionKeeper : PositionKeeper Float := {}

inductive Event
  /-- A call of the strategy, and whether the queue takes its request. -/
  | call (call : Call) (taken : Bool)
  /-- A response of an executor, and whether the queue takes it. -/
  | response (response : MEClientResponse) (taken : Bool)
  /-- A step of `OrderGateway2::Run`; a dequeue returns at most the number. -/
  | gateway (count : ℕ)
  /-- A step of `TradeEngine::Run`; a dequeue returns at most the number. -/
  | tradeEngine (count : ℕ)

/-- What a run shows: what the queues took, the calls of `Exec`, and the responses the
engine handled. -/
inductive Output
  | accepted (request : Request)
  | exec (request : Request)
  | acceptedResponse (response : MEClientResponse)
  | handled (response : MEClientResponse)
  deriving DecidableEq, Repr

/-- The requests of a call that the engine's queue takes. -/
def Floor.accepted (floor : Floor) (call : Call) (taken : Bool) : List Request :=
  if taken then (floor.desk.orderManager.call call).2 else []

variable (executors : Executors)

namespace Floor

variable (floor : Floor)

/-- One dequeue or one element of `OrderGateway2::Run`. -/
def gatewayStep (count : ℕ) : Floor × List Output :=
  match floor.gateway with
  | .newOrders (request :: rest) =>
      ({ floor with gateway := .newOrders rest },
        if executors.newLimitOrders request.exchangeId then [.exec (.newOrder request)] else [])
  | .newOrders [] =>
      let (batch, queue) := tryDequeueBulk floor.desk.tradeEngine.requestCancelOrder count
      ({ floor with
          desk.tradeEngine.requestCancelOrder := queue
          gateway := .cancelOrders batch }, [])
  | .cancelOrders (request :: rest) =>
      ({ floor with gateway := .cancelOrders rest },
        if executors.canceledOrders request.exchangeId then [.exec (.cancelOrder request)] else [])
  | .cancelOrders [] =>
      let (batch, queue) := tryDequeueBulk floor.desk.tradeEngine.requestNewOrder count
      ({ floor with
          desk.tradeEngine.requestNewOrder := queue
          gateway := .newOrders batch }, [])

/-- One dequeue or one element of `TradeEngine::Run`.  Besides the position keeper,
`OnOrderResponse` informs the strategy, which does nothing. -/
def tradeEngineStep (count : ℕ) : Floor × List Output :=
  match floor.batch with
  | response :: rest =>
      ({ floor with
          batch := rest
          positionKeeper := floor.positionKeeper.onOrderResponse response }, [.handled response])
  | [] =>
      let (batch, queue) := tryDequeueBulk floor.responses count
      ({ floor with responses := queue, batch }, [])

def step : Event → Floor × List Output
  | .call call taken =>
      ({ floor with desk := floor.desk.call call taken },
        (floor.accepted call taken).map .accepted)
  | .response response taken =>
      let (status, responses) := tryEnqueue floor.responses response taken
      ({ floor with responses }, if status then [.acceptedResponse response] else [])
  | .gateway count => floor.gatewayStep executors count
  | .tradeEngine count => floor.tradeEngineStep count

end Floor

def machine : Machine Floor Event Output := ⟨{}, Floor.step executors⟩

/-! ## Reading a run -/

namespace Output

def acceptedNew : Output → Option RequestNewOrder
  | .accepted (.newOrder request) => some request
  | _ => none

def acceptedCancel : Output → Option RequestCancelOrder
  | .accepted (.cancelOrder request) => some request
  | _ => none

def execNew : Output → Option RequestNewOrder
  | .exec (.newOrder request) => some request
  | _ => none

def execCancel : Output → Option RequestCancelOrder
  | .exec (.cancelOrder request) => some request
  | _ => none

def enqueuedResponse : Output → Option MEClientResponse
  | .acceptedResponse response => some response
  | _ => none

def handledResponse : Output → Option MEClientResponse
  | .handled response => some response
  | _ => none

end Output

namespace Floor

variable (floor : Floor)

/-- The new orders that were accepted and are not handled yet. -/
def pendingNew : List RequestNewOrder :=
  (match floor.gateway with
    | .newOrders batch => batch
    | .cancelOrders _ => []) ++ floor.desk.tradeEngine.requestNewOrder

/-- The cancels that were accepted and are not handled yet. -/
def pendingCancel : List RequestCancelOrder :=
  (match floor.gateway with
    | .newOrders _ => []
    | .cancelOrders batch => batch) ++ floor.desk.tradeEngine.requestCancelOrder

/-- The responses that were accepted and are not handled yet. -/
def pendingResponses : List MEClientResponse := floor.batch ++ floor.responses

end Floor

/-! ## The queues -/

section Queues

def asNewOrder : Request → Option RequestNewOrder
  | .newOrder request => some request
  | .cancelOrder _ => none

def asCancelOrder : Request → Option RequestCancelOrder
  | .newOrder _ => none
  | .cancelOrder request => some request

theorem foldl_sendRequest (tradeEngine : TradeEngine) (requests : List Request) :
    requests.foldl (fun engine => engine.sendRequest true) tradeEngine =
      ⟨tradeEngine.requestNewOrder ++ requests.filterMap asNewOrder,
        tradeEngine.requestCancelOrder ++ requests.filterMap asCancelOrder⟩ := by
  induction requests generalizing tradeEngine with
  | nil => simp
  | cons request rest ih =>
      rw [List.foldl_cons, ih]
      cases request <;>
        simp [TradeEngine.sendRequest, tryEnqueue, asNewOrder, asCancelOrder, List.filterMap_cons]

/-- A call adds what the queue takes to the queues of the engine. -/
theorem tradeEngine_call (floor : Floor) (call : Call) (taken : Bool) :
    (floor.desk.call call taken).tradeEngine =
      ⟨floor.desk.tradeEngine.requestNewOrder ++
          (floor.accepted call taken).filterMap asNewOrder,
        floor.desk.tradeEngine.requestCancelOrder ++
          (floor.accepted call taken).filterMap asCancelOrder⟩ := by
  cases taken with
  | true => exact foldl_sendRequest _ _
  | false =>
      simp only [Floor.accepted, Bool.false_eq_true, if_false, List.filterMap_nil, List.append_nil]
      exact floor.desk.tradeEngine_call_refused call

theorem filterMap_accepted {α : Type} (requests : List Request) (read : Output → Option α) :
    (requests.map Output.accepted).filterMap read =
      requests.filterMap fun request => read (.accepted request) := by
  rw [List.filterMap_map]
  rfl

/-- An output that is a new order for an exchange with an executor. -/
def Output.executableNew (output : Output) : Option RequestNewOrder :=
  output.acceptedNew.filter fun request => executors.newLimitOrders request.exchangeId

def Output.executableCancel (output : Output) : Option RequestCancelOrder :=
  output.acceptedCancel.filter fun request => executors.canceledOrders request.exchangeId

theorem filterMap_executableNew (requests : List Request) :
    (requests.map Output.accepted).filterMap (Output.executableNew executors) =
      (requests.filterMap asNewOrder).filter fun request =>
        executors.newLimitOrders request.exchangeId := by
  rw [filterMap_accepted, List.filter_filterMap]
  congr
  funext request
  cases request <;> rfl

theorem filterMap_executableCancel (requests : List Request) :
    (requests.map Output.accepted).filterMap (Output.executableCancel executors) =
      (requests.filterMap asCancelOrder).filter fun request =>
        executors.canceledOrders request.exchangeId := by
  rw [filterMap_accepted, List.filter_filterMap]
  congr
  funext request
  cases request <;> rfl

end Queues

section Step

variable (floor : Floor)

/-- A step takes new orders from the front of what is pending and gives them at its end. -/
theorem step_new (event : Event) :
    (floor.step executors event).2.filterMap Output.execNew ++
        (floor.step executors event).1.pendingNew.filter
          (fun request => executors.newLimitOrders request.exchangeId) =
      floor.pendingNew.filter (fun request => executors.newLimitOrders request.exchangeId) ++
        (floor.step executors event).2.filterMap (Output.executableNew executors) := by
  cases event with
  | call call taken =>
      simp only [Floor.step, filterMap_executableNew, Floor.pendingNew, tradeEngine_call]
      rw [filterMap_accepted]
      simp [Output.execNew, List.append_assoc]
  | response response taken =>
      cases taken <;> simp [Floor.step, tryEnqueue, List.filterMap_cons, Output.execNew,
        Output.executableNew, Output.acceptedNew, Floor.pendingNew]
  | tradeEngine count =>
      simp only [Floor.step, Floor.tradeEngineStep]
      cases floor.batch <;> simp [List.filterMap_cons, Output.execNew, Output.executableNew,
        Output.acceptedNew, Floor.pendingNew]
  | gateway count =>
      simp only [Floor.step, Floor.gatewayStep]
      cases hgateway : floor.gateway with
      | newOrders batch =>
          cases batch with
          | nil => simp [Floor.pendingNew, hgateway]
          | cons request rest =>
              cases hexchange : executors.newLimitOrders request.exchangeId <;>
                simp [Floor.pendingNew, hgateway, hexchange, List.filterMap_cons, Output.execNew,
                  Output.executableNew, Output.acceptedNew]
      | cancelOrders batch =>
          cases batch with
          | nil =>
              simp only [Floor.pendingNew, hgateway, List.nil_append, List.filterMap_nil,
                List.append_nil, append_tryDequeueBulk]
          | cons request rest =>
              cases hexchange : executors.canceledOrders request.exchangeId <;>
                simp [Floor.pendingNew, hgateway, hexchange, List.filterMap_cons, Output.execNew,
                  Output.executableNew, Output.acceptedNew]

theorem step_cancel (event : Event) :
    (floor.step executors event).2.filterMap Output.execCancel ++
        (floor.step executors event).1.pendingCancel.filter
          (fun request => executors.canceledOrders request.exchangeId) =
      floor.pendingCancel.filter (fun request => executors.canceledOrders request.exchangeId) ++
        (floor.step executors event).2.filterMap (Output.executableCancel executors) := by
  cases event with
  | call call taken =>
      simp only [Floor.step, filterMap_executableCancel, Floor.pendingCancel, tradeEngine_call]
      rw [filterMap_accepted]
      simp [Output.execCancel, List.append_assoc]
  | response response taken =>
      cases taken <;> simp [Floor.step, tryEnqueue, List.filterMap_cons, Output.execCancel,
        Output.executableCancel, Output.acceptedCancel, Floor.pendingCancel]
  | tradeEngine count =>
      simp only [Floor.step, Floor.tradeEngineStep]
      cases floor.batch <;> simp [List.filterMap_cons, Output.execCancel, Output.executableCancel,
        Output.acceptedCancel, Floor.pendingCancel]
  | gateway count =>
      simp only [Floor.step, Floor.gatewayStep]
      cases hgateway : floor.gateway with
      | newOrders batch =>
          cases batch with
          | nil =>
              simp only [Floor.pendingCancel, hgateway, List.nil_append, List.filterMap_nil,
                List.append_nil, append_tryDequeueBulk]
          | cons request rest =>
              cases hexchange : executors.newLimitOrders request.exchangeId <;>
                simp [Floor.pendingCancel, hgateway, hexchange, List.filterMap_cons,
                  Output.execCancel, Output.executableCancel, Output.acceptedCancel]
      | cancelOrders batch =>
          cases batch with
          | nil => simp [Floor.pendingCancel, hgateway]
          | cons request rest =>
              cases hexchange : executors.canceledOrders request.exchangeId <;>
                simp [Floor.pendingCancel, hgateway, hexchange, List.filterMap_cons,
                  Output.execCancel, Output.executableCancel, Output.acceptedCancel]

/-- A step of the gateway accepts no order and shows no response, and leaves the responses,
the keeper and the order manager alone. -/
theorem gatewayStep_frame (count : ℕ) :
    (floor.gatewayStep executors count).2.filterMap Output.acceptedNew = [] ∧
      (floor.gatewayStep executors count).2.filterMap Output.handledResponse = [] ∧
      (floor.gatewayStep executors count).2.filterMap Output.enqueuedResponse = [] ∧
      (floor.gatewayStep executors count).1.pendingResponses = floor.pendingResponses ∧
      (floor.gatewayStep executors count).1.positionKeeper = floor.positionKeeper ∧
      (floor.gatewayStep executors count).1.desk.orderManager = floor.desk.orderManager := by
  rcases hgateway : floor.gateway with (_ | ⟨request, rest⟩) | (_ | ⟨request, rest⟩)
  · simp [Floor.gatewayStep, hgateway, Floor.pendingResponses]
  · cases hexchange : executors.newLimitOrders request.exchangeId <;>
      simp [Floor.gatewayStep, hgateway, hexchange, Floor.pendingResponses, List.filterMap_cons,
        Output.acceptedNew, Output.handledResponse, Output.enqueuedResponse]
  · simp [Floor.gatewayStep, hgateway, Floor.pendingResponses]
  · cases hexchange : executors.canceledOrders request.exchangeId <;>
      simp [Floor.gatewayStep, hgateway, hexchange, Floor.pendingResponses, List.filterMap_cons,
        Output.acceptedNew, Output.handledResponse, Output.enqueuedResponse]

theorem step_responses (event : Event) :
    (floor.step executors event).2.filterMap Output.handledResponse ++
        (floor.step executors event).1.pendingResponses =
      floor.pendingResponses ++
        (floor.step executors event).2.filterMap Output.enqueuedResponse := by
  cases event with
  | call call taken =>
      simp only [Floor.step, filterMap_accepted]
      simp [Output.handledResponse, Output.enqueuedResponse, Floor.pendingResponses]
  | response response taken =>
      cases taken <;> simp [Floor.step, tryEnqueue, List.filterMap_cons, Output.handledResponse,
        Output.enqueuedResponse, Floor.pendingResponses]
  | gateway count =>
      obtain ⟨-, hhandled, henqueued, hpending, -⟩ := gatewayStep_frame executors floor count
      simp only [Floor.step, hhandled, henqueued, hpending, List.nil_append, List.append_nil]
  | tradeEngine count =>
      simp only [Floor.step, Floor.tradeEngineStep]
      cases hbatch : floor.batch with
      | nil =>
          simp only [Floor.pendingResponses, hbatch, List.filterMap_nil, List.nil_append,
            List.append_nil, append_tryDequeueBulk]
      | cons response rest =>
          simp [Floor.pendingResponses, hbatch, List.filterMap_cons, Output.handledResponse,
            Output.enqueuedResponse]

/-- The keeper changes by the responses the engine handles. -/
theorem step_positionKeeper (event : Event) :
    (floor.step executors event).1.positionKeeper =
      engineRoute floor.positionKeeper
        ((floor.step executors event).2.filterMap Output.handledResponse) := by
  cases event with
  | call call taken =>
      simp only [Floor.step, filterMap_accepted]
      simp [Output.handledResponse, engineRoute]
  | response response taken =>
      cases taken <;> simp [Floor.step, tryEnqueue, List.filterMap_cons, Output.handledResponse,
        engineRoute]
  | gateway count =>
      obtain ⟨-, hhandled, -, -, hkeeper, -⟩ := gatewayStep_frame executors floor count
      simp only [Floor.step, hhandled, hkeeper]
      rfl
  | tradeEngine count =>
      simp only [Floor.step, Floor.tradeEngineStep]
      cases floor.batch <;> simp [Output.handledResponse, engineRoute]

end Step

theorem execNew_append_pending (events : List Event) :
    ((machine executors).outputs events).filterMap Output.execNew ++
        ((machine executors).run events).pendingNew.filter
          (fun request => executors.newLimitOrders request.exchangeId) =
      ((machine executors).outputs events).filterMap (Output.executableNew executors) := by
  apply (machine executors).taken_append_pending Output.execNew
    (Output.executableNew executors) (fun floor => floor.pendingNew.filter
      fun request => executors.newLimitOrders request.exchangeId)
  · rfl
  · exact fun floor event => step_new executors floor event

theorem execCancel_append_pending (events : List Event) :
    ((machine executors).outputs events).filterMap Output.execCancel ++
        ((machine executors).run events).pendingCancel.filter
          (fun request => executors.canceledOrders request.exchangeId) =
      ((machine executors).outputs events).filterMap (Output.executableCancel executors) := by
  apply (machine executors).taken_append_pending Output.execCancel
    (Output.executableCancel executors) (fun floor => floor.pendingCancel.filter
      fun request => executors.canceledOrders request.exchangeId)
  · rfl
  · exact fun floor event => step_cancel executors floor event

/-- However the threads interleave, the calls of `Exec` for new orders are the accepted
new orders of the exchanges that have an executor, in the order they were accepted, each
once, up to those that are still pending; and the same holds of the cancels.  Nothing
reaches an executor for an exchange that has none. -/
theorem exec_append_pending (executors : Executors) (events : List Event) :
    ((machine executors).outputs events).filterMap Output.execNew ++
        ((machine executors).run events).pendingNew.filter
          (fun request => executors.newLimitOrders request.exchangeId) =
      ((machine executors).outputs events).filterMap (Output.executableNew executors) ∧
    ((machine executors).outputs events).filterMap Output.execCancel ++
        ((machine executors).run events).pendingCancel.filter
          (fun request => executors.canceledOrders request.exchangeId) =
      ((machine executors).outputs events).filterMap (Output.executableCancel executors) :=
  ⟨execNew_append_pending executors events, execCancel_append_pending executors events⟩

/-- Between the two kinds there is no order: a cancel may overtake the order it names, if
both are sent while the gateway is between its two dequeues. -/
example :
    ((machine ⟨fun _ => true, fun _ => true⟩).outputs
      [.gateway 50, .call (.newOrder .kBinance ⟨2, 1⟩ 100 .kAsk 5) true,
        .call (.cancelOrder .kBinance ⟨2, 1⟩ .kAsk) true,
        .gateway 50, .gateway 50, .gateway 50, .gateway 50]).filterMap
      (fun output => match output with | .exec request => some request | _ => none) =
    [.cancelOrder ⟨.kBinance, ⟨2, 1⟩, 1⟩, .newOrder ⟨.kBinance, ⟨2, 1⟩, 1, .kAsk, 100, 5⟩] := by
  decide

/-- The engine handles the accepted responses in order, each once, and the position of a
pair is that of its fills among the responses handled so far. -/
theorem position_of_handled (executors : Executors) (events : List Event)
    (tradingPair : TradingPair) :
    ((machine executors).outputs events).filterMap Output.handledResponse ++
        ((machine executors).run events).pendingResponses =
      ((machine executors).outputs events).filterMap Output.enqueuedResponse ∧
    ((machine executors).run events).positionKeeper.tickerPosition tradingPair =
      filled Float (fillsOf tradingPair
        (((machine executors).outputs events).filterMap Output.handledResponse)) := by
  constructor
  · apply (machine executors).taken_append_pending Output.handledResponse
      Output.enqueuedResponse Floor.pendingResponses
    · rfl
    · exact fun floor event => step_responses executors floor event
  · have hkeeper : ((machine executors).run events).positionKeeper =
        engineRoute (D := Float) {} (((machine executors).outputs events).filterMap
          Output.handledResponse) := by
      induction events using List.reverseRecOn with
      | nil => rfl
      | append_singleton events event ih =>
          rw [Machine.run_concat, Machine.outputs_concat, List.filterMap_append, engineRoute,
            List.foldl_append]
          rw [engineRoute] at ih
          rw [← ih]
          exact step_positionKeeper executors _ event
    rw [hkeeper, engineRoute_eq]

/-! ## One order per slot -/

/-- The slots of the accepted orders are distinct, and none of them is free. -/
structure SlotsTaken (orderManager : OrderManager) (accepted : List RequestNewOrder) : Prop where
  nodup : (accepted.map RequestNewOrder.slot).Nodup
  taken : ∀ request ∈ accepted, ¬ orderManager.Free request.tradingPair request.side

namespace SlotsTaken

variable {orderManager : OrderManager} {accepted : List RequestNewOrder}

theorem of_free (h : SlotsTaken orderManager accepted) {next : OrderManager}
    (hfree : ∀ tradingPair side, next.Free tradingPair side →
      orderManager.Free tradingPair side) : SlotsTaken next accepted :=
  ⟨h.nodup, fun request hmem hnext => h.taken request hmem (hfree _ _ hnext)⟩

/-- Every call keeps the slots, whether the queue takes its request or not. -/
theorem call (h : SlotsTaken orderManager accepted) (call : Call) (taken : Bool) :
    SlotsTaken (orderManager.call call).1
      (accepted ++ (if taken then (orderManager.call call).2 else []).filterMap asNewOrder) := by
  cases call with
  | cancelOrder exchangeId tradingPair side =>
      have hnone : (if taken then (orderManager.call
          (.cancelOrder exchangeId tradingPair side)).2 else []).filterMap asNewOrder = [] := by
        cases taken <;> rfl
      rw [hnone, List.append_nil]
      exact h.of_free fun _ _ => orderManager.free_of_free_cancelOrder exchangeId
  | newOrder exchangeId tradingPair price side qty =>
      rcases orderManager.newOrder_cases exchangeId tradingPair price side qty with
        hnew | ⟨hfree, hnew⟩
      · -- a live slot sends nothing
        have hcall : orderManager.call (.newOrder exchangeId tradingPair price side qty) =
            (orderManager.touch tradingPair, []) := by
          simp [OrderManager.call, hnew]
        rw [hcall]
        cases taken <;>
          simpa using h.of_free fun _ _ => (orderManager.free_touch_iff _ _ _).mp
      · obtain ⟨next, hnext⟩ : ∃ next, next =
          { orderManager.setOrder tradingPair side
              ⟨tradingPair, orderManager.nextOrderId, side, price, qty, .pendingNew⟩ with
            nextOrderId := orderManager.nextOrderId + 1 } := ⟨_, rfl⟩
        have hcall : orderManager.call (.newOrder exchangeId tradingPair price side qty) =
            (next, [.newOrder
              ⟨exchangeId, tradingPair, orderManager.nextOrderId, side, price, qty⟩]) := by
          simp [OrderManager.call, hnew, hnext]
        -- the slot of the order is taken now, and no other slot became free
        have hafter (other : TradingPair) (otherSide : Side) (h : next.Free other otherSide) :
            (other, otherSide) ≠ (tradingPair, side) ∧ orderManager.Free other otherSide := by
          rw [hnext] at h
          exact orderManager.free_of_free_setOrder rfl h
        have hkept := h.of_free fun other otherSide hother => (hafter other otherSide hother).2
        rw [hcall]
        cases taken with
        | false => simpa using hkept
        | true =>
            simp only [if_true, List.filterMap_cons, asNewOrder, List.filterMap_nil]
            refine ⟨?_, ?_⟩
            · rw [List.map_append, List.nodup_append]
              refine ⟨h.nodup, by simp, ?_⟩
              intro slot hslot last hlast heq
              obtain ⟨request, hmem, rfl⟩ := List.mem_map.mp hslot
              obtain rfl := (List.mem_singleton.mp hlast)
              obtain ⟨hpair, hside⟩ := Prod.mk.inj heq
              apply h.taken request hmem
              rw [hpair, hside]
              exact hfree
            · intro request hmem hrequest
              rcases List.mem_append.mp hmem with hold | hlast
              · exact hkept.taken request hold hrequest
              · obtain rfl := List.mem_singleton.mp hlast
                exact (hafter _ _ hrequest).1 rfl

end SlotsTaken

theorem slotsTaken_run (events : List Event) :
    SlotsTaken ((machine executors).run events).desk.orderManager
      (((machine executors).outputs events).filterMap Output.acceptedNew) := by
  induction events using List.reverseRecOn with
  | nil => exact ⟨List.nodup_nil, by simp [Machine.outputs, Machine.outputsFrom, Machine.traceFrom]⟩
  | append_singleton events event ih =>
      rw [Machine.run_concat, Machine.outputs_concat, List.filterMap_append, Machine.emitted]
      obtain ⟨floor, hfloor⟩ : ∃ floor, floor = (machine executors).run events := ⟨_, rfl⟩
      rw [← hfloor] at ih ⊢
      -- only a call accepts a new order or touches the order manager
      have hother (hmanager : (floor.step executors event).1.desk.orderManager =
            floor.desk.orderManager)
          (hnone : (floor.step executors event).2.filterMap Output.acceptedNew = []) :
          SlotsTaken (floor.step executors event).1.desk.orderManager
            (((machine executors).outputs events).filterMap Output.acceptedNew ++
              (floor.step executors event).2.filterMap Output.acceptedNew) := by
        rw [hmanager, hnone, List.append_nil]
        exact ih
      change SlotsTaken (floor.step executors event).1.desk.orderManager
        (((machine executors).outputs events).filterMap Output.acceptedNew ++
          (floor.step executors event).2.filterMap Output.acceptedNew)
      cases event with
      | call call taken =>
          have hread : ((floor.accepted call taken).map Output.accepted).filterMap
              Output.acceptedNew = (floor.accepted call taken).filterMap asNewOrder := by
            rw [filterMap_accepted]
            congr
            funext request
            cases request <;> rfl
          simp only [Floor.step, hread]
          exact ih.call call taken
      | response response taken =>
          apply hother rfl
          cases taken <;> simp [Floor.step, tryEnqueue, List.filterMap_cons, Output.acceptedNew]
      | gateway count =>
          obtain ⟨hnone, -, -, -, -, hmanager⟩ := gatewayStep_frame executors floor count
          exact hother hmanager hnone
      | tradeEngine count =>
          apply hother
          · simp only [Floor.step, Floor.tradeEngineStep]
            cases floor.batch <;> rfl
          · simp only [Floor.step, Floor.tradeEngineStep]
            cases floor.batch <;> simp [List.filterMap_cons, Output.acceptedNew]

/-- The engine never tells the order manager what became of an order, so a slot is used
once: in every run, whatever is called, answered, cancelled or refused, no two new
orders for one pair and side reach the executors, of one exchange or of two. -/
theorem exec_once_per_slot (executors : Executors) (events : List Event) :
    ((((machine executors).outputs events).filterMap Output.execNew).map
      RequestNewOrder.slot).Nodup := by
  have haccepted := (slotsTaken_run executors events).nodup
  have hfilter : ((machine executors).outputs events).filterMap (Output.executableNew executors) =
      (((machine executors).outputs events).filterMap Output.acceptedNew).filter
        fun request => executors.newLimitOrders request.exchangeId :=
    List.filter_filterMap.symm
  have hexec : (((machine executors).outputs events).filterMap Output.execNew).Sublist
      (((machine executors).outputs events).filterMap (Output.executableNew executors)) := by
    rw [← execNew_append_pending]
    exact List.sublist_append_left ..
  rw [hfilter] at hexec
  exact haccepted.sublist ((hexec.trans List.filter_sublist).map _)

end CryptoBot.Orders.Gateway

/-
# The order manager

`OrderManager` keeps one order per trading pair and side.  A new order is sent
only if the slot is dead or was never used; a cancel is sent whatever the state
of the slot is, and a response moves the state of the slot it names.  Neither
looks at order ids.
-/

import CryptoBot.Orders.ClientResponse

namespace CryptoBot.Orders

open CryptoBot.Common

inductive OMOrderState
  | invalid | pendingNew | live | pendingCancel | dead
  deriving DecidableEq, Repr

structure OMOrder where
  tradingPair : TradingPair := {}
  orderId : OrderId := kOrderIdInvalid
  side : Side := .kInvalid
  price : Price := kPriceInvalid
  qty : Qty := kQtyInvalid
  state : OMOrderState := .invalid
  deriving DecidableEq, Repr

structure RequestNewOrder where
  exchangeId : ExchangeId
  tradingPair : TradingPair
  orderId : OrderId
  side : Side
  price : Price
  qty : Qty
  deriving DecidableEq, Repr

structure RequestCancelOrder where
  exchangeId : ExchangeId
  tradingPair : TradingPair
  orderId : OrderId
  deriving DecidableEq, Repr

/-- `OMOrderTickerSideHashMap`: an order for each value of `sideToIndex`. -/
abbrev OMOrderTickerSideHashMap := TradingPair → Option (Fin 4 → OMOrder)

structure OrderManager where
  tickerSideOrder : OMOrderTickerSideHashMap := fun _ => none
  nextOrderId : OrderId := 1

namespace OrderManager

variable (orderManager : OrderManager)

/-- The orders of a pair, all invalid for a new pair. -/
def orders (tradingPair : TradingPair) : Fin 4 → OMOrder :=
  (orderManager.tickerSideOrder tradingPair).getD fun _ => {}

/-- The order `GetOrder` points to. -/
def getOrder (tradingPair : TradingPair) (side : Side) : OMOrder :=
  orderManager.orders tradingPair (sideToIndex side)

/-- The insertion `GetOrder` makes for a new pair. -/
def touch (tradingPair : TradingPair) : OrderManager :=
  { orderManager with
    tickerSideOrder := Function.update orderManager.tickerSideOrder tradingPair
      (some (orderManager.orders tradingPair)) }

/-- A write through the pointer of `GetOrder`. -/
def setOrder (tradingPair : TradingPair) (side : Side) (order : OMOrder) : OrderManager :=
  { orderManager with
    tickerSideOrder := Function.update orderManager.tickerSideOrder tradingPair
      (some (Function.update (orderManager.orders tradingPair) (sideToIndex side) order)) }

/-- `OrderIsLive` of `NewOrder`. -/
def orderIsLive (order : OMOrder) : Bool :=
  !(decide (order.state = .dead) || decide (order.state = .invalid))

/-- The request handed to the trade engine, if one is sent.  Whether its queue
takes the request makes no difference to the order manager. -/
def newOrder (exchangeId : ExchangeId) (tradingPair : TradingPair) (price : Price) (side : Side)
    (qty : Qty) : OrderManager × Option RequestNewOrder :=
  if orderIsLive (orderManager.getOrder tradingPair side) then
    (orderManager.touch tradingPair, none)
  else
    let newRequest : RequestNewOrder :=
      ⟨exchangeId, tradingPair, orderManager.nextOrderId, side, price, qty⟩
    let order : OMOrder := ⟨tradingPair, orderManager.nextOrderId, side, price, qty, .pendingNew⟩
    ({ orderManager.setOrder tradingPair side order with
        nextOrderId := orderManager.nextOrderId + 1 }, some newRequest)

/-- The cancel names the pair and the id stored in the slot. -/
def cancelOrder (exchangeId : ExchangeId) (tradingPair : TradingPair) (side : Side) :
    OrderManager × RequestCancelOrder :=
  let order := orderManager.getOrder tradingPair side
  (orderManager.setOrder tradingPair side { order with state := .pendingCancel },
    ⟨exchangeId, order.tradingPair, order.orderId⟩)

/-- The transition of the slot a response names. -/
def respond (response : MEClientResponse) (order : OMOrder) : OMOrder :=
  match response.type with
  | .accepted => { order with state := .live }
  | .canceled => { order with state := .dead }
  | .filled =>
      let order := { order with qty := response.leavesQty }
      if order.qty = 0 then { order with state := .dead } else order
  | .cancelRejected | .invalid => order

/-- A response for a pair that was never used is an error and ignored. -/
def onOrderResponse (response : MEClientResponse) : OrderManager :=
  if (orderManager.tickerSideOrder response.tradingPair).isNone then orderManager
  else
    orderManager.setOrder response.tradingPair response.side
      (respond response (orderManager.getOrder response.tradingPair response.side))

/-! ## Slots -/

@[simp]
theorem getOrder_touch (touched tradingPair : TradingPair) (side : Side) :
    (orderManager.touch touched).getOrder tradingPair side =
      orderManager.getOrder tradingPair side := by
  by_cases h : tradingPair = touched
  · subst h
    simp [touch, getOrder, orders]
  · simp [touch, getOrder, orders, Function.update_of_ne h]

@[simp]
theorem getOrder_setOrder_self (tradingPair : TradingPair) (side : Side) (order : OMOrder) :
    (orderManager.setOrder tradingPair side order).getOrder tradingPair side = order := by
  simp [setOrder, getOrder, orders]

/-- Distinct sides have distinct indices, so a write stays in its slot. -/
theorem getOrder_setOrder_of_ne {tradingPair other : TradingPair} {side otherSide : Side}
    (h : (other, otherSide) ≠ (tradingPair, side)) (order : OMOrder) :
    (orderManager.setOrder tradingPair side order).getOrder other otherSide =
      orderManager.getOrder other otherSide := by
  by_cases hpair : other = tradingPair
  · subst hpair
    have hside : sideToIndex otherSide ≠ sideToIndex side := fun heq =>
      h (by rw [sideToIndex_injective heq])
    simp [setOrder, getOrder, orders, Function.update_of_ne hside]
  · simp [setOrder, getOrder, orders, Function.update_of_ne hpair]

/-- The slot takes a new order. -/
def Free (tradingPair : TradingPair) (side : Side) : Prop :=
  (orderManager.getOrder tradingPair side).state = .dead ∨
    (orderManager.getOrder tradingPair side).state = .invalid

theorem free_touch_iff (touched tradingPair : TradingPair) (side : Side) :
    (orderManager.touch touched).Free tradingPair side ↔ orderManager.Free tradingPair side := by
  rw [Free, Free, getOrder_touch]

/-- A slot written with an order that is not dead is free only if it is another
slot that was free before. -/
theorem free_of_free_setOrder {tradingPair other : TradingPair} {side otherSide : Side}
    {order : OMOrder} (horder : orderIsLive order = true)
    (h : (orderManager.setOrder tradingPair side order).Free other otherSide) :
    (other, otherSide) ≠ (tradingPair, side) ∧ orderManager.Free other otherSide := by
  by_cases hslot : (other, otherSide) = (tradingPair, side)
  · obtain ⟨rfl, rfl⟩ := Prod.mk.injEq .. ▸ hslot
    rw [Free, getOrder_setOrder_self] at h
    rcases h with hstate | hstate <;> simp [orderIsLive, hstate] at horder
  · refine ⟨hslot, ?_⟩
    rwa [Free, getOrder_setOrder_of_ne _ hslot] at h

/-- What `NewOrder` does: nothing but touch the pair of a live slot, or send a
request for a free slot and make it pending. -/
theorem newOrder_cases (exchangeId : ExchangeId) (tradingPair : TradingPair) (price : Price)
    (side : Side) (qty : Qty) :
    (orderManager.newOrder exchangeId tradingPair price side qty =
        (orderManager.touch tradingPair, none)) ∨
      (orderManager.Free tradingPair side ∧
        orderManager.newOrder exchangeId tradingPair price side qty =
          ({ orderManager.setOrder tradingPair side
              ⟨tradingPair, orderManager.nextOrderId, side, price, qty, .pendingNew⟩ with
              nextOrderId := orderManager.nextOrderId + 1 },
            some ⟨exchangeId, tradingPair, orderManager.nextOrderId, side, price, qty⟩)) := by
  cases hlive : orderIsLive (orderManager.getOrder tradingPair side) with
  | true => exact .inl (by simp [newOrder, hlive])
  | false =>
      refine .inr ⟨?_, by simp [newOrder, hlive]⟩
      simp only [orderIsLive, Bool.not_eq_false', Bool.or_eq_true, decide_eq_true_eq] at hlive
      exact hlive

theorem free_of_free_cancelOrder (exchangeId : ExchangeId) {tradingPair other : TradingPair}
    {side otherSide : Side}
    (h : (orderManager.cancelOrder exchangeId tradingPair side).1.Free other otherSide) :
    orderManager.Free other otherSide :=
  (orderManager.free_of_free_setOrder rfl h).2

end OrderManager

/-- The response ends its order: `CANCELED`, or `FILLED` with nothing left. -/
def MEClientResponse.Terminal (response : MEClientResponse) : Prop :=
  response.type = .canceled ∨ (response.type = .filled ∧ response.leavesQty = 0)

instance : DecidablePred MEClientResponse.Terminal :=
  fun _ => inferInstanceAs (Decidable (_ ∨ _))

namespace OrderManager

variable (orderManager : OrderManager)

theorem state_respond_of_not_terminal {response : MEClientResponse} (h : ¬ response.Terminal)
    (order : OMOrder) :
    (respond response order).state = .live ∨ (respond response order).state = order.state := by
  unfold respond
  cases htype : response.type with
  | accepted => exact .inl rfl
  | canceled => exact (h (.inl htype)).elim
  | filled =>
      have hleaves : response.leavesQty ≠ 0 := fun hzero => h (.inr ⟨htype, hzero⟩)
      simp [hleaves]
  | cancelRejected => exact .inr rfl
  | invalid => exact .inr rfl

/-- A response frees no slot but the one it names, and that one only if it is
terminal. -/
theorem free_of_free_onOrderResponse {response : MEClientResponse} {tradingPair : TradingPair}
    {side : Side} (h : (orderManager.onOrderResponse response).Free tradingPair side) :
    orderManager.Free tradingPair side ∨
      ((tradingPair, side) = (response.tradingPair, response.side) ∧ response.Terminal) := by
  unfold onOrderResponse at h
  split at h
  · exact .inl h
  · by_cases hslot : (tradingPair, side) = (response.tradingPair, response.side)
    · by_cases hterminal : response.Terminal
      · exact .inr ⟨hslot, hterminal⟩
      · obtain ⟨rfl, rfl⟩ := Prod.mk.injEq .. ▸ hslot
        rw [Free, getOrder_setOrder_self] at h
        rcases state_respond_of_not_terminal hterminal
          (orderManager.getOrder response.tradingPair response.side) with hlive | hsame
        · rw [hlive] at h
          simp at h
        · rw [hsame] at h
          exact .inl h
    · rw [Free, getOrder_setOrder_of_ne _ hslot] at h
      exact .inl h

end OrderManager

end CryptoBot.Orders

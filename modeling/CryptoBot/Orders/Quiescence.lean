/-
# Quiescent agreement with the exchange

An exchange that answers every request: it accepts a new order and later fills
or cancels it, or it rejects the order with INVALID; it answers a cancel with
CANCELED or CANCEL_REJECTED.  Responses are delivered in any order.  When
nothing is in flight any more, a slot of the order manager should be busy
exactly while the exchange holds a live order of it.

Three kinds of steps break this, each for good: a rejection, a cancel of a free
slot, and an ACCEPTED that arrives at a free slot.  A slot that is busy without
an order to end it stays busy, because no later response can free it and
`NewOrder` no longer sends anything for it.
-/

import CryptoBot.Math.Machine
import CryptoBot.Orders.Protocol

namespace CryptoBot.Orders

open CryptoBot.Common CryptoBot.Math

/-- What the exchange did with an order. -/
inductive OrderStatus
  | requested | live | rejected | ended
  deriving DecidableEq, Repr

/-- The system of the order manager and its queues, the book of the exchange and
the refused cancels on their way back.  A refused cancel may name no order, so
it is kept apart from the responses. -/
structure Session where
  system : System := {}
  status : List OrderStatus := []
  refusals : List MEClientResponse := []

inductive Move
  | newOrder (exchangeId : ExchangeId) (tradingPair : TradingPair) (price : Price) (side : Side)
      (qty : Qty)
  | cancelOrder (exchangeId : ExchangeId) (tradingPair : TradingPair) (side : Side)
  | acceptNew (order : Nat) (response : MEClientResponse)
  | rejectNew (order : Nat) (response : MEClientResponse)
  | fill (order : Nat) (response : MEClientResponse)
  | cancel (order : Nat) (request : Option RequestCancelOrder) (response : MEClientResponse)
  | refuseCancel (request : RequestCancelOrder) (response : MEClientResponse)
  | deliver (order : Nat) (response : MEClientResponse)
  | deliverRefusal (response : MEClientResponse)

namespace Session

variable (session : Session)

/-- The exchange answers the request of a new order. -/
def answerNew (order : Nat) (status : OrderStatus) (response : MEClientResponse) : Session :=
  { session with
    system := { session.system with
      newRequests := session.system.newRequests.erase order
      received := order :: session.system.received }.emit order response
    status := session.status.set order status }

/-- The exchange sends a response for a live order, which may end it. -/
def report (order : Nat) (response : MEClientResponse) : Session :=
  { session with
    system := session.system.emit order response
    status := if response.Terminal then session.status.set order .ended else session.status }

def step : Move → Session
  | .newOrder exchangeId tradingPair price side qty =>
      let system := session.system.newOrder exchangeId tradingPair price side qty true
      { session with
        system
        status := session.status ++
          List.replicate (system.sent.length - session.system.sent.length) .requested }
  | .cancelOrder exchangeId tradingPair side =>
      { session with system := session.system.cancelOrder exchangeId tradingPair side true }
  | .acceptNew order response => session.answerNew order .live response
  | .rejectNew order response => session.answerNew order .rejected response
  | .fill order response => session.report order response
  | .cancel order request response =>
      let next := session.report order response
      { next with
        system := { next.system with
          cancelRequests :=
            match request with
            | none => next.system.cancelRequests
            | some request => next.system.cancelRequests.erase request } }
  | .refuseCancel request response =>
      { session with
        system := { session.system with
          cancelRequests := session.system.cancelRequests.erase request }
        refusals := response :: session.refusals }
  | .deliver order response =>
      { session with system := session.system.deliver order response }
  | .deliverRefusal response =>
      { session with
        system := { session.system with
          orderManager := session.system.orderManager.onOrderResponse response }
        refusals := session.refusals.erase response }

/-- The response is about the order. -/
def Concerns (order : Nat) (response : MEClientResponse) : Prop :=
  ∃ request, session.system.sent[order]? = some request ∧ response.slot = request.slot ∧
    response.orderId = request.orderId

/-- The exchange and the queues can make the move. -/
def Enabled : Move → Prop
  | .newOrder _ _ _ _ _ => True
  | .cancelOrder _ _ _ => True
  | .acceptNew order response =>
      order ∈ session.system.newRequests ∧ session.Concerns order response ∧
        response.type = .accepted
  | .rejectNew order response =>
      order ∈ session.system.newRequests ∧ session.Concerns order response ∧
        response.type = .invalid
  | .fill order response =>
      session.status[order]? = some .live ∧ session.Concerns order response ∧
        response.type = .filled
  | .cancel order request response =>
      session.status[order]? = some .live ∧ session.Concerns order response ∧
        response.type = .canceled ∧
        ∀ answered ∈ request, answered ∈ session.system.cancelRequests ∧
          answered.tradingPair = response.tradingPair ∧ answered.orderId = response.orderId
  | .refuseCancel request response =>
      request ∈ session.system.cancelRequests ∧ response.type = .cancelRejected ∧
        response.orderId = request.orderId
  | .deliver order response => (order, response) ∈ session.system.responses
  | .deliverRefusal response => response ∈ session.refusals

instance (order : Nat) (response : MEClientResponse) :
    Decidable (session.Concerns order response) :=
  inferInstanceAs (Decidable (∃ request ∈ session.system.sent[order]?,
    response.slot = request.slot ∧ response.orderId = request.orderId))

instance : DecidablePred session.Enabled
  | .newOrder _ _ _ _ _ => .isTrue trivial
  | .cancelOrder _ _ _ => .isTrue trivial
  | .acceptNew _ _ => inferInstanceAs (Decidable (_ ∧ _ ∧ _))
  | .rejectNew _ _ => inferInstanceAs (Decidable (_ ∧ _ ∧ _))
  | .fill _ _ => inferInstanceAs (Decidable (_ ∧ _ ∧ _))
  | .cancel _ _ _ => inferInstanceAs (Decidable (_ ∧ _ ∧ _ ∧ ∀ answered ∈ _, _))
  | .refuseCancel _ _ => inferInstanceAs (Decidable (_ ∧ _ ∧ _))
  | .deliver _ _ => inferInstanceAs (Decidable (_ ∈ _))
  | .deliverRefusal _ => inferInstanceAs (Decidable (_ ∈ _))

/-- No request and no response is in flight. -/
def Quiescent : Prop :=
  session.system.newRequests = [] ∧ session.system.cancelRequests = [] ∧
    session.system.responses = [] ∧ session.refusals = []

instance : Decidable session.Quiescent := inferInstanceAs (Decidable (_ ∧ _ ∧ _ ∧ _))

/-- The exchange holds a live order of the slot. -/
def HoldsLive (slot : Slot) : Prop :=
  ∃ (order : Nat) (request : RequestNewOrder), session.status[order]? = some .live ∧
    session.system.sent[order]? = some request ∧ request.slot = slot

/-- A slot is busy exactly while the exchange holds a live order of it. -/
def Agrees : Prop :=
  ∀ tradingPair side, ¬ session.system.orderManager.Free tradingPair side ↔
    session.HoldsLive (tradingPair, side)

/-- The steps that leave a slot busy without an order. -/
def Strands : Move → Prop
  | .rejectNew _ _ => True
  | .cancelOrder _ tradingPair side => session.system.orderManager.Free tradingPair side
  | .deliver _ response => response.type = .accepted ∧
      session.system.orderManager.Free response.tradingPair response.side
  | _ => False

instance : DecidablePred session.Strands
  | .rejectNew _ _ => .isTrue trivial
  | .cancelOrder _ _ _ => inferInstanceAs (Decidable (_ ∨ _))
  | .deliver _ _ => inferInstanceAs (Decidable (_ ∧ (_ ∨ _)))
  | .newOrder _ _ _ _ _ | .acceptNew _ _ | .fill _ _ | .cancel _ _ _ | .refuseCancel _ _
  | .deliverRefusal _ => .isFalse id

end Session

/-- The runs of a session. -/
def session : Machine Session Move Empty := ⟨{}, fun current move => (current.step move, [])⟩

/-! ## The order manager -/

namespace OrderManager

variable (orderManager : OrderManager)

/-- A pair that was used stays known. -/
theorem isSome_setOrder {tradingPair : TradingPair}
    (h : (orderManager.tickerSideOrder tradingPair).isSome) (other : TradingPair) (side : Side)
    (order : OMOrder) :
    ((orderManager.setOrder other side order).tickerSideOrder tradingPair).isSome := by
  by_cases hpair : tradingPair = other
  · simp [setOrder, hpair]
  · simpa [setOrder, Function.update_of_ne hpair] using h

theorem isSome_touch {tradingPair : TradingPair}
    (h : (orderManager.tickerSideOrder tradingPair).isSome) (other : TradingPair) :
    ((orderManager.touch other).tickerSideOrder tradingPair).isSome := by
  by_cases hpair : tradingPair = other
  · simp [touch, hpair]
  · simpa [touch, Function.update_of_ne hpair] using h

theorem isSome_onOrderResponse {tradingPair : TradingPair}
    (h : (orderManager.tickerSideOrder tradingPair).isSome) (response : MEClientResponse) :
    ((orderManager.onOrderResponse response).tickerSideOrder tradingPair).isSome := by
  rw [onOrderResponse]
  split
  · exact h
  · exact orderManager.isSome_setOrder h _ _ _

/-- CANCEL_REJECTED and INVALID change nothing. -/
theorem onOrderResponse_of_refusal {response : MEClientResponse}
    (h : response.type = .cancelRejected ∨ response.type = .invalid) :
    orderManager.onOrderResponse response = orderManager := by
  have hrespond (order : OMOrder) : respond response order = order := by
    rcases h with htype | htype <;> simp [respond, htype]
  rw [onOrderResponse]
  split
  · rfl
  · rename_i hknown
    obtain ⟨orders, horders⟩ : ∃ orders,
        orderManager.tickerSideOrder response.tradingPair = some orders := by
      simpa [Option.isNone_iff_eq_none, Option.ne_none_iff_exists'] using hknown
    have hsame : Function.update orderManager.tickerSideOrder response.tradingPair (some orders) =
        orderManager.tickerSideOrder := by
      rw [← horders, Function.update_eq_self]
    simp [hrespond, setOrder, getOrder, OrderManager.orders, horders, hsame]

/-- The order a response names, when the pair is known. -/
theorem getOrder_onOrderResponse {response : MEClientResponse}
    (h : (orderManager.tickerSideOrder response.tradingPair).isSome) (tradingPair : TradingPair)
    (side : Side) :
    (orderManager.onOrderResponse response).getOrder tradingPair side =
      if (tradingPair, side) = response.slot then
        respond response (orderManager.getOrder tradingPair side)
      else orderManager.getOrder tradingPair side := by
  have hknown : ¬ (orderManager.tickerSideOrder response.tradingPair).isNone := by
    intro hnone
    simp [Option.isNone_iff_eq_none.mp hnone] at h
  rw [onOrderResponse, if_neg hknown]
  split
  · rename_i hslot
    obtain ⟨rfl, rfl⟩ := Prod.mk.injEq .. ▸ hslot
    exact getOrder_setOrder_self _ _ _ _
  · rename_i hslot
    exact getOrder_setOrder_of_ne _ hslot _

theorem state_respond_of_terminal {response : MEClientResponse} (h : response.Terminal)
    (order : OMOrder) : (respond response order).state = .dead := by
  rcases h with htype | ⟨htype, hleaves⟩
  · simp [respond, htype]
  · simp [respond, htype, hleaves]

/-- A response that is not terminal makes a free slot busy only if it is an
ACCEPTED of that slot. -/
theorem free_onOrderResponse {response : MEClientResponse} (hopen : ¬ response.Terminal)
    (haccepted : ¬ (response.type = .accepted ∧
      orderManager.Free response.tradingPair response.side)) {tradingPair : TradingPair}
    {side : Side} (hfree : orderManager.Free tradingPair side) :
    (orderManager.onOrderResponse response).Free tradingPair side := by
  rw [onOrderResponse]
  split
  · exact hfree
  · by_cases hslot : (tradingPair, side) = (response.tradingPair, response.side)
    · obtain ⟨rfl, rfl⟩ := Prod.mk.injEq .. ▸ hslot
      have hsame : (respond response
          (orderManager.getOrder response.tradingPair response.side)).state =
          (orderManager.getOrder response.tradingPair response.side).state := by
        cases htype : response.type with
        | accepted => exact (haccepted ⟨htype, hfree⟩).elim
        | canceled => exact (hopen (.inl htype)).elim
        | filled =>
            have hleaves : response.leavesQty ≠ 0 := fun hzero => hopen (.inr ⟨htype, hzero⟩)
            simp [respond, htype, hleaves]
        | cancelRejected => simp [respond, htype]
        | invalid => simp [respond, htype]
      rw [Free, getOrder_setOrder_self, hsame]
      exact hfree
    · rw [Free, getOrder_setOrder_of_ne _ hslot]
      exact hfree

end OrderManager

/-! ## What holds in every state -/

/-- The book of the exchange and the queues describe the same orders. -/
structure Consistent (session : Session) : Prop where
  inv : Inv session.system
  length : session.status.length = session.system.sent.length
  requested : ∀ order : Nat, order ∈ session.system.newRequests ↔
    session.status[order]? = some .requested
  ended : ∀ order : Nat, order ∈ session.system.terminalEmitted ↔
    session.status[order]? = some .ended
  nodup : session.system.newRequests.Nodup
  known : ∀ request ∈ session.system.sent,
    (session.system.orderManager.tickerSideOrder request.tradingPair).isSome
  refused : ∀ response ∈ session.refusals, response.type = .cancelRejected

namespace Consistent

variable {session : Session}

theorem init : Consistent {} where
  inv := .init
  length := rfl
  requested := by simp
  ended := by simp
  nodup := List.nodup_nil
  known := by simp
  refused := by simp

theorem status_set {status : List OrderStatus} {order : Nat} (hlt : order < status.length)
    (new old : OrderStatus) (other : Nat) :
    (status.set order new)[other]? = some old ↔
      (other = order ∧ new = old) ∨ (other ≠ order ∧ status[other]? = some old) := by
  by_cases hother : other = order
  · subst hother
    simp [hlt]
  · simp [List.getElem?_set_ne (Ne.symm hother), hother]

theorem status_concat (status : List OrderStatus) (new old : OrderStatus) (order : Nat) :
    (status ++ [new])[order]? = some old ↔
      status[order]? = some old ∨ (order = status.length ∧ new = old) := by
  rcases lt_trichotomy order status.length with hlt | rfl | hgt
  · simp [List.getElem?_append_left hlt, hlt.ne]
  · simp
  · have hnone : status[order]? = none := List.getElem?_eq_none hgt.le
    have hconcat : (status ++ [new])[order]? = none := by
      apply List.getElem?_eq_none
      simpa [Nat.succ_le_iff] using hgt
    simp [hnone, hconcat, hgt.ne']

/-- The order manager may change as long as it knows the pairs of its orders. -/
theorem known_of (h : Consistent session) {orderManager : OrderManager}
    (hknown : ∀ tradingPair,
      (session.system.orderManager.tickerSideOrder tradingPair).isSome →
        (orderManager.tickerSideOrder tradingPair).isSome) :
    ∀ request ∈ session.system.sent,
      (orderManager.tickerSideOrder request.tradingPair).isSome :=
  fun request hmem => hknown _ (h.known request hmem)

theorem newOrder (h : Consistent session) (exchangeId : ExchangeId) (tradingPair : TradingPair)
    (price : Price) (side : Side) (qty : Qty) :
    Consistent (session.step (.newOrder exchangeId tradingPair price side qty)) := by
  have hinv := h.inv.newOrder exchangeId tradingPair price side qty true
  rcases session.system.orderManager.newOrder_cases exchangeId tradingPair price side qty with
    hblocked | ⟨-, hsent⟩
  · simp only [Session.step, System.newOrder, hblocked, Nat.sub_self, List.replicate_zero,
      List.append_nil] at hinv ⊢
    refine ⟨hinv, h.length, h.requested, h.ended, h.nodup, h.known_of fun pair hpair => ?_,
      h.refused⟩
    exact session.system.orderManager.isSome_touch hpair tradingPair
  · simp only [Session.step, System.newOrder, hsent, if_true, List.length_append,
      List.length_singleton, Nat.add_sub_cancel_left, List.replicate_one] at hinv ⊢
    have hnew : session.system.sent.length ∉ session.system.newRequests := by
      rw [h.requested, ← h.length]
      simp
    refine ⟨hinv, ?_, ?_, ?_, ?_, ?_, h.refused⟩
    · simp [h.length]
    · intro order
      rw [List.mem_append, h.requested, List.mem_singleton, ← h.length, status_concat]
      simp
    · intro order
      rw [h.ended, status_concat]
      simp
    · exact List.nodup_append.mpr ⟨h.nodup, List.nodup_singleton _, by
        intro first hfirst second hsecond heq
        rw [List.mem_singleton] at hsecond
        exact hnew (by rwa [← hsecond, ← heq])⟩
    · intro request hmem
      rcases List.mem_append.mp hmem with hearlier | hlast
      · exact session.system.orderManager.isSome_setOrder (h.known request hearlier) _ _ _
      · rw [List.mem_singleton] at hlast
        subst hlast
        simp [OrderManager.setOrder]

theorem cancelOrder (h : Consistent session) (exchangeId : ExchangeId) (tradingPair : TradingPair)
    (side : Side) : Consistent (session.step (.cancelOrder exchangeId tradingPair side)) := by
  refine ⟨?_, h.length, h.requested, h.ended, h.nodup, h.known_of fun pair hpair => ?_, h.refused⟩
  · exact h.inv.step (.cancelOrder session.system exchangeId tradingPair side true)
  · exact session.system.orderManager.isSome_setOrder hpair _ _ _

/-- The answer to a new order moves it from the queue to the book. -/
theorem answerNew (h : Consistent session) {order : Nat} {status : OrderStatus}
    {response : MEClientResponse} (hrequest : order ∈ session.system.newRequests)
    (hconcerns : session.Concerns order response) (hopen : ¬ response.Terminal)
    (hstatus : status ≠ .requested ∧ status ≠ .ended) :
    Consistent (session.answerNew order status response) := by
  obtain ⟨request, hsent, hslot, -⟩ := hconcerns
  have hwaiting := (h.requested order).mp hrequest
  have hlt := (List.getElem?_eq_some_iff.mp hwaiting).1
  have hreceived : Inv { session.system with
      newRequests := session.system.newRequests.erase order
      received := order :: session.system.received } :=
    h.inv.step (.receiveNew session.system order hrequest)
  refine ⟨?_, ?_, ?_, ?_, h.nodup.erase order, h.known, h.refused⟩
  · exact hreceived.emit hsent hslot fun hterminal => (hopen hterminal).elim
  · simpa [Session.answerNew, System.emit] using h.length
  · intro other
    simp only [Session.answerNew, System.emit]
    rw [status_set hlt, h.nodup.mem_erase_iff, h.requested]
    simp [hstatus.1]
  · intro other
    simp only [Session.answerNew, System.emit, if_neg hopen]
    rw [status_set hlt, h.ended]
    by_cases hother : other = order
    · simp [hother, hstatus.2, hwaiting]
    · simp [hother]

/-- A response for a live order may end it. -/
theorem report (h : Consistent session) {order : Nat} {response : MEClientResponse}
    (hlive : session.status[order]? = some .live) (hconcerns : session.Concerns order response) :
    Consistent (session.report order response) := by
  obtain ⟨request, hsent, hslot, -⟩ := hconcerns
  have hlt := (List.getElem?_eq_some_iff.mp hlive).1
  have honce : response.Terminal → order ∉ session.system.terminalEmitted := fun _ hended => by
    simp [(h.ended order).mp hended] at hlive
  refine ⟨h.inv.emit hsent hslot honce, ?_, ?_, ?_, h.nodup, h.known, h.refused⟩
  · simp only [Session.report, System.emit]
    split <;> simp [h.length]
  · intro other
    simp only [Session.report, System.emit]
    split
    · rw [status_set hlt, h.requested]
      by_cases hother : other = order
      · simp [hother, hlive]
      · simp [hother]
    · exact h.requested other
  · intro other
    simp only [Session.report, System.emit]
    split
    · rw [status_set hlt, List.mem_cons, h.ended]
      by_cases hother : other = order
      · simp [hother]
      · simp [hother]
    · exact h.ended other

/-- Cancel requests and refusals do not enter the invariant of the orders. -/
theorem of_frame (h : Consistent session) (next : Session)
    (hinv : Inv next.system) (hstatus : next.status = session.status)
    (horders : next.system.orderManager = session.system.orderManager)
    (hsent : next.system.sent = session.system.sent)
    (hrequests : next.system.newRequests = session.system.newRequests)
    (hemitted : next.system.terminalEmitted = session.system.terminalEmitted)
    (hrefused : ∀ response ∈ next.refusals, response.type = .cancelRejected) :
    Consistent next where
  inv := hinv
  length := by
    rw [hstatus, hsent, h.length]
  requested := by
    simpa only [hstatus, hrequests] using h.requested
  ended := by
    simpa only [hstatus, hemitted] using h.ended
  nodup := by
    rw [hrequests]
    exact h.nodup
  known := by
    simpa only [hsent, horders] using h.known
  refused := hrefused

theorem deliver (h : Consistent session) {order : Nat} {response : MEClientResponse}
    (hflight : (order, response) ∈ session.system.responses) :
    Consistent (session.step (.deliver order response)) := by
  refine ⟨h.inv.deliver hflight, h.length, h.requested, h.ended, h.nodup,
    h.known_of fun pair hpair => ?_, h.refused⟩
  exact session.system.orderManager.isSome_onOrderResponse hpair response

/-- Every move that is enabled keeps the session consistent. -/
theorem step (h : Consistent session) {move : Move} (henabled : session.Enabled move) :
    Consistent (session.step move) := by
  cases move with
  | newOrder exchangeId tradingPair price side qty =>
      exact h.newOrder exchangeId tradingPair price side qty
  | cancelOrder exchangeId tradingPair side => exact h.cancelOrder exchangeId tradingPair side
  | acceptNew order response =>
      obtain ⟨hrequest, hconcerns, htype⟩ := henabled
      exact h.answerNew hrequest hconcerns (by simp [MEClientResponse.Terminal, htype]) (by simp)
  | rejectNew order response =>
      obtain ⟨hrequest, hconcerns, htype⟩ := henabled
      exact h.answerNew hrequest hconcerns (by simp [MEClientResponse.Terminal, htype]) (by simp)
  | fill order response =>
      obtain ⟨hlive, hconcerns, -⟩ := henabled
      exact h.report hlive hconcerns
  | cancel order request response =>
      obtain ⟨hlive, hconcerns, -⟩ := henabled
      have hreport := h.report hlive hconcerns
      apply hreport.of_frame (session.step (.cancel order request response)) _ rfl rfl rfl rfl rfl
        hreport.refused
      exact hreport.inv.of_frame rfl rfl rfl rfl fun _ _ hfree => hfree
  | refuseCancel request response =>
      obtain ⟨-, htype, -⟩ := henabled
      apply h.of_frame (session.step (.refuseCancel request response)) _ rfl rfl rfl rfl rfl
      · intro refusal hmem
        rcases List.mem_cons.mp hmem with rfl | hmem
        · exact htype
        · exact h.refused refusal hmem
      · exact h.inv.of_frame rfl rfl rfl rfl fun _ _ hfree => hfree
  | deliver order response => exact h.deliver henabled
  | deliverRefusal response =>
      have hsame := session.system.orderManager.onOrderResponse_of_refusal
        (.inl (h.refused response henabled))
      have hsystem : (session.step (.deliverRefusal response)).system = session.system := by
        simp [Session.step, hsame]
      apply h.of_frame (session.step (.deliverRefusal response)) _ rfl (by rw [hsystem]) rfl rfl rfl
      · intro refusal hmem
        exact h.refused refusal (List.mem_of_mem_erase hmem)
      · rw [hsystem]
        exact h.inv

/-- Responses are about pairs the order manager knows. -/
theorem known_of_inFlight (h : Consistent session) {order : Nat} {response : MEClientResponse}
    (hflight : (order, response) ∈ session.system.responses) :
    (session.system.orderManager.tickerSideOrder response.tradingPair).isSome := by
  obtain ⟨request, hrequest, hslot⟩ := h.inv.slots order response hflight
  have hpair : response.tradingPair = request.tradingPair := (congrArg Prod.fst hslot :)
  rw [hpair]
  exact h.known request (List.mem_of_getElem? hrequest)

/-- An order that did not end has no end delivered. -/
theorem not_delivered (h : Consistent session) {order : Nat} {status : OrderStatus}
    (hstatus : session.status[order]? = some status) (hopen : status ≠ .ended) :
    order ∉ session.system.terminalDelivered := by
  intro hdelivered
  have hcount := List.count_pos_iff.mpr hdelivered
  have hconserved := h.inv.conserved order
  have hemitted : order ∈ session.system.terminalEmitted :=
    List.count_pos_iff.mp (by omega)
  rw [h.ended, hstatus] at hemitted
  exact hopen (Option.some.inj hemitted)

/-- A live order is outstanding, so its slot is busy. -/
theorem not_free_of_holdsLive (h : Consistent session) {tradingPair : TradingPair} {side : Side}
    (hlive : session.HoldsLive (tradingPair, side)) :
    ¬ session.system.orderManager.Free tradingPair side := by
  obtain ⟨order, request, hstatus, hsent, hslot⟩ := hlive
  intro hfree
  exact h.inv.free tradingPair side hfree order
    ⟨⟨request, hsent, hslot⟩, h.not_delivered hstatus (by simp)⟩

end Consistent


/-! ## Runs that strand no slot -/

/-- Every busy slot has an order that can free it. -/
structure Sound (session : Session) : Prop where
  accepted : ∀ order : Nat, session.status[order]? ≠ some .rejected
  owned : ∀ tradingPair side, ¬ session.system.orderManager.Free tradingPair side →
    ∃ order, session.system.Outstanding (tradingPair, side) order

namespace Sound

variable {session : Session}

theorem init : Sound {} where
  accepted := by simp
  owned := by
    intro tradingPair side hbusy
    exact (hbusy (.inr rfl)).elim

/-- A step that makes no free slot busy and delivers no end. -/
theorem of_frame (h : Sound session) (next : Session)
    (haccepted : ∀ order : Nat, next.status[order]? ≠ some .rejected)
    (hsent : next.system.sent = session.system.sent)
    (hdelivered : next.system.terminalDelivered = session.system.terminalDelivered)
    (hbusy : ∀ tradingPair side, session.system.orderManager.Free tradingPair side →
      next.system.orderManager.Free tradingPair side) : Sound next := by
  refine ⟨haccepted, ?_⟩
  intro tradingPair side hnext
  obtain ⟨order, houtstanding⟩ := h.owned tradingPair side fun hfree =>
    hnext (hbusy tradingPair side hfree)
  refine ⟨order, ?_⟩
  rwa [System.Outstanding, hsent, hdelivered]

/-- An order that is not rejected leaves the book without a rejection. -/
theorem accepted_set (h : Sound session) {order : Nat} {old new : OrderStatus}
    (hold : session.status[order]? = some old) (hnew : new ≠ .rejected) (other : Nat) :
    (session.status.set order new)[other]? ≠ some .rejected := by
  have hlt := (List.getElem?_eq_some_iff.mp hold).1
  intro hrejected
  rcases (Consistent.status_set hlt new .rejected other).mp hrejected with ⟨-, heq⟩ | ⟨-, hother⟩
  · exact hnew heq
  · exact h.accepted other hother

theorem accepted_report (h : Sound session) {order : Nat}
    (hlive : session.status[order]? = some .live) (response : MEClientResponse) (other : Nat) :
    (session.report order response).status[other]? ≠ some .rejected := by
  simp only [Session.report]
  split
  · exact h.accepted_set hlive (by simp) other
  · exact h.accepted other

theorem newOrder (h : Sound session) (hconsistent : Consistent session) (exchangeId : ExchangeId)
    (tradingPair : TradingPair) (price : Price) (side : Side) (qty : Qty) :
    Sound (session.step (.newOrder exchangeId tradingPair price side qty)) := by
  have hnext := hconsistent.newOrder exchangeId tradingPair price side qty
  rcases session.system.orderManager.newOrder_cases exchangeId tradingPair price side qty with
    hblocked | ⟨-, hsent⟩
  · simp only [Session.step, System.newOrder, hblocked, Nat.sub_self, List.replicate_zero,
      List.append_nil]
    refine h.of_frame _ h.accepted rfl rfl fun other otherSide hfree => ?_
    exact (session.system.orderManager.free_touch_iff tradingPair other otherSide).mpr hfree
  · simp only [Session.step, System.newOrder, hsent, if_true, List.length_append,
      List.length_singleton, Nat.add_sub_cancel_left, List.replicate_one] at hnext ⊢
    have hstatus : (session.status ++ [OrderStatus.requested])[session.system.sent.length]? =
        some .requested := by
      rw [← hconsistent.length, Consistent.status_concat]
      simp
    constructor
    · intro order hrejected
      rcases (Consistent.status_concat _ _ _ _).mp hrejected with hearlier | ⟨-, heq⟩
      · exact h.accepted order hearlier
      · simp at heq
    · intro other otherSide hbusy
      by_cases hslot : (other, otherSide) = (tradingPair, side)
      · -- the new order owns its slot
        refine ⟨session.system.sent.length, ⟨_, List.getElem?_concat_length, hslot.symm⟩, ?_⟩
        exact hnext.not_delivered hstatus (by simp)
      · obtain ⟨order, ⟨request, hrequest, hmine⟩, hopen⟩ := h.owned other otherSide fun hfree => by
          apply hbusy
          rw [OrderManager.Free] at hfree ⊢
          rwa [← session.system.orderManager.getOrder_setOrder_of_ne hslot] at hfree
        refine ⟨order, ⟨request, ?_, hmine⟩, hopen⟩
        rw [List.getElem?_append_left (List.getElem?_eq_some_iff.mp hrequest).1]
        exact hrequest

theorem cancelOrder (h : Sound session) (exchangeId : ExchangeId) {tradingPair : TradingPair}
    {side : Side} (hbusy : ¬ session.system.orderManager.Free tradingPair side) :
    Sound (session.step (.cancelOrder exchangeId tradingPair side)) := by
  apply h.of_frame (session.step (.cancelOrder exchangeId tradingPair side)) h.accepted rfl rfl
  intro other otherSide hfree
  have hslot : (other, otherSide) ≠ (tradingPair, side) := by
    intro heq
    obtain ⟨rfl, rfl⟩ := Prod.mk.injEq .. ▸ heq
    exact hbusy hfree
  rw [OrderManager.Free] at hfree ⊢
  rwa [← session.system.orderManager.getOrder_setOrder_of_ne hslot] at hfree

/-- A terminal response frees its slot, and the others keep their order. -/
theorem deliver_terminal (h : Sound session) (hconsistent : Consistent session) {order : Nat}
    {response : MEClientResponse} (hflight : (order, response) ∈ session.system.responses)
    (hterminal : response.Terminal) : Sound (session.step (.deliver order response)) := by
  obtain ⟨request, hrequest, hresponse⟩ := hconsistent.inv.slots order response hflight
  have hknown := hconsistent.known_of_inFlight hflight
  refine ⟨h.accepted, ?_⟩
  intro tradingPair side hbusy
  have hread := session.system.orderManager.getOrder_onOrderResponse hknown tradingPair side
  have hslot : (tradingPair, side) ≠ response.slot := by
    intro heq
    apply hbusy
    left
    simp only [Session.step, System.deliver, hread, if_pos heq]
    exact OrderManager.state_respond_of_terminal hterminal _
  obtain ⟨owner, ⟨owned, howned, hmine⟩, hopen⟩ := h.owned tradingPair side fun hfree => by
    apply hbusy
    rw [OrderManager.Free] at hfree ⊢
    simp only [Session.step, System.deliver, hread, if_neg hslot]
    exact hfree
  refine ⟨owner, ⟨owned, howned, hmine⟩, ?_⟩
  simp only [Session.step, System.deliver, if_pos hterminal, List.mem_cons, not_or]
  refine ⟨?_, hopen⟩
  rintro rfl
  rw [hrequest, Option.some.injEq] at howned
  subst howned
  exact hslot (hmine.symm.trans hresponse.symm)

theorem deliver (h : Sound session) (hconsistent : Consistent session) {order : Nat}
    {response : MEClientResponse} (hflight : (order, response) ∈ session.system.responses)
    (hstrands : ¬ session.Strands (.deliver order response)) :
    Sound (session.step (.deliver order response)) := by
  by_cases hterminal : response.Terminal
  · exact h.deliver_terminal hconsistent hflight hterminal
  · apply h.of_frame (session.step (.deliver order response)) h.accepted rfl
    · simp only [Session.step, System.deliver, if_neg hterminal]
    · intro tradingPair side hfree
      exact session.system.orderManager.free_onOrderResponse hterminal hstrands hfree

/-- Every enabled move that strands no slot. -/
theorem step (h : Sound session) (hconsistent : Consistent session) {move : Move}
    (henabled : session.Enabled move) (hstrands : ¬ session.Strands move) :
    Sound (session.step move) := by
  cases move with
  | newOrder exchangeId tradingPair price side qty =>
      exact h.newOrder hconsistent exchangeId tradingPair price side qty
  | cancelOrder exchangeId tradingPair side => exact h.cancelOrder exchangeId hstrands
  | acceptNew order response =>
      have hwaiting := (hconsistent.requested order).mp henabled.1
      refine h.of_frame (session.step (.acceptNew order response)) ?_ rfl rfl fun _ _ hfree => hfree
      exact h.accepted_set hwaiting (by simp)
  | rejectNew order response => exact (hstrands trivial).elim
  | fill order response =>
      refine h.of_frame (session.step (.fill order response)) ?_ rfl rfl fun _ _ hfree => hfree
      exact h.accepted_report henabled.1 response
  | cancel order request response =>
      refine h.of_frame (session.step (.cancel order request response)) ?_ rfl rfl
        fun _ _ hfree => hfree
      exact h.accepted_report henabled.1 response
  | refuseCancel request response =>
      exact h.of_frame (session.step (.refuseCancel request response)) h.accepted rfl rfl
        fun _ _ hfree => hfree
  | deliver order response => exact h.deliver hconsistent henabled hstrands
  | deliverRefusal response =>
      have hsame := session.system.orderManager.onOrderResponse_of_refusal
        (.inl (hconsistent.refused response henabled))
      refine h.of_frame (session.step (.deliverRefusal response)) h.accepted rfl rfl
        fun _ _ hfree => ?_
      simpa only [Session.step, hsame] using hfree

/-- With nothing in flight the order that owns a busy slot is live. -/
theorem agrees (h : Sound session) (hconsistent : Consistent session)
    (hquiescent : session.Quiescent) : session.Agrees := by
  obtain ⟨hrequests, -, hresponses, -⟩ := hquiescent
  intro tradingPair side
  constructor
  · intro hbusy
    obtain ⟨order, ⟨request, hsent, hslot⟩, hopen⟩ := h.owned tradingPair side hbusy
    refine ⟨order, request, ?_, hsent, hslot⟩
    have hlt : order < session.status.length := by
      rw [hconsistent.length]
      exact (List.getElem?_eq_some_iff.mp hsent).1
    have hstatus : session.status[order]? = some session.status[order] :=
      List.getElem?_eq_getElem hlt
    cases hcase : session.status[order] with
    | live => rw [hstatus, hcase]
    | requested =>
        rw [hcase] at hstatus
        have hwaiting := (hconsistent.requested order).mpr hstatus
        simp [hrequests] at hwaiting
    | rejected =>
        rw [hcase] at hstatus
        exact (h.accepted order hstatus).elim
    | ended =>
        rw [hcase] at hstatus
        -- its end was emitted and is not in flight, so it was delivered
        have hemitted := List.count_pos_iff.mpr ((hconsistent.ended order).mpr hstatus)
        have hconserved := hconsistent.inv.conserved order
        simp only [System.terminalInFlight, hresponses, List.countP_nil, Nat.zero_add] at hconserved
        exact (hopen (List.count_pos_iff.mp (by omega))).elim
  · intro hlive
    exact hconsistent.not_free_of_holdsLive hlive

end Sound

/-! ## A stranded slot stays stranded -/

/-- The slot is busy and every order sent for it is over. -/
structure Stuck (session : Session) (slot : Slot) : Prop where
  busy : ¬ session.system.orderManager.Free slot.1 slot.2
  finished : ∀ (order : Nat) (request : RequestNewOrder),
    session.system.sent[order]? = some request → request.slot = slot →
      session.status[order]? = some .rejected ∨ order ∈ session.system.terminalDelivered

namespace Stuck

variable {session : Session} {slot : Slot}

theorem not_agrees (h : Stuck session slot) (hconsistent : Consistent session) :
    ¬ session.Agrees := by
  intro hagrees
  obtain ⟨order, request, hlive, hsent, hslot⟩ := (hagrees slot.1 slot.2).mp h.busy
  rcases h.finished order request hsent hslot with hrejected | hdelivered
  · simp [hlive] at hrejected
  · exact hconsistent.not_delivered hlive (by simp) hdelivered

/-- A step that does not free the slot and sends no order for it. -/
theorem of_frame (h : Stuck session slot) (next : Session)
    (hfree : next.system.orderManager.Free slot.1 slot.2 →
      session.system.orderManager.Free slot.1 slot.2)
    (hsent : ∀ (order : Nat) (request : RequestNewOrder),
      next.system.sent[order]? = some request → request.slot = slot →
        session.system.sent[order]? = some request)
    (hrejected : ∀ order : Nat, session.status[order]? = some .rejected →
      next.status[order]? = some .rejected)
    (hdelivered : ∀ order ∈ session.system.terminalDelivered,
      order ∈ next.system.terminalDelivered) : Stuck next slot := by
  refine ⟨fun hnext => h.busy (hfree hnext), ?_⟩
  intro order request hrequest hslot
  rcases h.finished order request (hsent order request hrequest hslot) hslot with hmine | hmine
  · exact .inl (hrejected order hmine)
  · exact .inr (hdelivered order hmine)

/-- The book forgets no rejection. -/
theorem rejected_set {status : List OrderStatus} {changed : Nat} {old new : OrderStatus}
    (hold : status[changed]? = some old) (hopen : old ≠ .rejected) {order : Nat}
    (h : status[order]? = some .rejected) : (status.set changed new)[order]? = some .rejected := by
  have hne : order ≠ changed := by
    rintro rfl
    rw [hold, Option.some.injEq] at h
    exact hopen h
  rw [List.getElem?_set_ne hne.symm, h]

theorem rejected_report {changed : Nat} (hlive : session.status[changed]? = some .live)
    (response : MEClientResponse) {order : Nat} (h : session.status[order]? = some .rejected) :
    (session.report changed response).status[order]? = some .rejected := by
  simp only [Session.report]
  split
  · exact rejected_set hlive (by simp) h
  · exact h

theorem newOrder (h : Stuck session slot) (exchangeId : ExchangeId) (tradingPair : TradingPair)
    (price : Price) (side : Side) (qty : Qty) :
    Stuck (session.step (.newOrder exchangeId tradingPair price side qty)) slot := by
  rcases session.system.orderManager.newOrder_cases exchangeId tradingPair price side qty with
    hblocked | ⟨hfree, hsent⟩
  · simp only [Session.step, System.newOrder, hblocked, Nat.sub_self, List.replicate_zero,
      List.append_nil]
    refine h.of_frame _ ?_ (fun _ _ hmem _ => hmem) (fun _ hmem => hmem) fun _ hmem => hmem
    exact (session.system.orderManager.free_touch_iff tradingPair slot.1 slot.2).mp
  · simp only [Session.step, System.newOrder, hsent, if_true, List.length_append,
      List.length_singleton, Nat.add_sub_cancel_left, List.replicate_one]
    refine h.of_frame _ ?_ ?_ ?_ fun _ hmem => hmem
    · intro hnext
      exact (session.system.orderManager.free_of_free_setOrder rfl hnext).2
    · intro order request hrequest hslot
      rw [List.getElem?_append] at hrequest
      split at hrequest
      · exact hrequest
      · -- the new order is of a free slot
        have hnew := List.mem_of_getElem? hrequest
        rw [List.mem_singleton] at hnew
        subst hnew
        exact (h.busy (by rw [← hslot]; exact hfree)).elim
    · intro order hrejected
      exact (Consistent.status_concat _ _ _ _).mpr (.inl hrejected)

theorem deliver (h : Stuck session slot) (hconsistent : Consistent session) {order : Nat}
    {response : MEClientResponse} (hflight : (order, response) ∈ session.system.responses) :
    Stuck (session.step (.deliver order response)) slot := by
  apply h.of_frame (session.step (.deliver order response))
  · intro hnext
    rcases session.system.orderManager.free_of_free_onOrderResponse hnext with
      hfree | ⟨hslot, hterminal⟩
    · exact hfree
    · -- an end in flight belongs to an order that is not over
      obtain ⟨⟨request, hsent, hmine⟩, hopen⟩ :=
        hconsistent.inv.outstanding_of_inFlight hflight hterminal
      rcases h.finished order request hsent (hmine.trans hslot.symm) with hrejected | hdelivered
      · have hinFlight : 0 < session.system.terminalInFlight order :=
          List.countP_pos_iff.mpr ⟨(order, response), hflight, by simp [hterminal]⟩
        have hconserved := hconsistent.inv.conserved order
        have hended := (hconsistent.ended order).mp (List.count_pos_iff.mp (by omega))
        simp [hrejected] at hended
      · exact (hopen hdelivered).elim
  · exact fun _ _ hmem _ => hmem
  · exact fun _ hmem => hmem
  · intro other hmem
    simp only [Session.step, System.deliver]
    split
    · exact List.mem_cons_of_mem _ hmem
    · exact hmem

theorem step (h : Stuck session slot) (hconsistent : Consistent session) {move : Move}
    (henabled : session.Enabled move) : Stuck (session.step move) slot := by
  cases move with
  | newOrder exchangeId tradingPair price side qty =>
      exact h.newOrder exchangeId tradingPair price side qty
  | cancelOrder exchangeId tradingPair side =>
      refine h.of_frame (session.step (.cancelOrder exchangeId tradingPair side)) ?_
        (fun _ _ hmem _ => hmem) (fun _ hmem => hmem) fun _ hmem => hmem
      exact session.system.orderManager.free_of_free_cancelOrder exchangeId
  | acceptNew order response =>
      have hwaiting := (hconsistent.requested order).mp henabled.1
      exact h.of_frame (session.step (.acceptNew order response)) id (fun _ _ hmem _ => hmem)
        (fun _ => rejected_set hwaiting (by simp)) fun _ hmem => hmem
  | rejectNew order response =>
      have hwaiting := (hconsistent.requested order).mp henabled.1
      exact h.of_frame (session.step (.rejectNew order response)) id (fun _ _ hmem _ => hmem)
        (fun _ => rejected_set hwaiting (by simp)) fun _ hmem => hmem
  | fill order response =>
      exact h.of_frame (session.step (.fill order response)) id (fun _ _ hmem _ => hmem)
        (fun _ => rejected_report henabled.1 response) fun _ hmem => hmem
  | cancel order request response =>
      exact h.of_frame (session.step (.cancel order request response)) id
        (fun _ _ hmem _ => hmem) (fun _ => rejected_report henabled.1 response) fun _ hmem => hmem
  | refuseCancel request response =>
      exact h.of_frame (session.step (.refuseCancel request response)) id
        (fun _ _ hmem _ => hmem) (fun _ hmem => hmem) fun _ hmem => hmem
  | deliver order response => exact h.deliver hconsistent henabled
  | deliverRefusal response =>
      have hsame := session.system.orderManager.onOrderResponse_of_refusal
        (.inl (hconsistent.refused response henabled))
      refine h.of_frame (session.step (.deliverRefusal response)) ?_ (fun _ _ hmem _ => hmem)
        (fun _ hmem => hmem) fun _ hmem => hmem
      intro hfree
      simpa only [Session.step, hsame] using hfree

/-- In a free slot every order is over. -/
theorem finished_of_free (hconsistent : Consistent session) {tradingPair : TradingPair}
    {side : Side} (hfree : session.system.orderManager.Free tradingPair side) {order : Nat}
    {request : RequestNewOrder} (hsent : session.system.sent[order]? = some request)
    (hslot : request.slot = (tradingPair, side)) : order ∈ session.system.terminalDelivered := by
  by_contra hopen
  exact hconsistent.inv.free tradingPair side hfree order ⟨⟨request, hsent, hslot⟩, hopen⟩

/-- The slot of a rejected order has no other order to end it. -/
theorem of_rejectNew (hconsistent : Consistent session) {order : Nat}
    {response : MEClientResponse} (henabled : session.Enabled (.rejectNew order response)) :
    Stuck (session.step (.rejectNew order response)) response.slot := by
  obtain ⟨hrequest, ⟨request, hsent, hslot, -⟩, -⟩ := henabled
  have hwaiting := (hconsistent.requested order).mp hrequest
  have hlt := (List.getElem?_eq_some_iff.mp hwaiting).1
  have hopen : session.system.Outstanding response.slot order :=
    ⟨⟨request, hsent, hslot.symm⟩, hconsistent.not_delivered hwaiting (by simp)⟩
  constructor
  · intro hfree
    exact hconsistent.inv.free _ _ hfree order hopen
  · intro other earlier hother hmine
    by_cases hdelivered : other ∈ session.system.terminalDelivered
    · exact .inr hdelivered
    · left
      have hsame : other = order :=
        hconsistent.inv.unique _ _ _ ⟨⟨earlier, hother, hmine⟩, hdelivered⟩ hopen
      exact (Consistent.status_set hlt .rejected .rejected other).mpr (.inl ⟨hsame, rfl⟩)

/-- Each step that strands a slot leaves one stuck. -/
theorem of_strands (hconsistent : Consistent session) {move : Move}
    (henabled : session.Enabled move) (hstrands : session.Strands move) :
    ∃ slot, Stuck (session.step move) slot := by
  cases move with
  | rejectNew order response => exact ⟨_, of_rejectNew hconsistent henabled⟩
  | cancelOrder exchangeId tradingPair side =>
      refine ⟨(tradingPair, side), ?_, ?_⟩
      · simp [Session.step, System.cancelOrder, OrderManager.cancelOrder, OrderManager.Free]
      · intro order request hsent hslot
        exact .inr (finished_of_free hconsistent hstrands hsent hslot)
  | deliver order response =>
      obtain ⟨htype, hfree⟩ := hstrands
      have hopen : ¬ response.Terminal := by simp [MEClientResponse.Terminal, htype]
      refine ⟨response.slot, ?_, ?_⟩
      · have hread := session.system.orderManager.getOrder_onOrderResponse
          (hconsistent.known_of_inFlight henabled) response.tradingPair response.side
        have hslot : (response.tradingPair, response.side) = response.slot := rfl
        rw [if_pos hslot] at hread
        simp [Session.step, System.deliver, OrderManager.Free, MEClientResponse.slot, hread,
          OrderManager.respond, htype]
      · intro other earlier hsent hslot
        right
        simpa [Session.step, System.deliver, hopen] using
          finished_of_free hconsistent hfree hsent hslot
  | newOrder => exact hstrands.elim
  | acceptNew => exact hstrands.elim
  | fill => exact hstrands.elim
  | cancel => exact hstrands.elim
  | refuseCancel => exact hstrands.elim
  | deliverRefusal => exact hstrands.elim

end Stuck

/-! ## Runs -/

section Runs

variable {moves : List Move}

/-- The exchange makes only moves it can make. -/
def Answered (moves : List Move) : Prop :=
  EveryStep (fun before move => (session.run before).Enabled move) moves

/-- No step of the run strands a slot. -/
def Unstranded (moves : List Move) : Prop :=
  EveryStep (fun before move => ¬ (session.run before).Strands move) moves

theorem consistent_run (h : Answered moves) : Consistent (session.run moves) := by
  induction moves using List.reverseRecOn with
  | nil => exact .init
  | append_singleton moves move ih =>
      obtain ⟨hinit, hlast⟩ := EveryStep.concat_iff.mp h
      rw [Machine.run_concat]
      exact (ih hinit).step hlast

theorem sound_run (h : Answered moves) (hunstranded : Unstranded moves) :
    Sound (session.run moves) := by
  induction moves using List.reverseRecOn with
  | nil => exact .init
  | append_singleton moves move ih =>
      obtain ⟨hinit, hlast⟩ := EveryStep.concat_iff.mp h
      obtain ⟨hearlier, hmove⟩ := EveryStep.concat_iff.mp hunstranded
      rw [Machine.run_concat]
      exact (ih hinit hearlier).step (consistent_run hinit) hlast hmove

theorem stuck_run (h : Answered moves) (hstranded : ¬ Unstranded moves) :
    ∃ slot, Stuck (session.run moves) slot := by
  induction moves using List.reverseRecOn with
  | nil => exact (hstranded EveryStep.nil).elim
  | append_singleton moves move ih =>
      obtain ⟨hinit, hlast⟩ := EveryStep.concat_iff.mp h
      rw [Machine.run_concat]
      by_cases hearlier : Unstranded moves
      · have hmove : (session.run moves).Strands move := by
          by_contra hmove
          exact hstranded (EveryStep.concat_iff.mpr ⟨hearlier, hmove⟩)
        exact Stuck.of_strands (consistent_run hinit) hlast hmove
      · obtain ⟨slot, hstuck⟩ := ih hinit hearlier
        exact ⟨slot, hstuck.step (consistent_run hinit) hlast⟩

end Runs

/-- When nothing is in flight, the busy slots are those with a live order at the
exchange if and only if the run stranded no slot: no order was rejected, no free
slot was canceled and no ACCEPTED arrived at a free slot. -/
theorem quiescent_agreement_iff (moves : List Move) (hanswered : Answered moves)
    (hquiescent : (session.run moves).Quiescent) :
    (session.run moves).Agrees ↔ Unstranded moves := by
  constructor
  · intro hagrees
    by_contra hstranded
    obtain ⟨slot, hstuck⟩ := stuck_run hanswered hstranded
    exact hstuck.not_agrees (consistent_run hanswered) hagrees
  · intro hunstranded
    exact (sound_run hanswered hunstranded).agrees (consistent_run hanswered) hquiescent

/-- A response to the first bid on a pair. -/
def bidResponse (type : ClientResponseType) : MEClientResponse where
  type
  tradingPair := ⟨2, 1⟩
  orderId := 1
  side := .kBid

/-- A bid is accepted and the exchange refuses to cancel it. -/
def refusedCancel : List Move :=
  [.newOrder .kBinance ⟨2, 1⟩ 100 .kBid 5, .acceptNew 0 (bidResponse .accepted),
    .deliver 0 (bidResponse .accepted), .cancelOrder .kBinance ⟨2, 1⟩ .kBid,
    .refuseCancel ⟨.kBinance, ⟨2, 1⟩, 1⟩ (bidResponse .cancelRejected),
    .deliverRefusal (bidResponse .cancelRejected)]

/-- The bid that could not be canceled is the live order of its busy slot. -/
theorem quiescent_agreement_refusedCancel :
    Answered refusedCancel ∧ (session.run refusedCancel).Quiescent ∧ Unstranded refusedCancel ∧
      (session.run refusedCancel).Agrees := by
  have hanswered : Answered refusedCancel := by unfold Answered; decide
  have hquiescent : (session.run refusedCancel).Quiescent := by decide
  have hunstranded : Unstranded refusedCancel := by unfold Unstranded; decide
  exact ⟨hanswered, hquiescent, hunstranded,
    (quiescent_agreement_iff _ hanswered hquiescent).mpr hunstranded⟩

/-- The exchange rejects the first bid on a pair. -/
def rejectedBid : List Move :=
  [.newOrder .kBinance ⟨2, 1⟩ 100 .kBid 5, .rejectNew 0 (bidResponse .invalid),
    .deliver 0 (bidResponse .invalid)]

/-- After a rejection the slot waits for an order that does not exist, and takes
no other. -/
theorem rejectedBid_disagrees :
    Answered rejectedBid ∧ (session.run rejectedBid).Quiescent ∧
      ((session.run rejectedBid).system.orderManager.getOrder ⟨2, 1⟩ .kBid).state = .pendingNew ∧
      ¬ (session.run rejectedBid).HoldsLive (⟨2, 1⟩, .kBid) ∧
      ¬ (session.run rejectedBid).Agrees := by
  have hbusy :
      ((session.run rejectedBid).system.orderManager.getOrder ⟨2, 1⟩ .kBid).state =
        .pendingNew := by decide
  have hnone : ¬ (session.run rejectedBid).HoldsLive (⟨2, 1⟩, .kBid) := by
    rintro ⟨order, request, hlive, -⟩
    have hstatus : (session.run rejectedBid).status = [.rejected] := by decide
    have hmem := List.mem_of_getElem? hlive
    simp [hstatus] at hmem
  refine ⟨by unfold Answered; decide, by decide, hbusy, hnone, ?_⟩
  intro hagrees
  apply hnone
  rw [← hagrees ⟨2, 1⟩ .kBid, OrderManager.Free, hbusy]
  simp

end CryptoBot.Orders

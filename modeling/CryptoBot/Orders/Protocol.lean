/-
# The order manager and its exchange

The order manager talks to an exchange through queues: requests that may be
refused by a full queue, and responses that arrive late and in any order.  The
exchange is only assumed to end each order at most once, with a `CANCELED` or a
final `FILLED`; besides that it may send any number of other responses for the
orders it received, and it may ignore cancels.

Orders are told apart by their position in the log of sent requests, which is a
ghost: the ids the order manager assigns wrap around, and no handler compares
them.  The law is that a slot never has two orders whose end was not delivered
yet (`outstanding_unique`).  It rests on two facts.  A slot becomes free only
when a terminal response of its slot is delivered, and terminal responses are
conserved: those in flight and those delivered are together those emitted, at
most one per order.
-/

import CryptoBot.Orders.OrderManager
import Mathlib.Logic.Relation
import Mathlib.Data.List.Basic

namespace CryptoBot.Orders

open CryptoBot.Common

/-- A trading pair and a side. -/
abbrev Slot := TradingPair × Side

def RequestNewOrder.slot (request : RequestNewOrder) : Slot := (request.tradingPair, request.side)

def MEClientResponse.slot (response : MEClientResponse) : Slot :=
  (response.tradingPair, response.side)

/-- The order manager, its queues and the exchange.  `sent` logs the requests of
`NewOrder`, and the other lists refer to orders by their position in it. -/
structure System where
  orderManager : OrderManager := {}
  sent : List RequestNewOrder := []
  newRequests : List Nat := []
  cancelRequests : List RequestCancelOrder := []
  received : List Nat := []
  responses : List (Nat × MEClientResponse) := []
  terminalEmitted : List Nat := []
  terminalDelivered : List Nat := []

namespace System

variable (system : System)

/-- A call of `NewOrder`; `enqueued` is the result of `try_enqueue`. -/
def newOrder (exchangeId : ExchangeId) (tradingPair : TradingPair) (price : Price) (side : Side)
    (qty : Qty) (enqueued : Bool) : System :=
  match system.orderManager.newOrder exchangeId tradingPair price side qty with
  | (orderManager, none) => { system with orderManager := orderManager }
  | (orderManager, some request) =>
      { system with
        orderManager := orderManager
        sent := system.sent ++ [request]
        newRequests :=
          if enqueued then system.newRequests ++ [system.sent.length] else system.newRequests }

/-- A call of `CancelOrder`; `enqueued` is the result of `try_enqueue`. -/
def cancelOrder (exchangeId : ExchangeId) (tradingPair : TradingPair) (side : Side)
    (enqueued : Bool) : System :=
  let (orderManager, request) :=
    system.orderManager.cancelOrder exchangeId tradingPair side
  { system with
    orderManager := orderManager
    cancelRequests :=
      if enqueued then system.cancelRequests ++ [request] else system.cancelRequests }

/-- The exchange puts a response for an order on its way. -/
def emit (order : Nat) (response : MEClientResponse) : System :=
  { system with
    responses := (order, response) :: system.responses
    terminalEmitted :=
      if response.Terminal then order :: system.terminalEmitted else system.terminalEmitted }

/-- A response arrives at the order manager. -/
def deliver (order : Nat) (response : MEClientResponse) : System :=
  { system with
    orderManager := system.orderManager.onOrderResponse response
    responses := system.responses.erase (order, response)
    terminalDelivered :=
      if response.Terminal then order :: system.terminalDelivered else system.terminalDelivered }

end System

/-- One step of the system.  Calls, receptions, emissions and deliveries may
follow each other in any order. -/
inductive Step : System → System → Prop
  | newOrder (system : System) (exchangeId : ExchangeId) (tradingPair : TradingPair)
      (price : Price) (side : Side) (qty : Qty) (enqueued : Bool) :
      Step system (system.newOrder exchangeId tradingPair price side qty enqueued)
  | cancelOrder (system : System) (exchangeId : ExchangeId) (tradingPair : TradingPair)
      (side : Side) (enqueued : Bool) :
      Step system (system.cancelOrder exchangeId tradingPair side enqueued)
  | receiveNew (system : System) (order : Nat) (hrequest : order ∈ system.newRequests) :
      Step system { system with
        newRequests := system.newRequests.erase order
        received := order :: system.received }
  | receiveCancel (system : System) (request : RequestCancelOrder)
      (hrequest : request ∈ system.cancelRequests) :
      Step system { system with cancelRequests := system.cancelRequests.erase request }
  | emit (system : System) (order : Nat) (request : RequestNewOrder) (response : MEClientResponse)
      (hreceived : order ∈ system.received) (hrequest : system.sent[order]? = some request)
      (hslot : response.slot = request.slot)
      (honce : response.Terminal → order ∉ system.terminalEmitted) :
      Step system (system.emit order response)
  | deliver (system : System) (order : Nat) (response : MEClientResponse)
      (hflight : (order, response) ∈ system.responses) :
      Step system (system.deliver order response)

/-- Reachable from an unused order manager. -/
def Reachable (system : System) : Prop := Relation.ReflTransGen Step {} system

namespace System

variable (system : System)

/-- An order of the slot was sent and its terminal response was not delivered. -/
def Outstanding (slot : Slot) (order : Nat) : Prop :=
  (∃ request, system.sent[order]? = some request ∧ request.slot = slot) ∧
    order ∉ system.terminalDelivered

/-- The terminal responses of an order that are in flight. -/
def terminalInFlight (order : Nat) : Nat :=
  system.responses.countP fun response => response.1 = order ∧ response.2.Terminal

end System

/-- The invariant of the protocol. -/
structure Inv (system : System) : Prop where
  unique : ∀ slot first second, system.Outstanding slot first → system.Outstanding slot second →
    first = second
  free : ∀ tradingPair side, system.orderManager.Free tradingPair side →
    ∀ order, ¬ system.Outstanding (tradingPair, side) order
  slots : ∀ order response, (order, response) ∈ system.responses →
    ∃ request, system.sent[order]? = some request ∧ response.slot = request.slot
  conserved : ∀ order, system.terminalInFlight order + system.terminalDelivered.count order =
    system.terminalEmitted.count order
  once : ∀ order, system.terminalEmitted.count order ≤ 1

namespace Inv

variable {system : System}

theorem init : Inv {} where
  unique := by simp [System.Outstanding]
  free := by simp [System.Outstanding]
  slots := by simp
  conserved := by simp [System.terminalInFlight]
  once := by simp

/-- Steps that leave the logs and the responses alone only have to keep the
slots. -/
theorem of_frame (hinv : Inv system) {next : System} (hsent : next.sent = system.sent)
    (hresponses : next.responses = system.responses)
    (hemitted : next.terminalEmitted = system.terminalEmitted)
    (hdelivered : next.terminalDelivered = system.terminalDelivered)
    (hfree : ∀ tradingPair side, next.orderManager.Free tradingPair side →
      system.orderManager.Free tradingPair side) : Inv next := by
  have houtstanding (slot : Slot) (order : Nat) :
      next.Outstanding slot order ↔ system.Outstanding slot order := by
    rw [System.Outstanding, System.Outstanding, hsent, hdelivered]
  refine ⟨?_, ?_, ?_, ?_, ?_⟩
  · simpa only [houtstanding] using hinv.unique
  · intro tradingPair side hnext order
    rw [houtstanding]
    exact hinv.free tradingPair side (hfree tradingPair side hnext) order
  · simpa only [hsent, hresponses] using hinv.slots
  · simpa only [System.terminalInFlight, hresponses, hemitted, hdelivered] using hinv.conserved
  · simpa only [hemitted] using hinv.once

/-- An outstanding order of a longer log is an earlier one or the last. -/
theorem outstanding_of_concat (system : System) (request : RequestNewOrder) {next : System}
    {slot : Slot} {order : Nat} (h : next.Outstanding slot order)
    (hsent : next.sent = system.sent ++ [request])
    (hdelivered : next.terminalDelivered = system.terminalDelivered) :
    system.Outstanding slot order ∨ (order = system.sent.length ∧ request.slot = slot) := by
  obtain ⟨⟨found, hfound, hslot⟩, hopen⟩ := h
  rw [hdelivered] at hopen
  rw [hsent, List.getElem?_append] at hfound
  split at hfound
  · exact .inl ⟨⟨found, hfound, hslot⟩, hopen⟩
  · rename_i hlength
    have hsingle := List.getElem?_eq_some_iff.mp hfound
    obtain ⟨hindex, hvalue⟩ := hsingle
    have hzero : order - system.sent.length = 0 := by simpa using hindex
    refine .inr ⟨by omega, ?_⟩
    simp only [hzero, List.getElem_cons_zero] at hvalue
    rw [hvalue, hslot]

/-- An order enters the log only in a free slot. -/
theorem newOrder (hinv : Inv system) (exchangeId : ExchangeId) (tradingPair : TradingPair)
    (price : Price) (side : Side) (qty : Qty) (enqueued : Bool) :
    Inv (system.newOrder exchangeId tradingPair price side qty enqueued) := by
  rcases system.orderManager.newOrder_cases exchangeId tradingPair price side qty with
    hblocked | ⟨hfree, hsent⟩
  · simp only [System.newOrder, hblocked]
    refine hinv.of_frame rfl rfl rfl rfl fun other otherSide => ?_
    exact (system.orderManager.free_touch_iff tradingPair other otherSide).mp
  · set request : RequestNewOrder :=
      ⟨exchangeId, tradingPair, system.orderManager.nextOrderId, side, price, qty⟩
    simp only [System.newOrder, hsent]
    refine ⟨?_, ?_, ?_, hinv.conserved, hinv.once⟩
    · intro slot first second hfirst hsecond
      rcases outstanding_of_concat system request hfirst rfl rfl with hfirst | ⟨rfl, rfl⟩ <;>
        rcases outstanding_of_concat system request hsecond rfl rfl with hsecond | ⟨rfl, hslot⟩
      · exact hinv.unique slot first second hfirst hsecond
      · subst hslot
        exact (hinv.free tradingPair side hfree first hfirst).elim
      · exact (hinv.free tradingPair side hfree second hsecond).elim
      · rfl
    · intro other otherSide hother order houtstanding
      obtain ⟨hne, hold⟩ := system.orderManager.free_of_free_setOrder rfl hother
      rcases outstanding_of_concat system request houtstanding rfl rfl with hearlier | ⟨-, hslot⟩
      · exact hinv.free other otherSide hold order hearlier
      · exact hne hslot.symm
    · intro order response hflight
      obtain ⟨earlier, hearlier, hslot⟩ := hinv.slots order response hflight
      refine ⟨earlier, ?_, hslot⟩
      rw [List.getElem?_append_left (List.getElem?_eq_some_iff.mp hearlier).1]
      exact hearlier

/-- A response put on its way is accounted for. -/
theorem emit (hinv : Inv system) {order : Nat} {request : RequestNewOrder}
    {response : MEClientResponse} (hrequest : system.sent[order]? = some request)
    (hslot : response.slot = request.slot)
    (honce : response.Terminal → order ∉ system.terminalEmitted) :
    Inv (system.emit order response) where
  unique := hinv.unique
  free := hinv.free
  slots other received hflight := by
    rcases List.mem_cons.mp hflight with heq | hearlier
    · cases heq
      exact ⟨request, hrequest, hslot⟩
    · exact hinv.slots other received hearlier
  conserved other := by
    have hconserved := hinv.conserved other
    simp only [System.terminalInFlight, System.emit, List.countP_cons] at hconserved ⊢
    by_cases hterminal : response.Terminal
    · rw [if_pos hterminal, List.count_cons]
      by_cases hother : order = other
      · subst hother
        simp only [hterminal, and_self, decide_true, if_true, beq_self_eq_true]
        omega
      · simpa [hother] using hconserved
    · rw [if_neg hterminal]
      simpa [hterminal] using hconserved
  once other := by
    have hcount := hinv.once other
    simp only [System.emit]
    by_cases hterminal : response.Terminal
    · rw [if_pos hterminal, List.count_cons]
      by_cases hother : order = other
      · subst hother
        simp [List.count_eq_zero.mpr (honce hterminal)]
      · simpa [hother] using hcount
    · rwa [if_neg hterminal]

/-- A terminal response in flight belongs to an order that is outstanding. -/
theorem outstanding_of_inFlight (hinv : Inv system) {order : Nat} {response : MEClientResponse}
    (hflight : (order, response) ∈ system.responses) (hterminal : response.Terminal) :
    system.Outstanding response.slot order := by
  obtain ⟨request, hrequest, hslot⟩ := hinv.slots order response hflight
  refine ⟨⟨request, hrequest, hslot.symm⟩, ?_⟩
  have hpositive : 0 < system.terminalInFlight order :=
    List.countP_pos_iff.mpr ⟨(order, response), hflight, by simp [hterminal]⟩
  have hconserved := hinv.conserved order
  have honce := hinv.once order
  exact List.count_eq_zero.mp (by omega)

/-- A terminal response leaves no order of its slot outstanding, so the slot may
become free. -/
theorem deliver (hinv : Inv system) {order : Nat} {response : MEClientResponse}
    (hflight : (order, response) ∈ system.responses) : Inv (system.deliver order response) := by
  have hold (slot : Slot) (other : Nat)
      (h : (system.deliver order response).Outstanding slot other) :
      system.Outstanding slot other := by
    refine ⟨h.1, fun hmem => h.2 ?_⟩
    simp only [System.deliver]
    split <;> simp [hmem]
  refine ⟨?_, ?_, ?_, fun other => ?_, hinv.once⟩
  · intro slot first second hfirst hsecond
    exact hinv.unique slot first second (hold slot first hfirst) (hold slot second hsecond)
  · intro tradingPair side hfree other houtstanding
    have hearlier := hold _ _ houtstanding
    rcases system.orderManager.free_of_free_onOrderResponse hfree with
      hbefore | ⟨hslot, hterminal⟩
    · exact hinv.free tradingPair side hbefore other hearlier
    · have hended := hinv.outstanding_of_inFlight hflight hterminal
      have hsame : other = order := hinv.unique _ _ _ hearlier (by rw [hslot]; exact hended)
      exact houtstanding.2 (by simp [System.deliver, hterminal, hsame])
  · intro other received hreceived
    exact hinv.slots other received (List.mem_of_mem_erase hreceived)
  · have hconserved := hinv.conserved other
    have herase : (system.deliver order response).terminalInFlight other =
        system.terminalInFlight other -
          if order = other ∧ response.Terminal then 1 else 0 := by
      simp only [System.terminalInFlight, System.deliver, List.countP_erase, hflight, true_and,
        decide_eq_true_eq]
    rw [herase]
    by_cases hended : order = other ∧ response.Terminal
    · obtain ⟨rfl, hterminal⟩ := hended
      have hpositive : 0 < system.terminalInFlight order :=
        List.countP_pos_iff.mpr ⟨(order, response), hflight, by simp [hterminal]⟩
      simp only [System.deliver, hterminal, if_true, List.count_cons_self, and_self]
      omega
    · rw [if_neg hended]
      simp only [System.deliver]
      split
      · rename_i hterminal
        have hne : order ≠ other := fun heq => hended ⟨heq, hterminal⟩
        rw [List.count_cons_of_ne hne]
        exact hconserved
      · exact hconserved

/-- Every step keeps the invariant. -/
theorem step (hinv : Inv system) {next : System} (hstep : Step system next) : Inv next := by
  cases hstep with
  | newOrder exchangeId tradingPair price side qty enqueued =>
      exact hinv.newOrder exchangeId tradingPair price side qty enqueued
  | cancelOrder exchangeId tradingPair side enqueued =>
      refine hinv.of_frame rfl rfl rfl rfl fun other otherSide hfree => ?_
      exact system.orderManager.free_of_free_cancelOrder exchangeId hfree
  | receiveNew order hrequest => exact hinv.of_frame rfl rfl rfl rfl fun _ _ hfree => hfree
  | receiveCancel request hrequest => exact hinv.of_frame rfl rfl rfl rfl fun _ _ hfree => hfree
  | emit order request response hreceived hrequest hslot honce =>
      exact hinv.emit hrequest hslot honce
  | deliver order response hflight => exact hinv.deliver hflight

end Inv

theorem inv_of_reachable {system : System} (hreachable : Reachable system) : Inv system := by
  induction hreachable with
  | refl => exact .init
  | tail _ hstep ih => exact ih.step hstep

/-- At most one order of a slot is outstanding in every reachable state. -/
theorem outstanding_unique (system : System) (hreachable : Reachable system) (slot : Slot)
    (first second : Nat) (hfirst : system.Outstanding slot first)
    (hsecond : system.Outstanding slot second) : first = second :=
  (inv_of_reachable hreachable).unique slot first second hfirst hsecond

/-- The response that ends the first bid on a pair. -/
def canceledBid : MEClientResponse where
  type := .canceled
  tradingPair := ⟨2, 1⟩
  orderId := 1
  side := .kBid

/-- A bid was sent, received and canceled, and a second one was sent. -/
def reopened : System :=
  let sent := System.newOrder {} .kBinance ⟨2, 1⟩ 100 .kBid 5 true
  let received : System := { sent with
    newRequests := sent.newRequests.erase 0
    received := 0 :: sent.received }
  ((received.emit 0 canceledBid).deliver 0 canceledBid).newOrder .kBinance ⟨2, 1⟩ 101 .kBid 5 true

theorem reachable_reopened : Reachable reopened := by
  refine .tail (.tail (.tail (.tail (.tail .refl (.newOrder {} .kBinance ⟨2, 1⟩ 100 .kBid 5 true))
    (.receiveNew _ 0 (by decide)))
    (.emit _ 0 ⟨.kBinance, ⟨2, 1⟩, 1, .kBid, 100, 5⟩ canceledBid ?_ ?_ ?_ ?_))
    (.deliver _ 0 canceledBid ?_)) (.newOrder _ .kBinance ⟨2, 1⟩ 101 .kBid 5 true)
  all_goals decide

/-- The second bid is the only outstanding one. -/
theorem outstanding_reopened :
    Reachable reopened ∧ reopened.Outstanding (⟨2, 1⟩, .kBid) 1 ∧
      ∀ order, reopened.Outstanding (⟨2, 1⟩, .kBid) order → order = 1 := by
  have hsecond : reopened.Outstanding (⟨2, 1⟩, .kBid) 1 :=
    ⟨⟨⟨.kBinance, ⟨2, 1⟩, 2, .kBid, 101, 5⟩, by decide, rfl⟩, by decide⟩
  refine ⟨reachable_reopened, hsecond, fun order horder => ?_⟩
  exact outstanding_unique reopened reachable_reopened _ order 1 horder hsecond

end CryptoBot.Orders

/-
# Cancels on the wire

A cancel leaves as a query with the symbol and the id of the order, and comes back
as a reply that the parser makes a response of.  The order manager finds the slot of
a response by its pair and its side.  The parser reads the pair and leaves the side
at its default, although the reply has it and the parser of new orders reads it.  So
the response ends the slot of no side, and the order that was cancelled waits for its
answer.
-/

import CryptoBot.Requests.LimitOrder

namespace CryptoBot.Requests

open CryptoBot.Common CryptoBot.Math CryptoBot.Orders

/-! ## The query and the reply -/

/-- `FamilyCancelOrder::ArgsOrder::SetOrderId`. -/
def ArgsOrder.setOrigOrderId (placement : Placement (String × String)) (storage : ArgsQuery)
    (orderId : OrderId) : ArgsQuery :=
  if orderId ≠ kOrderIdInvalid then
    storage.set placement "origClientOrderId" (toString orderId.toNat)
  else storage

/-- `FamilyCancelOrder::ArgsOrder`. -/
def argsCancelOrder (placement : Placement (String × String)) (pairs : TradingPairHashMap)
    (request : RequestCancelOrder) : ArgsQuery :=
  let storage := ArgsOrder.setSymbol placement .empty
    (pairs.at request.tradingPair).httpsQueryRequest
  ArgsOrder.setOrigOrderId placement storage request.orderId

/-- The strings of a reply, by key. -/
abbrev CancelOrderTexts := String → Option String

namespace CancelOrderTexts

variable (text : NumberText) (pairsReverse : String → Option TradingPair)
  (texts : CancelOrderTexts)

/-- What the parser reads of the strings. -/
def read : CancelOrderReply where
  origClientOrderId := (texts "origClientOrderId").bind text.getUint64InString
  status := texts "status"
  symbol := texts "symbol"

/-- `FamilyCancelOrder::ParserResponse::Parse`, from the strings of the reply. -/
def parse : MEClientResponse := FamilyCancelOrder.parse pairsReverse (texts.read text)

/-- A reply that says that an order was cancelled.  It may have any other fields. -/
structure Confirms (tradingPair : TradingPair) (orderId : OrderId) : Prop where
  symbol : (texts "symbol").bind pairsReverse = some tradingPair
  origClientOrderId : (texts "origClientOrderId").bind text.getUint64InString = some orderId
  status : texts "status" = some "CANCELED"

/-- The reply to a query, with the fields that the exchange adds. -/
def echo (args : ArgsQuery) (added : CancelOrderTexts) : CancelOrderTexts := fun key =>
  if key = "status" then some "CANCELED" else (args.find key).or (added key)

variable {text pairsReverse texts}

/-- The response names the order, but not its side. -/
theorem parse_of_confirms {tradingPair : TradingPair} {orderId : OrderId}
    (hconfirms : texts.Confirms text pairsReverse tradingPair orderId) :
    texts.parse text pairsReverse =
      { exchangeId := .kBinance
        type := .canceled
        tradingPair := tradingPair
        orderId := orderId
        side := .kInvalid } := by
  simp only [parse, read, FamilyCancelOrder.parse, hconfirms.origClientOrderId, hconfirms.status,
    hconfirms.symbol]

theorem echo_of_ne {args : ArgsQuery} {added : CancelOrderTexts} {key : String}
    (hkey : key ≠ "status") : echo args added key = (args.find key).or (added key) := if_neg hkey

/-- The reply to a query confirms the cancel that was asked for. -/
theorem confirms_echo (placement : Placement (String × String)) {pairs : TradingPairHashMap}
    {request : RequestCancelOrder} {info : TradingPairInfo} (htext : text.Documented)
    (hpair : pairs request.tradingPair = some info)
    (hreverse : pairsReverse info.httpsQueryRequest = some request.tradingPair)
    (hid : request.orderId ≠ kOrderIdInvalid) (added : CancelOrderTexts) :
    (echo (argsCancelOrder placement pairs request) added).Confirms text pairsReverse
      request.tradingPair request.orderId := by
  have hinfo := TradingPairHashMap.at_of_some hpair
  have hsymbol : (argsCancelOrder placement pairs request).find "symbol" =
      some info.httpsQueryRequest := by
    simp [argsCancelOrder, hinfo, ArgsOrder.setSymbol, ArgsOrder.setOrigOrderId, hid]
  have horderId : (argsCancelOrder placement pairs request).find "origClientOrderId" =
      some (toString request.orderId.toNat) := by
    simp [argsCancelOrder, ArgsOrder.setSymbol, ArgsOrder.setOrigOrderId, hid]
  constructor
  · rw [echo_of_ne (by simp), hsymbol]
    exact hreverse
  · rw [echo_of_ne (by simp), horderId]
    exact htext.unsigned request.orderId
  · rfl

end CancelOrderTexts

/-! ## The round trip -/

/-- After `CancelOrder` and the response, the slot is dead and the others are as
before. -/
structure CancelRoundTrip (orderManager : OrderManager) (exchangeId : ExchangeId)
    (tradingPair : TradingPair) (side : Side) (response : MEClientResponse) : Prop where
  dead : (((orderManager.cancelOrder exchangeId tradingPair side).1.onOrderResponse
    response).getOrder tradingPair side).state = .dead
  others : ∀ other otherSide, (other, otherSide) ≠ (tradingPair, side) →
    ((orderManager.cancelOrder exchangeId tradingPair side).1.onOrderResponse response).getOrder
      other otherSide = orderManager.getOrder other otherSide

section RoundTrip

variable (orderManager : OrderManager) (exchangeId : ExchangeId) {tradingPair : TradingPair}
  (side : Side) {response : MEClientResponse}

/-- The pair of the cancel is known, so the response is not ignored. -/
theorem onOrderResponse_cancelOrder (htype : response.type = .canceled)
    (hpair : response.tradingPair = tradingPair) :
    (orderManager.cancelOrder exchangeId tradingPair side).1.onOrderResponse response =
      (orderManager.cancelOrder exchangeId tradingPair side).1.setOrder tradingPair response.side
        { (orderManager.cancelOrder exchangeId tradingPair side).1.getOrder tradingPair
            response.side with state := .dead } := by
  have hknown : ((orderManager.cancelOrder exchangeId tradingPair side).1.tickerSideOrder
      tradingPair).isNone = false := by
    simp [OrderManager.cancelOrder, OrderManager.setOrder]
  simp only [OrderManager.onOrderResponse, hpair, hknown, Bool.false_eq_true, if_false,
    OrderManager.respond, htype]

/-- A cancel comes back to its slot exactly if the response names its side. -/
theorem cancelRoundTrip_iff (htype : response.type = .canceled)
    (hpair : response.tradingPair = tradingPair) :
    CancelRoundTrip orderManager exchangeId tradingPair side response ↔ response.side = side := by
  have hafter := onOrderResponse_cancelOrder orderManager exchangeId side htype hpair
  constructor
  · intro htrip
    by_contra hside
    have hslot : (tradingPair, side) ≠ (tradingPair, response.side) := fun heq =>
      hside (Prod.mk.inj heq).2.symm
    have hdead := htrip.dead
    rw [hafter, OrderManager.getOrder_setOrder_of_ne _ hslot] at hdead
    have hpending : ((orderManager.cancelOrder exchangeId tradingPair side).1.getOrder tradingPair
        side).state = .pendingCancel :=
      congrArg OMOrder.state (OrderManager.getOrder_setOrder_self ..)
    rw [hpending] at hdead
    cases hdead
  · rintro rfl
    refine ⟨?_, fun other otherSide hslot => ?_⟩
    · rw [hafter, OrderManager.getOrder_setOrder_self]
    · rw [hafter, OrderManager.getOrder_setOrder_of_ne _ hslot]
      exact OrderManager.getOrder_setOrder_of_ne _ hslot _

/-- The response of the parser names no side. -/
theorem cancelRoundTrip_parse_iff {text : NumberText} {pairsReverse : String → Option TradingPair}
    {texts : CancelOrderTexts} {orderId : OrderId}
    (hconfirms : texts.Confirms text pairsReverse tradingPair orderId) :
    CancelRoundTrip orderManager exchangeId tradingPair side (texts.parse text pairsReverse) ↔
      side = .kInvalid := by
  have hparse := CancelOrderTexts.parse_of_confirms hconfirms
  rw [cancelRoundTrip_iff orderManager exchangeId side (by rw [hparse]) (by rw [hparse]), hparse]
  exact eq_comm

end RoundTrip

/-- No reply brings the cancel of a bid or an ask back to its slot. -/
theorem not_cancelRoundTrip (text : NumberText) (pairsReverse : String → Option TradingPair)
    (texts : CancelOrderTexts) (orderManager : OrderManager) (exchangeId : ExchangeId)
    (tradingPair : TradingPair) (side : Side) (hside : side = .kAsk ∨ side = .kBid)
    (hconfirms : texts.Confirms text pairsReverse tradingPair
      (orderManager.getOrder tradingPair side).orderId) :
    ¬ CancelRoundTrip orderManager exchangeId tradingPair side
      (texts.parse text pairsReverse) := by
  rw [cancelRoundTrip_parse_iff orderManager exchangeId side hconfirms]
  rcases hside with rfl | rfl <;> decide

/-- An order manager with a live order on one side. -/
def liveOrder (side : Side) : OrderManager :=
  (({} : OrderManager).newOrder .kBinance ⟨2, 1⟩ 100 side 5).1.onOrderResponse
    { type := .accepted, tradingPair := ⟨2, 1⟩, orderId := 1, side }

/-- The reply to the cancel of the live order.  The side is among its fields. -/
def liveOrderReply (side : String) : CancelOrderTexts :=
  .echo (argsCancelOrder .back (fun _ => some ⟨2, 5, "BTCUSDT", "BTCUSDT"⟩) ⟨.kBinance, ⟨2, 1⟩, 1⟩)
    fun key => if key = "side" then some side else none

theorem confirms_liveOrderReply (side : String) :
    (liveOrderReply side).Confirms decimalText (fun _ => some ⟨2, 1⟩) ⟨2, 1⟩ 1 :=
  CancelOrderTexts.confirms_echo .back documented_decimalText rfl rfl (by decide) _

theorem not_cancelRoundTrip_liveAsk :
    ((liveOrder .kAsk).getOrder ⟨2, 1⟩ .kAsk).state = .live ∧
      ¬ CancelRoundTrip (liveOrder .kAsk) .kBinance ⟨2, 1⟩ .kAsk
        ((liveOrderReply "BUY").parse decimalText fun _ => some ⟨2, 1⟩) :=
  ⟨by decide, not_cancelRoundTrip decimalText _ _ _ .kBinance _ _ (.inl rfl)
    (confirms_liveOrderReply "BUY")⟩

/-- A live bid whose cancel is confirmed. -/
theorem not_cancelRoundTrip_liveBid :
    ((liveOrder .kBid).getOrder ⟨2, 1⟩ .kBid).state = .live ∧
      (liveOrderReply "SELL").Confirms decimalText (fun _ => some ⟨2, 1⟩) ⟨2, 1⟩
        ((liveOrder .kBid).getOrder ⟨2, 1⟩ .kBid).orderId ∧
      ¬ CancelRoundTrip (liveOrder .kBid) .kBinance ⟨2, 1⟩ .kBid
        ((liveOrderReply "SELL").parse decimalText fun _ => some ⟨2, 1⟩) := by
  have hconfirms := confirms_liveOrderReply "SELL"
  refine ⟨by decide, hconfirms, ?_⟩
  rw [cancelRoundTrip_parse_iff _ _ _ hconfirms]
  decide

end CryptoBot.Requests

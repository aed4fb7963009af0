/-
# Parsers of order replies

The replies of Binance to a new order and to a cancel, and the responses the
parsers make of them.  A reply is what `simdjson` yields for the fields a parser
reads: `none` where a key is missing or its value does not convert.  Prices and
quantities are the words after scaling by the precision of the pair.

A missing field returns an empty response, without an exchange.  An order id
that does not convert throws instead, and the handler keeps what was parsed and
names the exchange.
-/

import CryptoBot.Orders.ClientResponse

namespace CryptoBot.Orders

open CryptoBot.Common

structure LimitOrderReply where
  symbol : Option String := none
  clientOrderId : Option OrderId := none
  status : Option String := none
  price : Option Price := none
  cummulativeQuoteQty : Option Price := none
  side : Option String := none
  executedQty : Option Qty := none
  /-- `origQty` less `executedQty`. -/
  leavesQty : Option Qty := none

structure CancelOrderReply where
  origClientOrderId : Option OrderId := none
  status : Option String := none
  symbol : Option String := none

namespace FamilyLimitOrder

/-- The fields after the status, for a status that gives the type and the
price. -/
def finish (reply : LimitOrderReply) (output : MEClientResponse) (type : ClientResponseType)
    (price : Option Price) : MEClientResponse :=
  match price with
  | none => {}
  | some price =>
      let output := { output with type, price }
      let output :=
        match reply.side with
        | some "BUY" => { output with side := .kAsk }
        | some "SELL" => { output with side := .kBid }
        | _ => output
      match reply.executedQty with
      | none => {}
      | some execQty =>
          let output := { output with execQty, exchangeId := .kBinance }
          match reply.leavesQty with
          | none => output
          | some leavesQty => { output with leavesQty }

/-- `FamilyLimitOrder::ParserResponse::Parse`. -/
def parse (pairsReverse : String → Option TradingPair) (reply : LimitOrderReply) :
    MEClientResponse :=
  match reply.symbol.bind pairsReverse with
  | none => {}
  | some tradingPair =>
      match reply.clientOrderId with
      | none => { tradingPair, exchangeId := .kBinance }
      | some orderId =>
          match reply.status with
          | some "NEW" => finish reply { tradingPair, orderId } .accepted reply.price
          | some "PARTIALLY_FILLED" =>
              finish reply { tradingPair, orderId } .filled reply.cummulativeQuoteQty
          | some "FILLED" => finish reply { tradingPair, orderId } .filled reply.cummulativeQuoteQty
          | _ => {}

theorem exchangeId_finish {reply : LimitOrderReply} {output : MEClientResponse}
    {type : ClientResponseType} {price : Option Price} :
    finish reply output type price = {} ∨
      (finish reply output type price).exchangeId = .kBinance := by
  cases price with
  | none => exact .inl rfl
  | some price =>
      simp only [finish]
      cases reply.executedQty with
      | none => exact .inl rfl
      | some execQty => cases reply.leavesQty <;> exact .inr rfl

/-- A response is empty, or it names the exchange. -/
theorem exchangeId_parse (pairsReverse : String → Option TradingPair) (reply : LimitOrderReply) :
    parse pairsReverse reply = {} ∨ (parse pairsReverse reply).exchangeId = .kBinance := by
  rw [parse]
  split
  · exact .inl rfl
  · split
    · exact .inr rfl
    · split
      · exact exchangeId_finish
      · exact exchangeId_finish
      · exact exchangeId_finish
      · exact .inl rfl

end FamilyLimitOrder

namespace FamilyCancelOrder

/-- `FamilyCancelOrder::ParserResponse::Parse`. -/
def parse (pairsReverse : String → Option TradingPair) (reply : CancelOrderReply) :
    MEClientResponse :=
  match reply.origClientOrderId with
  | none => { exchangeId := .kBinance }
  | some orderId =>
      match reply.status with
      | some "CANCELED" =>
          match reply.symbol.bind pairsReverse with
          | none => {}
          | some tradingPair => { type := .canceled, orderId, tradingPair, exchangeId := .kBinance }
      | _ => {}

/-- A response is empty, or it names the exchange and carries no fill. -/
theorem exchangeId_parse (pairsReverse : String → Option TradingPair) (reply : CancelOrderReply) :
    parse pairsReverse reply = {} ∨
      (parse pairsReverse reply).exchangeId = .kBinance ∧
        (parse pairsReverse reply).type ≠ .filled ∧
        (parse pairsReverse reply).execQty = kQtyInvalid := by
  rw [parse]
  split
  · exact .inr ⟨rfl, nofun, rfl⟩
  · split
    · split
      · exact .inl rfl
      · exact .inr ⟨rfl, nofun, rfl⟩
    · exact .inl rfl

end FamilyCancelOrder

end CryptoBot.Orders

/-
# Responses of the exchange

`MEClientResponse` is what an exchange answers to a request.  The parsers build
it field by field and leave what a message does not carry at its default: the
sentinel of its type.  The bus hands one response to the order manager, the
wallet and the position keeper.

A type is one of the enumerators.  The last branch of `Wallet::Update`, which only
another value could reach, is not modelled.
-/

import CryptoBot.Common.Types

namespace CryptoBot.Orders

open CryptoBot.Common

inductive ClientResponseType
  | invalid | accepted | canceled | filled | cancelRejected
  deriving DecidableEq, Repr

structure MEClientResponse where
  exchangeId : ExchangeId := .kInvalid
  type : ClientResponseType := .invalid
  tradingPair : TradingPair := {}
  orderId : OrderId := kOrderIdInvalid
  side : Side := .kInvalid
  price : Price := kPriceInvalid
  execQty : Qty := kQtyInvalid
  leavesQty : Qty := kQtyInvalid
  deriving DecidableEq, Repr

/-- What the bus carries.  The pointer may be null. -/
structure BusEventResponse where
  response : Option MEClientResponse

end CryptoBot.Orders

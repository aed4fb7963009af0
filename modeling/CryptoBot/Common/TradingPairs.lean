/-
# What is known of a trading pair

Prices and quantities travel as integers.  The precision of a pair on its
exchange says which decimal an integer stands for, and it is configured for each
exchange and pair.  Doubles are exact rationals here.
-/

import Mathlib.Data.Rat.Defs
import Mathlib.Algebra.Order.Ring.Rat
import CryptoBot.Common.Types

namespace CryptoBot.Common

structure TradingPairInfo where
  pricePrecission : UInt8
  qtyPrecission : UInt8
  /-- The symbol in the query of an https request. -/
  httpsQueryRequest : String := ""
  /-- The symbol in the json body of an https request. -/
  httpsJsonRequest : String := ""
  deriving DecidableEq, Repr

namespace TradingPairInfo

variable (info : TradingPairInfo)

def getPriceDouble (price : Price) : ℚ :=
  price.toNat * (10 : ℚ) ^ (-(info.pricePrecission.toNat : ℤ))

def getQtyDouble (qty : Qty) : ℚ :=
  qty.toNat * (10 : ℚ) ^ (-(info.qtyPrecission.toNat : ℤ))

end TradingPairInfo

structure ExchangeTradingPairs where
  exchangePairs : ExchangeId → Option (TradingPair → Option TradingPairInfo)

def ExchangeTradingPairs.getPairInfo (pairs : ExchangeTradingPairs) (exchangeId : ExchangeId)
    (tradingPair : TradingPair) : Option TradingPairInfo :=
  (pairs.exchangePairs exchangeId).bind (· tradingPair)

end CryptoBot.Common

/-
# Identifiers, sides and sentinels

The scalar types every component shares.  Prices, quantities and ids are 64-bit
machine words in the source, and its arithmetic on them wraps, so they are
`UInt64` here.  The all-ones word marks an absent price, quantity or id.

The two order instances at the end let the order-generic library run over
prices: bids are listed by decreasing price and asks by increasing price.
-/

import Mathlib.Order.Defs.Unbundled
import Mathlib.Data.UInt

namespace CryptoBot.Common

abbrev TickerId := UInt32
abbrev OrderId := UInt64
abbrev Price := UInt64
abbrev Qty := UInt64

def kTickerIdInvalid : TickerId := 0xFFFFFFFF
def kOrderIdInvalid : OrderId := 0xFFFFFFFFFFFFFFFF
def kPriceInvalid : Price := 0xFFFFFFFFFFFFFFFF
def kQtyInvalid : Qty := 0xFFFFFFFFFFFFFFFF

inductive ExchangeId
  | kBinance | kBybit | kMexc | kInvalid
  deriving DecidableEq, Repr

inductive MarketType
  | kSpot | kFutures | kOptions | kInvalid
  deriving DecidableEq, Repr

/-- The side of an order, as taker. -/
inductive Side
  | kInvalid | kAsk | kBid | kMax
  deriving DecidableEq, Repr

/-- `sideToIndex`: the enumerators are `0, 1, -1, 2`, and the cast to `size_t`
followed by the increment maps them to `1, 2, 0, 3`. -/
def sideToIndex : Side → Fin 4
  | .kInvalid => 1
  | .kAsk => 2
  | .kBid => 0
  | .kMax => 3

theorem sideToIndex_injective : Function.Injective sideToIndex := by
  intro first second h
  cases first <;> cases second <;> simp [sideToIndex] at h ⊢

/-- `sideToValue`: the enumerator itself. -/
def sideToValue : Side → Int
  | .kInvalid => 0
  | .kAsk => 1
  | .kBid => -1
  | .kMax => 2

structure TradingPair where
  first : TickerId := 0
  second : TickerId := 0
  deriving DecidableEq, Repr

instance : IsStrictTotalOrder Price (· < ·) where
  trichotomous first second hlt hgt := by grind
  irrefl price := by grind
  trans first second third hfirst hsecond := by grind

instance : IsStrictTotalOrder Price (· > ·) where
  trichotomous first second hlt hgt := by grind
  irrefl price := by grind
  trans first second third hfirst hsecond := by grind

end CryptoBot.Common

/-
# Arbitrage cycles and their hashes

A step of a cycle buys or sells a pair on an exchange, and a cycle is a list of
steps.  The strategy never stores a venue, a step or a cycle as a key: it stores
a 64-bit hash of it.  Venues are hashed by `HashCombined`, steps by `StepHash`
and cycles by `ArbitrageCycleHash`, and all three are built from the hash
functions of the standard library and of Boost, which are parameters here.

What the strategy does is right only as long as no two of the things it works
with collide.  `Hashing.InjectiveOn` is that assumption for given venues and
cycles.
-/

import Mathlib.Data.Set.Function
import CryptoBot.Book.Component

namespace CryptoBot.Arbitrage

open CryptoBot.Common CryptoBot.Book

inductive Operation
  | kBuy | kSell
  deriving DecidableEq, Repr

/-- The place a step trades at. -/
structure Venue where
  exchangeId : ExchangeId
  marketType : MarketType
  tradingPair : TradingPair
  deriving DecidableEq, Repr

structure Step where
  tradingPair : TradingPair
  exchangeId : ExchangeId
  marketType : MarketType := .kInvalid
  operation : Operation := .kBuy
  deriving DecidableEq, Repr

def Step.venue (step : Step) : Venue := ⟨step.exchangeId, step.marketType, step.tradingPair⟩

abbrev ArbitrageCycle := List Step

/-- The venues of a cycle, in the order of its steps. -/
def ArbitrageCycle.venues (cycle : ArbitrageCycle) : List Venue := cycle.map Step.venue

/-- The venue whose best prices an event reports. -/
def venueOf (event : NewBBO) : Venue :=
  ⟨event.exchangeId, event.marketType, event.tradingPair⟩

/-! ## Hashes -/

/-- The hash functions that are not part of the program. -/
structure Hashing where
  /-- `boost::hash_combine` on two words. -/
  hashCombine : UInt64 → UInt64 → UInt64
  /-- `boost::hash<int>`. -/
  hashInt : Int → UInt64
  hashTickerId : TickerId → UInt64
  hashExchangeId : ExchangeId → UInt64
  hashMarketType : MarketType → UInt64

/-- The enumerators in the order of their declaration. -/
def exchangeIdToInt : ExchangeId → Int
  | .kBinance => 0
  | .kBybit => 1
  | .kMexc => 2
  | .kInvalid => 3

def marketTypeToInt : MarketType → Int
  | .kSpot => 0
  | .kFutures => 1
  | .kOptions => 2
  | .kInvalid => 3

def operationToInt : Operation → Int
  | .kBuy => 0
  | .kSell => 1

namespace Hashing

variable (hashing : Hashing)

def tradingPairHash (key : TradingPair) : UInt64 :=
  let hashValue := hashing.hashCombine 0 (hashing.hashTickerId key.first)
  hashing.hashCombine hashValue (hashing.hashTickerId key.second)

def hashCombined (exchangeId : ExchangeId) (marketType : MarketType)
    (tradingPair : TradingPair) : UInt64 :=
  let hashValue := hashing.hashCombine 0 (hashing.hashInt (exchangeIdToInt exchangeId))
  let hashValue := hashing.hashCombine hashValue (hashing.hashInt (marketTypeToInt marketType))
  hashing.hashCombine hashValue (hashing.tradingPairHash tradingPair)

def stepHash (step : Step) : UInt64 :=
  let seed := hashing.hashCombine 0 (hashing.hashExchangeId step.exchangeId)
  let seed := hashing.hashCombine seed (hashing.hashMarketType step.marketType)
  let seed := hashing.hashCombine seed (hashing.tradingPairHash step.tradingPair)
  hashing.hashCombine seed (hashing.hashInt (operationToInt step.operation))

def arbitrageCycleHash (cycle : ArbitrageCycle) : UInt64 :=
  cycle.foldl (fun seed step => hashing.hashCombine seed (hashing.stepHash step)) 0

/-- The key of a venue in the tables. -/
def venueKey (venue : Venue) : UInt64 :=
  hashing.hashCombined venue.exchangeId venue.marketType venue.tradingPair

/-- No two of the venues, of the cycles and of the cycles' steps collide. -/
structure InjectiveOn (venues : List Venue) (cycles : List ArbitrageCycle) : Prop where
  venueKey : Set.InjOn hashing.venueKey { venue | venue ∈ venues }
  stepHash : Set.InjOn hashing.stepHash { step | ∃ cycle ∈ cycles, step ∈ cycle }
  arbitrageCycleHash : Set.InjOn hashing.arbitrageCycleHash { cycle | cycle ∈ cycles }

theorem InjectiveOn.mono {hashing : Hashing} {venues fewer : List Venue}
    {cycles less : List ArbitrageCycle} (h : hashing.InjectiveOn venues cycles)
    (hvenues : ∀ venue ∈ fewer, venue ∈ venues) (hcycles : ∀ cycle ∈ less, cycle ∈ cycles) :
    hashing.InjectiveOn fewer less where
  venueKey := h.venueKey.mono hvenues
  stepHash := by
    apply h.stepHash.mono
    rintro step ⟨cycle, hcycle, hstep⟩
    exact ⟨cycle, hcycles cycle hcycle, hstep⟩
  arbitrageCycleHash := h.arbitrageCycleHash.mono hcycles

/-- The assumption as a test of finitely many pairs. -/
theorem InjectiveOn.of_forall {venues : List Venue} {cycles : List ArbitrageCycle}
    (hvenues : ∀ first ∈ venues, ∀ second ∈ venues,
      hashing.venueKey first = hashing.venueKey second → first = second)
    (hsteps : ∀ first ∈ cycles.flatten, ∀ second ∈ cycles.flatten,
      hashing.stepHash first = hashing.stepHash second → first = second)
    (hcycles : ∀ first ∈ cycles, ∀ second ∈ cycles,
      hashing.arbitrageCycleHash first = hashing.arbitrageCycleHash second → first = second) :
    hashing.InjectiveOn venues cycles where
  venueKey first hfirst second hsecond := hvenues first hfirst second hsecond
  stepHash first hfirst second hsecond :=
    hsteps first (List.mem_flatten.mpr hfirst) second (List.mem_flatten.mpr hsecond)
  arbitrageCycleHash first hfirst second hsecond := hcycles first hfirst second hsecond

end Hashing

/-! ### The hash functions of Boost 1.81 and libstdc++ -/

/-- The mixing function of `boost::hash_combine`. -/
def boostMix (word : UInt64) : UInt64 :=
  let word := (word ^^^ (word >>> 32)) * 0xe9846af9b1a615d
  let word := (word ^^^ (word >>> 32)) * 0xe9846af9b1a615d
  word ^^^ (word >>> 28)

/-- Integers and enumerators are their own hashes. -/
def boostHashing : Hashing where
  hashCombine seed word := boostMix (seed + 0x9e3779b9 + word)
  hashInt value := .ofInt value
  hashTickerId ticker := ticker.toUInt64
  hashExchangeId exchangeId := .ofInt (exchangeIdToInt exchangeId)
  hashMarketType marketType := .ofInt (marketTypeToInt marketType)

end CryptoBot.Arbitrage

/-
# The table of endpoints

`EndpointManager` finds the host and the port of an exchange in an
`unordered_map` whose keys are the exchange, the network, the market type and
the protocol.  The equality of keys ends in a comma operator, so that it
compares the protocols only, and all that tells two keys of one protocol apart
is the 64-bit hash.  The hash is a combination of shifted words by exclusive or.

`std::hash<int>` is a parameter of the table.  The results about collisions are
about the implementation of libstdc++, where an integer is its own hash: there
every key shares its slot with one other key, on the other network and of an
exchange that the table of the program does not have.
-/

import CryptoBot.Math.CoarseMap
import CryptoBot.Arbitrage.Cycle

namespace CryptoBot.Requests

open CryptoBot.Common CryptoBot.Math
open CryptoBot.Arbitrage (exchangeIdToInt marketTypeToInt)

inductive Network
  | kMainnet | kTestnet
  deriving DecidableEq, Repr

inductive Protocol
  | kHTTPS | kWS
  deriving DecidableEq, Repr

structure Endpoint where
  host : String
  port : Int
  portAsString : String
  recvWindow : Int
  threashold : Int
  deriving DecidableEq, Repr

/-- The constructor, which caps the receive window. -/
def Endpoint.new (host : String) (port recvWindow threashold : Int) : Endpoint where
  host := host
  port := port
  portAsString := toString port
  recvWindow := if recvWindow > threashold then threashold else recvWindow
  threashold := threashold

structure EndpointKey where
  exchange : ExchangeId
  network : Network
  marketType : MarketType
  protocol : Protocol
  deriving DecidableEq, Repr

namespace EndpointKey

/-- `operator==`.  The comma discards the comparison of the other three fields. -/
def equal (key other : EndpointKey) : Bool :=
  let _discarded := key.exchange == other.exchange && key.network == other.network &&
    key.marketType == other.marketType
  key.protocol == other.protocol

@[simp]
theorem equal_iff {key other : EndpointKey} : key.equal other ↔ key.protocol = other.protocol := by
  simp [equal]

end EndpointKey

def networkToInt : Network → Int
  | .kMainnet => 0
  | .kTestnet => 1

def protocolToInt : Protocol → Int
  | .kHTTPS => 0
  | .kWS => 1

def endpointKeyHash (hashInt : Int → UInt64) (key : EndpointKey) : UInt64 :=
  hashInt (exchangeIdToInt key.exchange) ^^^ (hashInt (networkToInt key.network) <<< 1) ^^^
    (hashInt (marketTypeToInt key.marketType) <<< 2) ^^^
    (hashInt (protocolToInt key.protocol) <<< 3)

/-- Two keys that the table cannot tell apart. -/
def keySlot (hashInt : Int → UInt64) : Setoid EndpointKey where
  r key other := endpointKeyHash hashInt key = endpointKeyHash hashInt other ∧ key.equal other
  iseqv :=
    { refl := fun _ => ⟨rfl, EndpointKey.equal_iff.mpr rfl⟩
      symm := fun h => ⟨h.1.symm, EndpointKey.equal_iff.mpr (EndpointKey.equal_iff.mp h.2).symm⟩
      trans := fun h h' => ⟨h.1.trans h'.1, EndpointKey.equal_iff.mpr
        ((EndpointKey.equal_iff.mp h.2).trans (EndpointKey.equal_iff.mp h'.2))⟩ }

instance (hashInt : Int → UInt64) : DecidableRel (keySlot hashInt) := fun key other =>
  inferInstanceAs (Decidable
    (endpointKeyHash hashInt key = endpointKeyHash hashInt other ∧ key.equal other))

structure EndpointManager (hashInt : Int → UInt64) where
  endpoints : CoarseMap (keySlot hashInt) Endpoint

namespace EndpointManager

variable {hashInt : Int → UInt64}

/-- The table with the given entries, inserted in this order. -/
def ofEntries (hashInt : Int → UInt64) (entries : List (EndpointKey × Endpoint)) :
    EndpointManager hashInt where
  endpoints := .ofEntries (keySlot hashInt) entries

def getEndpoint (manager : EndpointManager hashInt) (exchange : ExchangeId) (network : Network)
    (marketType : MarketType) (protocol : Protocol) : Option Endpoint :=
  manager.endpoints.find ⟨exchange, network, marketType, protocol⟩

end EndpointManager

/-- The entries of `endpoints_`. -/
def defaultEndpoints : List (EndpointKey × Endpoint) :=
  [ -- Binance Mainnet
    (⟨.kBinance, .kMainnet, .kSpot, .kHTTPS⟩, .new "api.binance.com" 443 5000 60000),
    (⟨.kBinance, .kMainnet, .kSpot, .kWS⟩, .new "stream.binance.com" 9443 5000 60000),
    (⟨.kBinance, .kMainnet, .kFutures, .kHTTPS⟩, .new "fapi.binance.com" 443 5000 60000),
    (⟨.kBinance, .kMainnet, .kFutures, .kWS⟩, .new "fstream.binance.com" 443 5000 60000),
    -- Binance Testnet
    (⟨.kBinance, .kTestnet, .kSpot, .kHTTPS⟩, .new "testnet.binance.vision" 443 5000 60000),
    (⟨.kBinance, .kTestnet, .kSpot, .kWS⟩, .new "testnet.binance.vision" 9443 5000 60000),
    (⟨.kBinance, .kTestnet, .kFutures, .kHTTPS⟩, .new "testnet.binancefuture.com" 443 5000 60000),
    (⟨.kBinance, .kTestnet, .kFutures, .kWS⟩, .new "testnet.binancefuture.com" 9443 5000 60000),
    -- Bybit Mainnet
    (⟨.kBybit, .kMainnet, .kSpot, .kHTTPS⟩, .new "api.bybit.com" 443 5000 100),
    (⟨.kBybit, .kMainnet, .kSpot, .kWS⟩, .new "stream.bybit.com" 9443 5000 100),
    (⟨.kBybit, .kMainnet, .kFutures, .kHTTPS⟩, .new "api.bybit.com" 443 5000 100),
    (⟨.kBybit, .kMainnet, .kFutures, .kWS⟩, .new "stream.bybit.com" 9443 5000 100),
    -- Bybit Testnet
    (⟨.kBybit, .kTestnet, .kSpot, .kHTTPS⟩, .new "api-testnet.bybit.com" 443 5000 60000),
    (⟨.kBybit, .kTestnet, .kSpot, .kWS⟩, .new "stream-testnet.bybit.com" 9443 5000 60000),
    (⟨.kBybit, .kTestnet, .kFutures, .kHTTPS⟩, .new "api-testnet.bybit.com" 443 5000 60000),
    (⟨.kBybit, .kTestnet, .kFutures, .kWS⟩, .new "stream-testnet.bybit.com" 9443 5000 60000)]

/-! ## Exact lookups -/

/-- A table reads as if its keys were compared field by field. -/
structure LookupExact (hashInt : Int → UInt64) (entries : List (EndpointKey × Endpoint)) :
    Prop where
  inserted : ∀ key endpoint, (key, endpoint) ∈ entries →
    (EndpointManager.ofEntries hashInt entries).getEndpoint key.exchange key.network
      key.marketType key.protocol = some endpoint
  absent : ∀ key, key ∉ entries.map Prod.fst →
    (EndpointManager.ofEntries hashInt entries).getEndpoint key.exchange key.network
      key.marketType key.protocol = none

theorem lookupExact_iff_exact {hashInt : Int → UInt64} {entries : List (EndpointKey × Endpoint)} :
    LookupExact hashInt entries ↔ CoarseMap.Exact (keySlot hashInt) entries :=
  ⟨fun h => ⟨h.inserted, h.absent⟩, fun h => ⟨h.1, h.2⟩⟩

/-- Different keys of one protocol and one hash are harmless only when the table has all of
them, with one endpoint. -/
theorem getEndpoint_exact_iff (hashInt : Int → UInt64) {entries : List (EndpointKey × Endpoint)}
    (hkeys : (entries.map Prod.fst).Nodup) :
    LookupExact hashInt entries ↔
      ∀ key endpoint, (key, endpoint) ∈ entries → ∀ other : EndpointKey,
        endpointKeyHash hashInt other = endpointKeyHash hashInt key →
        other.protocol = key.protocol → (other, endpoint) ∈ entries := by
  have hslot : ∀ key other : EndpointKey, keySlot hashInt key other ↔
      endpointKeyHash hashInt other = endpointKeyHash hashInt key ∧
        other.protocol = key.protocol := by
    intro key other
    change _ ∧ _ ↔ _
    rw [EndpointKey.equal_iff]
    exact and_congr eq_comm eq_comm
  rw [lookupExact_iff_exact, CoarseMap.exact_iff hkeys]
  simp only [hslot, and_imp]

/-! ## Collisions -/

def Network.other : Network → Network
  | .kMainnet => .kTestnet
  | .kTestnet => .kMainnet

/-- The exchange whose number differs in the bit that the network is shifted to. -/
def twinExchange : ExchangeId → ExchangeId
  | .kBinance => .kMexc
  | .kBybit => .kInvalid
  | .kMexc => .kBinance
  | .kInvalid => .kBybit

/-- The other key of the same slot. -/
def EndpointKey.twin (key : EndpointKey) : EndpointKey :=
  { key with exchange := twinExchange key.exchange, network := key.network.other }

/-- The two low bits of the hash, which the exchange and the network share. -/
def lowBits (exchange : ExchangeId) (network : Network) : Nat :=
  (exchangeIdToInt exchange).toNat ^^^ (2 * (networkToInt network).toNat)

theorem lowBits_lt (exchange : ExchangeId) (network : Network) : lowBits exchange network < 4 := by
  cases exchange <;> cases network <;> decide

theorem lowBits_eq_iff {exchange exchange' : ExchangeId} {network network' : Network} :
    lowBits exchange' network' = lowBits exchange network ↔
      exchange' = exchange ∧ network' = network ∨
        exchange' = twinExchange exchange ∧ network' = network.other := by
  cases exchange <;> cases exchange' <;> cases network <;> cases network' <;> decide

/-- The market type is above the low bits, and the protocol is on top. -/
theorem endpointKeyHash_ofInt (key : EndpointKey) :
    endpointKeyHash .ofInt key =
      UInt64.ofNat (4 * (marketTypeToInt key.marketType).toNat +
        lowBits key.exchange key.network) ^^^
      (UInt64.ofInt (protocolToInt key.protocol) <<< 3) := by
  obtain ⟨exchange, network, marketType, protocol⟩ := key
  rw [endpointKeyHash]
  congr 1
  dsimp only
  cases exchange <;> cases network <;> cases marketType <;> decide

/-- With integers as their own hashes, a slot holds a key and its twin. -/
theorem endpointKeyHash_eq_iff {key other : EndpointKey}
    (hprotocol : other.protocol = key.protocol) :
    endpointKeyHash .ofInt other = endpointKeyHash .ofInt key ↔ other = key ∨ other = key.twin := by
  have hmarket : ∀ marketType : MarketType, (marketTypeToInt marketType).toNat < 4 := by
    intro marketType
    cases marketType <;> decide
  have hinjective : ∀ first second : MarketType,
      (marketTypeToInt first).toNat = (marketTypeToInt second).toNat → first = second := by
    intro first second
    cases first <;> cases second <;> decide
  have hlow := lowBits_lt key.exchange key.network
  have hlow' := lowBits_lt other.exchange other.network
  have hhigh := hmarket key.marketType
  have hhigh' := hmarket other.marketType
  rw [endpointKeyHash_ofInt, endpointKeyHash_ofInt, hprotocol, UInt64.xor_left_inj,
    ← UInt64.toNat_inj, UInt64.toNat_ofNat', UInt64.toNat_ofNat', Nat.mod_eq_of_lt (by omega),
    Nat.mod_eq_of_lt (by omega)]
  constructor
  · intro heq
    have hmarketType := hinjective other.marketType key.marketType (by omega)
    rcases lowBits_eq_iff.mp (show lowBits other.exchange other.network =
      lowBits key.exchange key.network by omega) with ⟨hexchange, hnetwork⟩ | ⟨hexchange, hnetwork⟩
    · left
      cases key; cases other; simp_all
    · right
      cases key; cases other; simp_all [EndpointKey.twin]
  · rintro (rfl | rfl)
    · rfl
    · have hlowBits : lowBits key.twin.exchange key.twin.network =
          lowBits key.exchange key.network := lowBits_eq_iff.mpr (.inr ⟨rfl, rfl⟩)
      rw [hlowBits, EndpointKey.twin]

/-- Whatever was inserted, a key and its twin read the same endpoint. -/
theorem getEndpoint_twin (entries : List (EndpointKey × Endpoint)) (exchange : ExchangeId)
    (network : Network) (marketType : MarketType) (protocol : Protocol) :
    (EndpointManager.ofEntries .ofInt entries).getEndpoint (twinExchange exchange) network.other
      marketType protocol =
    (EndpointManager.ofEntries .ofInt entries).getEndpoint exchange network marketType
      protocol := by
  let key : EndpointKey := ⟨exchange, network, marketType, protocol⟩
  have hprotocol : key.twin.protocol = key.protocol := rfl
  have hhash := (endpointKeyHash_eq_iff hprotocol).mpr (.inr rfl)
  apply CoarseMap.find_congr
  exact ⟨hhash, EndpointKey.equal_iff.mpr rfl⟩

/-- A table with twins under one endpoint reads exactly. -/
theorem getEndpoint_exact_twins :
    LookupExact .ofInt
      [(⟨.kBinance, .kMainnet, .kSpot, .kHTTPS⟩, .new "api.binance.com" 443 5000 60000),
        (⟨.kMexc, .kTestnet, .kSpot, .kHTTPS⟩, .new "api.binance.com" 443 5000 60000)] := by
  apply (getEndpoint_exact_iff .ofInt (by decide)).mpr
  intro key endpoint hmem other hhash hprotocol
  simp only [List.mem_cons, Prod.mk.injEq, List.not_mem_nil, or_false] at hmem ⊢
  rcases (endpointKeyHash_eq_iff hprotocol).mp hhash with rfl | rfl
  · exact hmem
  · rcases hmem with ⟨rfl, rfl⟩ | ⟨rfl, rfl⟩
    · exact .inr ⟨rfl, rfl⟩
    · exact .inl ⟨rfl, rfl⟩

/-! ## The table of the program -/

/-- The program's own table finds what it holds ... -/
theorem getEndpoint_default (key : EndpointKey) (endpoint : Endpoint)
    (h : (key, endpoint) ∈ defaultEndpoints) :
    (EndpointManager.ofEntries .ofInt defaultEndpoints).getEndpoint key.exchange key.network
      key.marketType key.protocol = some endpoint := by
  have hall : ∀ entry ∈ defaultEndpoints,
      (EndpointManager.ofEntries .ofInt defaultEndpoints).getEndpoint entry.1.exchange
        entry.1.network entry.1.marketType entry.1.protocol = some entry.2 := by decide +kernel
  exact hall (key, endpoint) h

/-- ... and for an exchange that it does not hold, the endpoint of one that it does, on the
other network. -/
theorem not_lookupExact_default :
    (defaultEndpoints.map Prod.fst).Nodup ∧ ¬ LookupExact .ofInt defaultEndpoints := by
  refine ⟨by decide +kernel, fun h => ?_⟩
  have habsent := h.absent ⟨.kMexc, .kTestnet, .kSpot, .kHTTPS⟩ (by decide +kernel)
  have hfound : (EndpointManager.ofEntries .ofInt defaultEndpoints).getEndpoint .kMexc .kTestnet
      .kSpot .kHTTPS = some (.new "api.binance.com" 443 5000 60000) := by
    rw [← getEndpoint_default ⟨.kBinance, .kMainnet, .kSpot, .kHTTPS⟩ _
      (by simp [defaultEndpoints])]
    exact getEndpoint_twin defaultEndpoints .kBinance .kMainnet .kSpot .kHTTPS
  rw [hfound] at habsent
  cases habsent

end CryptoBot.Requests

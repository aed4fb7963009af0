/-
# The message with the registered cycles

Once the cycles are registered, the program publishes the dictionary as a protobuf
message: a map from the hash of a cycle to a trade, and a trade is the list of its
transactions.  Each trade is serialised on its own and parsed back into its place in
the map.  A step whose pair is not configured is left out of its trade.

Protobuf is a parameter.  What is used of it is that the messages in question are
parsed to what was serialised; a map may come back in another order.

The law is a round trip over whole runs: from the bytes and the symbols of the pairs
one reads back the cycles that were registered, and no others.
-/

import CryptoBot.Arbitrage.Dictionary
import CryptoBot.Common.Configuration

namespace CryptoBot.Arbitrage

open CryptoBot.Common CryptoBot.Math

/-! ## The messages -/

namespace Proto

inductive ExchangeId
  | BINANCE | BYBIT | MEXC | EXCHANGE_ID_INVALID
  deriving DecidableEq, Repr

inductive MarketType
  | SPOT | FUTURES | OPTIONS | MARKET_TYPE_INVALID
  deriving DecidableEq, Repr

inductive TransactionAction
  | BUY | SELL
  deriving DecidableEq, Repr

structure Transaction where
  tradingPair : String := ""
  exchangeId : ExchangeId := .BINANCE
  marketType : MarketType := .SPOT
  transactionAction : TransactionAction := .BUY
  deriving DecidableEq, Repr

structure Trade where
  id : UInt64 := 0
  transactions : List Transaction := []
  deriving DecidableEq, Repr

/-- `map<uint64, Trade>`. -/
abbrev Trades := UnorderedMap UInt64 Trade

end Proto

namespace Models

/-- `ConvertToProtoEnum` of an exchange. -/
def convertExchangeId : ExchangeId → Proto.ExchangeId
  | .kBinance => .BINANCE
  | .kBybit => .BYBIT
  | .kMexc => .MEXC
  | .kInvalid => .EXCHANGE_ID_INVALID

/-- `ConvertToProtoEnum` of a market type. -/
def convertMarketType : MarketType → Proto.MarketType
  | .kSpot => .SPOT
  | .kFutures => .FUTURES
  | .kOptions => .OPTIONS
  | .kInvalid => .MARKET_TYPE_INVALID

/-- `ConvertToProtoEnum` of an operation. -/
def convertOperation : Operation → Proto.TransactionAction
  | .kBuy => .BUY
  | .kSell => .SELL

/-- The configured pairs by exchange. -/
abbrev PairTable := ExchangeId → TradingPair → Option ConfiguredPair

/-- Protobuf: serialising and parsing the two messages.  `ParseFromArray` leaves a message
behind whether or not it succeeds. -/
structure Codec (Bytes : Type) where
  serializeTrade : Proto.Trade → Bytes
  parseTrade : Bytes → Proto.Trade × Bool
  serializeTrades : Proto.Trades → Bytes
  parseTrades : Bytes → Option Proto.Trades

section

variable {Bytes : Type} (codec : Codec Bytes) (setting : Setting) (table : PairTable)
  (placement : Placement (UInt64 × Proto.Trade))

/-- The body of the loop of `Trade::SerializeTo`. -/
def addTransaction (message : Proto.Trade) (step : Step) : Proto.Trade :=
  match table step.exchangeId step.tradingPair with
  | none => message
  | some info =>
    { message with transactions := message.transactions ++
        [{ tradingPair := info.httpsJsonRequest
           exchangeId := convertExchangeId step.exchangeId
           marketType := convertMarketType step.marketType
           transactionAction := convertOperation step.operation }] }

/-- The message that `Trade::SerializeTo` serialises. -/
def tradeMessage (cycle : ArbitrageCycle) : Proto.Trade :=
  cycle.foldl (addTransaction table) { id := setting.hashing.arbitrageCycleHash cycle }

/-- The body of the loop of `Trades::SerializeTo`. -/
def addTrade (message : Proto.Trades) (cycle : ArbitrageCycle) : Proto.Trades :=
  let tradeData := codec.serializeTrade (tradeMessage setting table cycle)
  message.set placement (setting.hashing.arbitrageCycleHash cycle) (codec.parseTrade tradeData).1

/-- The message that `Trades::SerializeTo` serialises. -/
def tradesMessage (trades : TradeDictionary) : Proto.Trades :=
  (trades.getUniqueCycles setting.cyclePlacement).foldl (addTrade codec setting table placement)
    .empty

def serializeTo (trades : TradeDictionary) : Bytes :=
  codec.serializeTrades (tradesMessage codec setting table placement trades)

end

/-- The codec gives these messages back. -/
structure Codec.RoundTrips {Bytes : Type} (codec : Codec Bytes) (trades : List Proto.Trade)
    (message : Proto.Trades) : Prop where
  trade : ∀ trade ∈ trades, codec.parseTrade (codec.serializeTrade trade) = (trade, true)
  trades : ∃ parsed, codec.parseTrades (codec.serializeTrades message) = some parsed ∧
    parsed.find = message.find

/-! ## What is published -/

variable {Bytes : Type} {codec : Codec Bytes} {setting : Setting} {table : PairTable}
  {placement : Placement (UInt64 × Proto.Trade)} {cycles : List ArbitrageCycle}

/-- The transaction of a step on a configured pair. -/
def transactionOf (table : PairTable) (step : Step) : Option Proto.Transaction :=
  (table step.exchangeId step.tradingPair).map fun info =>
    { tradingPair := info.httpsJsonRequest
      exchangeId := convertExchangeId step.exchangeId
      marketType := convertMarketType step.marketType
      transactionAction := convertOperation step.operation }

theorem tradeMessage_eq (cycle : ArbitrageCycle) :
    tradeMessage setting table cycle =
      { id := setting.hashing.arbitrageCycleHash cycle
        transactions := cycle.filterMap (transactionOf table) } := by
  have hloop : ∀ (steps : List Step) (message : Proto.Trade),
      steps.foldl (addTransaction table) message =
        { message with
          transactions := message.transactions ++ steps.filterMap (transactionOf table) } := by
    intro steps
    induction steps with
    | nil =>
      intro message
      simp
    | cons step steps ih =>
      intro message
      rw [List.foldl_cons, ih, List.filterMap_cons]
      cases hinfo : table step.exchangeId step.tradingPair with
      | none => simp [addTransaction, transactionOf, hinfo]
      | some info => simp [addTransaction, transactionOf, hinfo]
  rw [tradeMessage, hloop, List.nil_append]

theorem find_tradesMessage (trades : TradeDictionary) :
    (tradesMessage codec setting table placement trades).find = writes (fun _ => none)
      ((trades.getUniqueCycles setting.cyclePlacement).map fun cycle =>
        (setting.hashing.arbitrageCycleHash cycle,
          some (codec.parseTrade (codec.serializeTrade (tradeMessage setting table cycle))).1)) :=
  UnorderedMap.find_foldl_set _ placement _ _ _

open ArbitrageStrategyComponent in
/-- A cycle is listed when it was registered and has a step. -/
theorem mem_getUniqueCycles_iff {component : ArbitrageStrategyComponent}
    (h : Registered setting component cycles) (cycle : ArbitrageCycle) :
    cycle ∈ component.exchangeTradingPairArbitrageMap.getUniqueCycles setting.cyclePlacement ↔
      cycle ∈ cycles ∧ cycle ≠ [] := by
  rw [TradeDictionary.getUniqueCycles, Placement.mem_insertAll]
  simp only [List.not_mem_nil, false_or, List.mem_map, Prod.exists, exists_eq_right,
    h.mem_dictionary]
  constructor
  · rintro ⟨_, hcycle, venue, hvenue, _⟩
    refine ⟨hcycle, ?_⟩
    rintro rfl
    simp [ArbitrageCycle.venues] at hvenue
  · rintro ⟨hcycle, hne⟩
    obtain ⟨step, hstep⟩ := List.exists_mem_of_ne_nil cycle hne
    exact ⟨_, hcycle, step.venue, List.mem_map_of_mem hstep, rfl⟩

open ArbitrageStrategyComponent in
/-- The message has one trade for each registered cycle, under its hash. -/
theorem find_tradesMessage_eq_some_iff {component : ArbitrageStrategyComponent}
    (h : Registered setting component cycles)
    (hinjective : Set.InjOn setting.hashing.arbitrageCycleHash { cycle | cycle ∈ cycles })
    (hcodec : ∀ cycle ∈ cycles, codec.parseTrade (codec.serializeTrade
      (tradeMessage setting table cycle)) = (tradeMessage setting table cycle, true))
    (id : UInt64) (trade : Proto.Trade) :
    (tradesMessage codec setting table placement
        component.exchangeTradingPairArbitrageMap).find id = some trade ↔
      ∃ cycle ∈ cycles, cycle ≠ [] ∧ setting.hashing.arbitrageCycleHash cycle = id ∧
        tradeMessage setting table cycle = trade := by
  rw [find_tradesMessage]
  constructor
  · intro hfind
    have hkey : id ∈ ((component.exchangeTradingPairArbitrageMap.getUniqueCycles
        setting.cyclePlacement).map fun cycle => (setting.hashing.arbitrageCycleHash cycle,
          some (codec.parseTrade (codec.serializeTrade
            (tradeMessage setting table cycle))).1)).map Prod.fst := by
      by_contra habsent
      rw [writes_apply_of_notMem habsent] at hfind
      cases hfind
    have hmem := mem_writes_of_mem hkey fun _ => none
    rw [hfind] at hmem
    obtain ⟨cycle, hcycle, hequal⟩ := List.mem_map.mp hmem
    obtain ⟨hregistered, hne⟩ := (mem_getUniqueCycles_iff h cycle).mp hcycle
    obtain ⟨hid, htrade⟩ := Prod.mk.inj hequal
    rw [hcodec cycle hregistered] at htrade
    exact ⟨cycle, hregistered, hne, hid, Option.some.inj htrade⟩
  · rintro ⟨cycle, hcycle, hne, rfl, rfl⟩
    apply writes_apply_of_forall_mem
    · rw [List.map_map]
      exact List.mem_map_of_mem ((mem_getUniqueCycles_iff h cycle).mpr ⟨hcycle, hne⟩)
    · intro entry hentry hid
      obtain ⟨other, hother, rfl⟩ := List.mem_map.mp hentry
      have hregistered := ((mem_getUniqueCycles_iff h other).mp hother).1
      rw [hinjective hregistered hcycle hid, hcodec cycle hcycle]

/-! ## Reading the cycles back -/

def exchangeIdOf : Proto.ExchangeId → ExchangeId
  | .BINANCE => .kBinance
  | .BYBIT => .kBybit
  | .MEXC => .kMexc
  | .EXCHANGE_ID_INVALID => .kInvalid

def marketTypeOf : Proto.MarketType → MarketType
  | .SPOT => .kSpot
  | .FUTURES => .kFutures
  | .OPTIONS => .kOptions
  | .MARKET_TYPE_INVALID => .kInvalid

def operationOf : Proto.TransactionAction → Operation
  | .BUY => .kBuy
  | .SELL => .kSell

/-- The step of a transaction, with what its symbol stands for on its exchange. -/
def readStep (resolve : ExchangeId → String → Option TradingPair)
    (transaction : Proto.Transaction) : Option Step :=
  (resolve (exchangeIdOf transaction.exchangeId) transaction.tradingPair).map fun tradingPair =>
    { tradingPair
      exchangeId := exchangeIdOf transaction.exchangeId
      marketType := marketTypeOf transaction.marketType
      operation := operationOf transaction.transactionAction }

def readCycle (resolve : ExchangeId → String → Option TradingPair) (trade : Proto.Trade) :
    Option ArbitrageCycle :=
  trade.transactions.mapM (readStep resolve)

variable {resolve : ExchangeId → String → Option TradingPair}

/-- The symbols lead back to the pairs of the table. -/
def Resolves (table : PairTable) (resolve : ExchangeId → String → Option TradingPair) : Prop :=
  ∀ exchangeId tradingPair info, table exchangeId tradingPair = some info →
    resolve exchangeId info.httpsJsonRequest = some tradingPair

theorem readStep_transactionOf (hresolves : Resolves table resolve) {step : Step}
    (hlisted : (table step.exchangeId step.tradingPair).isSome) :
    ∃ transaction, transactionOf table step = some transaction ∧
      readStep resolve transaction = some step := by
  obtain ⟨info, hinfo⟩ := Option.isSome_iff_exists.mp hlisted
  refine ⟨_, by rw [transactionOf, hinfo, Option.map_some], ?_⟩
  have hexchange : exchangeIdOf (convertExchangeId step.exchangeId) = step.exchangeId := by
    cases step.exchangeId <;> rfl
  have hmarket : marketTypeOf (convertMarketType step.marketType) = step.marketType := by
    cases step.marketType <;> rfl
  have hoperation : operationOf (convertOperation step.operation) = step.operation := by
    cases step.operation <;> rfl
  simp only [readStep, hexchange, hresolves _ _ _ hinfo, Option.map_some, hmarket, hoperation]

/-- A trade is read back to its cycle when all of its pairs are configured. -/
theorem readCycle_tradeMessage (hresolves : Resolves table resolve) {cycle : ArbitrageCycle}
    (hlisted : ∀ step ∈ cycle, (table step.exchangeId step.tradingPair).isSome) :
    readCycle resolve (tradeMessage setting table cycle) = some cycle := by
  rw [readCycle, tradeMessage_eq]
  dsimp only
  induction cycle with
  | nil => rfl
  | cons step steps ih =>
    obtain ⟨transaction, htransaction, hstep⟩ :=
      readStep_transactionOf hresolves (hlisted step List.mem_cons_self)
    have hrest := ih fun later hlater => hlisted later (List.mem_cons_of_mem _ hlater)
    rw [List.filterMap_cons, htransaction]
    simp only [List.mapM_cons, hstep, hrest, Option.bind_eq_bind, Option.bind_some,
      Option.pure_def]

open ArbitrageStrategyComponent in
/-- What is published after any run of registrations and quotes is read back to the
cycles that were registered and have a step, each under its hash, and to nothing else.
The pair of every step is configured: a step of any other pair would be left out. -/
theorem published_roundTrip (codec : Codec Bytes) (setting : Setting) (table : PairTable)
    (placement : Placement (UInt64 × Proto.Trade))
    (resolve : ExchangeId → String → Option TradingPair) (events : List Event)
    (hinjective : Set.InjOn setting.hashing.arbitrageCycleHash
      { cycle | cycle ∈ added events })
    (hcodec : codec.RoundTrips ((added events).map (tradeMessage setting table))
      (tradesMessage codec setting table placement
        ((machine setting).run events).exchangeTradingPairArbitrageMap))
    (hlisted : ∀ cycle ∈ added events, ∀ step ∈ cycle,
      (table step.exchangeId step.tradingPair).isSome)
    (hresolves : Resolves table resolve) :
    ∃ parsed,
      codec.parseTrades (serializeTo codec setting table placement
        ((machine setting).run events).exchangeTradingPairArbitrageMap) = some parsed ∧
      (∀ id trade, parsed.find id = some trade →
        ∃ cycle ∈ added events, cycle ≠ [] ∧ setting.hashing.arbitrageCycleHash cycle = id ∧
          trade.id = id ∧ readCycle resolve trade = some cycle) ∧
      ∀ cycle ∈ added events, cycle ≠ [] →
        ∃ trade, parsed.find (setting.hashing.arbitrageCycleHash cycle) = some trade ∧
          readCycle resolve trade = some cycle := by
  have hregistered : Registered setting ((machine setting).run events) (added events) :=
    registered_run hinjective
  have htrades : ∀ cycle ∈ added events, codec.parseTrade (codec.serializeTrade
      (tradeMessage setting table cycle)) = (tradeMessage setting table cycle, true) := by
    intro cycle hcycle
    exact hcodec.trade _ (List.mem_map_of_mem hcycle)
  obtain ⟨parsed, hparsed, hfind⟩ := hcodec.trades
  have hmessage : ∀ id trade, parsed.find id = some trade ↔ ∃ cycle ∈ added events,
      cycle ≠ [] ∧ setting.hashing.arbitrageCycleHash cycle = id ∧
        tradeMessage setting table cycle = trade := by
    intro id trade
    rw [hfind]
    exact find_tradesMessage_eq_some_iff hregistered hinjective htrades id trade
  refine ⟨parsed, hparsed, ?_, ?_⟩
  · intro id trade htrade
    obtain ⟨cycle, hcycle, hne, hid, rfl⟩ := (hmessage id trade).mp htrade
    refine ⟨cycle, hcycle, hne, hid, ?_, readCycle_tradeMessage hresolves (hlisted cycle hcycle)⟩
    rw [tradeMessage_eq, hid]
  · intro cycle hcycle hne
    exact ⟨_, (hmessage _ _).mpr ⟨cycle, hcycle, hne, rfl, rfl⟩,
      readCycle_tradeMessage hresolves (hlisted cycle hcycle)⟩

/-! ### The encoding of proto3 -/

namespace Wire

/-- A number in groups of seven bits, the low ones first. -/
def varint : ℕ → ℕ → List UInt8
  | 0, _ => []
  | groups + 1, number =>
    if number < 128 then [number.toUInt8]
    else (number % 128 + 128).toUInt8 :: varint groups (number / 128)

def readVarint : List UInt8 → Option (ℕ × List UInt8)
  | [] => none
  | byte :: rest =>
    if byte < 128 then some (byte.toNat, rest)
    else (readVarint rest).map fun (high, rest) => (byte.toNat - 128 + 128 * high, rest)

inductive Field
  | number (field value : ℕ)
  | bytes (field : ℕ) (payload : List UInt8)

def Field.encode : Field → List UInt8
  | number field value => varint 10 (8 * field) ++ varint 10 value
  | bytes field payload => varint 10 (8 * field + 2) ++ varint 10 payload.length ++ payload

/-- The fields of a message, with a bound on their number. -/
def readFields : ℕ → List UInt8 → Option (List Field)
  | _, [] => some []
  | 0, _ => none
  | bound + 1, message => do
    let (tag, rest) ← readVarint message
    let (value, rest) ← readVarint rest
    if tag % 8 = 0 then
      return .number (tag / 8) value :: (← readFields bound rest)
    else if tag % 8 = 2 ∧ value ≤ rest.length then
      return .bytes (tag / 8) (rest.take value) :: (← readFields bound (rest.drop value))
    else none

/-- A field with the default value is left out. -/
def enumField (field value : ℕ) : List UInt8 :=
  if value = 0 then [] else (Field.number field value).encode

def exchangeIds : List Proto.ExchangeId := [.BINANCE, .BYBIT, .MEXC, .EXCHANGE_ID_INVALID]

def marketTypes : List Proto.MarketType := [.SPOT, .FUTURES, .OPTIONS, .MARKET_TYPE_INVALID]

def actions : List Proto.TransactionAction := [.BUY, .SELL]

/-- The bytes of a text without characters outside of ASCII. -/
def textField (field : ℕ) (text : String) : List UInt8 :=
  if text = "" then [] else (Field.bytes field (text.toList.map fun c => c.toNat.toUInt8)).encode

def encodeTransaction (transaction : Proto.Transaction) : List UInt8 :=
  textField 1 transaction.tradingPair ++
    enumField 2 (exchangeIds.idxOf transaction.exchangeId) ++
    enumField 3 (marketTypes.idxOf transaction.marketType) ++
    enumField 4 (actions.idxOf transaction.transactionAction)

def mergeTransaction (transaction : Proto.Transaction) : Field → Proto.Transaction
  | .bytes 1 payload =>
    { transaction with tradingPair := .ofList (payload.map fun byte => .ofNat byte.toNat) }
  | .number 2 value => { transaction with exchangeId := exchangeIds.getD value .BINANCE }
  | .number 3 value => { transaction with marketType := marketTypes.getD value .SPOT }
  | .number 4 value => { transaction with transactionAction := actions.getD value .BUY }
  | _ => transaction

def parseTransaction (message : List UInt8) : Option Proto.Transaction :=
  (readFields message.length message).map (List.foldl mergeTransaction {})

def encodeTrade (trade : Proto.Trade) : List UInt8 :=
  enumField 1 trade.id.toNat ++
    trade.transactions.flatMap fun transaction =>
      (Field.bytes 2 (encodeTransaction transaction)).encode

def mergeTrade (trade : Proto.Trade) : Field → Option Proto.Trade
  | .number 1 value => some { trade with id := .ofNat value }
  | .bytes 2 payload => (parseTransaction payload).map fun transaction =>
      { trade with transactions := trade.transactions ++ [transaction] }
  | _ => some trade

def parseTrade (message : List UInt8) : Option Proto.Trade := do
  (← readFields message.length message).foldlM mergeTrade {}

/-- An entry of the map is a message with a key and a value. -/
def encodeEntry (entry : UInt64 × Proto.Trade) : List UInt8 :=
  (Field.bytes 1 ((Field.number 1 entry.1.toNat).encode ++
    (Field.bytes 2 (encodeTrade entry.2)).encode)).encode

def mergeEntry (entry : UInt64 × Proto.Trade) : Field → Option (UInt64 × Proto.Trade)
  | .number 1 value => some (.ofNat value, entry.2)
  | .bytes 2 payload => (parseTrade payload).map fun trade => (entry.1, trade)
  | _ => some entry

def mergeTrades (trades : Proto.Trades) : Field → Option Proto.Trades
  | .bytes 1 payload => do
    let (id, trade) ← (← readFields payload.length payload).foldlM mergeEntry (0, {})
    return trades.set .back id trade
  | _ => some trades

def proto3 : Codec (List UInt8) where
  serializeTrade := encodeTrade
  parseTrade message :=
    match parseTrade message with
    | some trade => (trade, true)
    | none => ({}, false)
  serializeTrades trades := trades.entries.flatMap encodeEntry
  parseTrades message := do (← readFields message.length message).foldlM mergeTrades .empty

end Wire

/-- Bitcoin, with one symbol on all exchanges. -/
def bitcoin : ConfiguredPairs where
  entries := [(⟨2, 1⟩,
    { pricePrecission := 2, qtyPrecission := 5, httpsJsonRequest := "BTCUSDT" })]
  nodup := by decide

theorem distinct_bitcoin : Distinct bitcoin := by
  intro first second firstInfo secondInfo hfirst hsecond hsymbol
  rw [← bitcoin.mem_entries_iff] at hfirst hsecond
  simp only [bitcoin, List.mem_singleton, Prod.mk.injEq] at hfirst hsecond
  rw [hfirst.1, hsecond.1]

open ArbitrageStrategyComponent in
theorem roundTrips_registrations :
    Wire.proto3.RoundTrips
      ((added registrations).map
        (tradeMessage (boostSetting ⟨fun _ => none⟩) fun _ => bitcoin.find))
      (tradesMessage Wire.proto3 (boostSetting ⟨fun _ => none⟩) (fun _ => bitcoin.find) .back
        ((machine (boostSetting ⟨fun _ => none⟩)).run
          registrations).exchangeTradingPairArbitrageMap) where
  trade := by decide +kernel
  trades := by
    have hentries : (Wire.proto3.parseTrades (Wire.proto3.serializeTrades
        (tradesMessage Wire.proto3 (boostSetting ⟨fun _ => none⟩) (fun _ => bitcoin.find) .back
          ((machine (boostSetting ⟨fun _ => none⟩)).run
            registrations).exchangeTradingPairArbitrageMap))).map UnorderedMap.entries =
        some (tradesMessage Wire.proto3 (boostSetting ⟨fun _ => none⟩) (fun _ => bitcoin.find) .back
          ((machine (boostSetting ⟨fun _ => none⟩)).run
            registrations).exchangeTradingPairArbitrageMap).entries := by
      decide +kernel
    obtain ⟨parsed, hparsed, hequal⟩ := Option.map_eq_some_iff.mp hentries
    refine ⟨parsed, hparsed, ?_⟩
    funext id
    rw [UnorderedMap.find, UnorderedMap.find, hequal]

open ArbitrageStrategyComponent in
/-- Two cycles, one of them registered twice, are read back from the bytes. -/
theorem published_registrations :
    ∃ parsed,
      Wire.proto3.parseTrades (serializeTo Wire.proto3 (boostSetting ⟨fun _ => none⟩)
        (fun _ => bitcoin.find) .back ((machine (boostSetting ⟨fun _ => none⟩)).run
          registrations).exchangeTradingPairArbitrageMap) = some parsed ∧
      (∀ id trade, parsed.find id = some trade →
        ∃ cycle ∈ added registrations, cycle ≠ [] ∧
          boostHashing.arbitrageCycleHash cycle = id ∧ trade.id = id ∧
          readCycle (fun _ => (initTPsJR .back bitcoin).find) trade = some cycle) ∧
      ∀ cycle ∈ added registrations, cycle ≠ [] →
        ∃ trade, parsed.find (boostHashing.arbitrageCycleHash cycle) = some trade ∧
          readCycle (fun _ => (initTPsJR .back bitcoin).find) trade = some cycle := by
  have hhashes : ∀ first ∈ added registrations, ∀ second ∈ added registrations,
      boostHashing.arbitrageCycleHash first = boostHashing.arbitrageCycleHash second →
        first = second := by
    decide +kernel
  apply published_roundTrip Wire.proto3 (boostSetting ⟨fun _ => none⟩) (fun _ => bitcoin.find) .back
    (fun _ => (initTPsJR .back bitcoin).find) registrations
  · intro first hfirst second hsecond hhash
    exact hhashes first hfirst second hsecond hhash
  · exact roundTrips_registrations
  · decide +kernel
  · intro exchangeId tradingPair info hinfo
    exact forall_find_initTPsJR_iff.mpr distinct_bitcoin tradingPair info hinfo

end Models

end CryptoBot.Arbitrage

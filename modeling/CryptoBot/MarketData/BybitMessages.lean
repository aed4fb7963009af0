/-
# The messages of Bybit

One stream carries snapshots, diffs and the answers to subscriptions.  The parser
manager looks at a message to find its kind and hands it to the handler of the kind.
The handlers of depth messages unwrap the alternative they expect from the depth
parser, and the parser, when it rejects a message, returns its first alternative, a
snapshot.  So a rejected snapshot is an empty snapshot, and a rejected diff raises.

The depth parser is lenient: numbers that cannot be read, and levels that are too short
or too long, are skipped or cut.  It rejects what has no symbol of a registered pair,
no update id, or bids that are not arrays; asks that are not arrays are skipped.
-/

import CryptoBot.Math.Json
import CryptoBot.MarketData.Update
import CryptoBot.Requests.LimitOrder

namespace CryptoBot.MarketData.Bybit

open CryptoBot.Common CryptoBot.Math CryptoBot.Requests

inductive Failure
  | simdjsonError | badVariantAccess
  deriving DecidableEq, Repr

def IsValidType (type : String) : Prop := type = "snapshot" ∨ type = "delta"

instance (type : String) : Decidable (IsValidType type) := inferInstanceAs (Decidable (_ ∨ _))

/-! ## The depth parser -/

inductive ResponseVariant
  | bookSnapshot (book : BookSnapshot)
  | bookDiffSnapshot (book : BookDiffSnapshot)

instance : Inhabited ResponseVariant := ⟨.bookSnapshot {}⟩

variable (reader : NumberReader)

/-- The numbers of a level that are written before the loop ends: there are two of them,
or one cannot be read. -/
def readPair : List ℚ → List Json → List ℚ
  | pair, [] => pair
  | pair, number :: rest =>
    if 2 ≤ pair.length then pair
    else
      match number.getDoubleInString reader with
      | some value => readPair (pair ++ [value]) rest
      | none => pair

/-- The level that is stored. -/
def entry (info : TradingPairInfo) (price qty : ℚ) : BookSnapshotElem :=
  .ofDoubles info price qty

/-- A level with two numbers is stored and any other is skipped. -/
def readLevel (info : TradingPairInfo) (numbers : List Json) : List BookSnapshotElem :=
  match readPair reader [] numbers with
  | [price, qty] => [entry info price qty]
  | _ => []

/-- The loop over the bids, with nothing for an error. -/
def readBids (info : TradingPairInfo) : List (Option Json) → Option (List BookSnapshotElem)
  | [] => some []
  | all :: rest => do
    let numbers ← all.bind Json.getArray
    let others ← readBids info rest
    return readLevel reader info numbers ++ others

/-- The loop over the asks, which passes over what is not an array. -/
def readAsks (info : TradingPairInfo) (elements : List (Option Json)) : List BookSnapshotElem :=
  elements.flatMap fun all =>
    match all.bind Json.getArray with
    | some numbers => readLevel reader info numbers
    | none => []

def readBidsOf (info : TradingPairInfo) (data : Json) : Option (List BookSnapshotElem) :=
  match data.find "b" with
  | some bids => readBids reader info (Json.elements (some bids))
  | none => some []

def readAsksOf (info : TradingPairInfo) (data : Json) : List BookSnapshotElem :=
  match data.find "a" with
  | some asks => readAsks reader info (Json.elements (some asks))
  | none => []

/-- What a message of a registered pair is parsed to, with nothing for an error. -/
def readBook (info : TradingPairInfo) (tradingPair : TradingPair) (type : String)
    (data : Json) : Option ResponseVariant := do
  let bids ← readBidsOf reader info data
  let asks := readAsksOf reader info data
  let id ← (data.find "u").bind (Json.getUint64 reader)
  if type = "snapshot" then
    return .bookSnapshot { exchangeId := .kBybit, tradingPair, bids, asks, lastUpdateId := id }
  else if type = "delta" then
    return .bookDiffSnapshot { exchangeId := .kBybit, tradingPair, bids, asks, lastId := id }
  else
    return default

/-- `FamilyBookEventGetter::ParserResponse::Parse`, in both overloads. -/
def FamilyBookEventGetter.parse (pairs : TradingPairHashMap)
    (pairsReverse : String → Option TradingPair) (doc : Json) : ResponseVariant :=
  match doc.find "data" with
  | none => default
  | some data =>
    match (doc.find "type").bind Json.getString with
    | none => default
    | some type =>
      if IsValidType type then
        match (data.find "s").bind Json.getString with
        | none => default
        | some symbol =>
          match pairsReverse symbol with
          | none => default
          | some tradingPair =>
            (readBook reader (pairs.at tradingPair) tradingPair type data).getD default
      else default

/-! ## Answers to requests -/

inductive ApiResponseStatus
  | kSuccess | kError
  deriving DecidableEq, Repr

inductive RequestId
  | text (value : String)
  | signed (value : ℤ)
  | unsigned (value : UInt64)
  deriving DecidableEq, Repr

structure ApiResponseData where
  status : ApiResponseStatus := .kError
  id : RequestId := .signed 0
  deriving DecidableEq, Repr

/-- `ApiResponseParser::Parse`.  The number of an id is converted without a check. -/
def ApiResponseParser.parse (doc : Json) : Except Failure ApiResponseData :=
  let data : ApiResponseData :=
    match (doc.find "success").bind Json.getBool with
    | some success => { status := if success then .kSuccess else .kError }
    | none => {}
  match doc.find "req_id" with
  | some (.string id) => .ok { data with id := .text id }
  | some (.number token) =>
    match reader.getNumber token with
    | none => .error .simdjsonError
    | some (.signedInteger value) => .ok { data with id := .signed value }
    | some (.unsignedInteger value) => .ok { data with id := .unsigned value }
    | some _ => .ok data
  | _ => .ok data

/-! ## The parser manager -/

inductive ResponseType
  | kSnapshot | kDepthUpdate | kApiResponse | kErrorResponse | kNonQueryResponse | kUnknown
  deriving DecidableEq, Repr

inductive ParsedData
  | bookDiffSnapshot (book : BookDiffSnapshot)
  | bookSnapshot (book : BookSnapshot)
  | apiResponse (data : ApiResponseData)

instance : Inhabited ParsedData := ⟨.bookDiffSnapshot {}⟩

abbrev Handler := Json → Except Failure ParsedData

structure ParserManager where
  handlers : ResponseType → Option Handler := fun _ => none

namespace ParserManager

def registerHandler (manager : ParserManager) (type : ResponseType) (handler : Handler) :
    ParserManager where
  handlers := Function.update manager.handlers type (some handler)

/-- The document says that it is of the type. -/
def IsType (doc : Json) (type : String) : Prop := (doc.find "type").bind Json.getString = some type

instance (doc : Json) (type : String) : Decidable (IsType doc type) :=
  inferInstanceAs (Decidable (_ = _))

def determineType (doc : Json) : ResponseType :=
  if IsType doc "delta" then .kDepthUpdate
  else if IsType doc "snapshot" then .kSnapshot
  else if (doc.find "success").isSome then .kNonQueryResponse
  else .kUnknown

def parse (manager : ParserManager) (doc : Json) : Except Failure ParsedData :=
  match manager.handlers (determineType doc) with
  | none => .ok default
  | some handler => handler doc

end ParserManager

/-- `std::get<Exchange::BookDiffSnapshot>`. -/
def ResponseVariant.getDiff : ResponseVariant → Except Failure ParsedData
  | bookDiffSnapshot book => .ok (.bookDiffSnapshot book)
  | bookSnapshot _ => .error .badVariantAccess

/-- `std::get<Exchange::BookSnapshot>`. -/
def ResponseVariant.getSnapshot : ResponseVariant → Except Failure ParsedData
  | bookSnapshot book => .ok (.bookSnapshot book)
  | bookDiffSnapshot _ => .error .badVariantAccess

def initParserManager (pairs : TradingPairHashMap) (pairsReverse : String → Option TradingPair) :
    ParserManager :=
  let manager : ParserManager := {}
  let manager := manager.registerHandler .kNonQueryResponse fun doc =>
    (ApiResponseParser.parse reader doc).map .apiResponse
  let manager := manager.registerHandler .kDepthUpdate fun doc =>
    (FamilyBookEventGetter.parse reader pairs pairsReverse doc).getDiff
  manager.registerHandler .kSnapshot fun doc =>
    (FamilyBookEventGetter.parse reader pairs pairsReverse doc).getSnapshot

/-! ## What the depth parser rejects -/

/-- The bids are missing, or they are an array of arrays. -/
def BidsIterable (data : Json) : Prop :=
  ∀ bids, data.find "b" = some bids →
    ∃ values, bids = .array values ∧ ∀ value ∈ values, ∃ numbers, value = .array numbers

/-- A depth message that is not rejected: a registered symbol, an update id, and bids
that can be walked. -/
structure Acceptable (pairsReverse : String → Option TradingPair) (data : Json) : Prop where
  symbol : (((data.find "s").bind Json.getString).bind pairsReverse).isSome
  bids : BidsIterable data
  id : ((data.find "u").bind (Json.getUint64 reader)).isSome

variable {reader} {pairs : TradingPairHashMap} {pairsReverse : String → Option TradingPair}
  {info : TradingPairInfo} {tradingPair : TradingPair} {doc data : Json}

theorem isSome_readBids_iff {elements : List (Option Json)} :
    (readBids reader info elements).isSome ↔
      ∀ all ∈ elements, (all.bind Json.getArray).isSome := by
  induction elements with
  | nil => simp [readBids]
  | cons all rest ih =>
    rw [List.forall_mem_cons, ← ih, readBids]
    cases all.bind Json.getArray <;> cases readBids reader info rest <;> simp

theorem isSome_readBidsOf_iff : (readBidsOf reader info data).isSome ↔ BidsIterable data := by
  cases hfind : data.find "b" with
  | none => simp [readBidsOf, BidsIterable, hfind]
  | some bids =>
    simp only [readBidsOf, BidsIterable, hfind, Option.some.injEq, forall_eq',
      isSome_readBids_iff]
    cases harray : bids.getArray with
    | none =>
      have hnot : ¬ ∃ values, bids = Json.array values := by
        rw [← Json.isSome_getArray_iff, harray]
        simp
      rw [Json.elements_of_none (by rw [Option.bind_some, harray])]
      simp only [List.mem_singleton, forall_eq, Option.bind_none, Option.isSome_none,
        Bool.false_eq_true, false_iff]
      rintro ⟨values, hvalues, -⟩
      exact hnot ⟨values, hvalues⟩
    | some values =>
      obtain ⟨_, rfl⟩ := Json.isSome_getArray_iff.mp (harray ▸ Option.isSome_some)
      rw [Json.elements_of_array (by rw [Option.bind_some, harray])]
      simp only [Json.getArray, Option.some.injEq] at harray
      simp [harray, Json.isSome_getArray_iff]

/-- A diff is returned as a diff, if nothing raises on the way. -/
theorem isSome_readBook_iff {type : String} :
    (readBook reader info tradingPair type data).isSome ↔
      BidsIterable data ∧ ((data.find "u").bind (Json.getUint64 reader)).isSome := by
  rw [← isSome_readBidsOf_iff, readBook]
  cases readBidsOf reader info data <;>
    cases (data.find "u").bind (Json.getUint64 reader) <;> simp
  split
  · simp
  · split <;> simp

theorem exists_readBook_delta {response : ResponseVariant}
    (h : readBook reader info tradingPair "delta" data = some response) :
    ∃ book, response = .bookDiffSnapshot book := by
  simp only [readBook, Option.bind_eq_bind, Option.bind_eq_some_iff] at h
  obtain ⟨bids, -, id, -, h⟩ := h
  exact ⟨_, (Option.some.inj h).symm⟩

theorem exists_readBook_snapshot {response : ResponseVariant}
    (h : readBook reader info tradingPair "snapshot" data = some response) :
    ∃ book, response = .bookSnapshot book := by
  simp only [readBook, Option.bind_eq_bind, Option.bind_eq_some_iff] at h
  obtain ⟨bids, -, id, -, h⟩ := h
  exact ⟨_, (Option.some.inj h).symm⟩

/-- The parser reads a message of a valid type down to the book. -/
theorem parse_of_type {type : String} (htype : ParserManager.IsType doc type)
    (hvalid : IsValidType type) :
    FamilyBookEventGetter.parse reader pairs pairsReverse doc =
      ((doc.find "data").bind fun data =>
        (((data.find "s").bind Json.getString).bind pairsReverse).bind fun tradingPair =>
          readBook reader (pairs.at tradingPair) tradingPair type data).getD default := by
  rw [ParserManager.IsType] at htype
  cases hdata : doc.find "data" with
  | none => simp [FamilyBookEventGetter.parse, hdata]
  | some data =>
    cases hsymbol : (data.find "s").bind Json.getString with
    | none => simp [FamilyBookEventGetter.parse, hdata, htype, hsymbol]
    | some symbol =>
      cases hpair : pairsReverse symbol <;>
        simp [FamilyBookEventGetter.parse, hdata, htype, hsymbol, hpair, hvalid]

theorem getSnapshot_parse (htype : ParserManager.IsType doc "snapshot") :
    ∃ parsed,
      (FamilyBookEventGetter.parse reader pairs pairsReverse doc).getSnapshot = .ok parsed := by
  rw [parse_of_type htype (.inl rfl)]
  generalize hread : ((doc.find "data").bind fun data =>
    (((data.find "s").bind Json.getString).bind pairsReverse).bind fun tradingPair =>
      readBook reader (pairs.at tradingPair) tradingPair "snapshot" data) = read
  cases read with
  | none => exact ⟨_, rfl⟩
  | some response =>
    simp only [Option.bind_eq_some_iff] at hread
    obtain ⟨data, -, tradingPair, -, hread⟩ := hread
    obtain ⟨book, rfl⟩ := exists_readBook_snapshot hread
    exact ⟨_, rfl⟩

theorem getDiff_parse_iff (htype : ParserManager.IsType doc "delta") :
    (∃ parsed, (FamilyBookEventGetter.parse reader pairs pairsReverse doc).getDiff = .ok parsed) ↔
      ∃ data, doc.find "data" = some data ∧ Acceptable reader pairsReverse data := by
  rw [parse_of_type htype (.inr rfl)]
  generalize hread : ((doc.find "data").bind fun data =>
    (((data.find "s").bind Json.getString).bind pairsReverse).bind fun tradingPair =>
      readBook reader (pairs.at tradingPair) tradingPair "delta" data) = read
  cases read with
  | none =>
    refine iff_of_false (by rintro ⟨parsed, hparsed⟩; cases hparsed) ?_
    rintro ⟨data, hdata, haccept⟩
    obtain ⟨tradingPair, hpair⟩ := Option.isSome_iff_exists.mp haccept.symbol
    rw [hdata, Option.bind_some, hpair, Option.bind_some] at hread
    have hbook : (readBook reader (pairs.at tradingPair) tradingPair "delta" data).isSome :=
      isSome_readBook_iff.mpr ⟨haccept.bids, haccept.id⟩
    rw [hread] at hbook
    simp at hbook
  | some response =>
    obtain ⟨data, hdata, hread⟩ := Option.bind_eq_some_iff.mp hread
    obtain ⟨tradingPair, hpair, hread⟩ := Option.bind_eq_some_iff.mp hread
    obtain ⟨book, rfl⟩ := exists_readBook_delta hread
    refine iff_of_true ⟨_, rfl⟩ ⟨data, hdata, ?_⟩
    obtain ⟨hbids, hid⟩ := isSome_readBook_iff.mp (hread ▸ Option.isSome_some)
    refine ⟨?_, hbids, hid⟩
    rw [hpair]
    exact Option.isSome_some

/-! ## Parsing without an exception -/

/-- The id of an answer is no number, or one that can be converted. -/
def IdConvertible (reader : NumberReader) (doc : Json) : Prop :=
  ∀ token, doc.find "req_id" = some (.number token) → (reader.getNumber token).isSome

theorem apiResponse_parse_iff :
    (∃ data, ApiResponseParser.parse reader doc = .ok data) ↔ IdConvertible reader doc := by
  cases hfind : doc.find "req_id" with
  | none => simp [ApiResponseParser.parse, IdConvertible, hfind]
  | some id =>
    cases id with
    | number token =>
      cases hnumber : reader.getNumber token with
      | none => simp [ApiResponseParser.parse, IdConvertible, hfind, hnumber]
      | some number =>
        cases number <;> simp [ApiResponseParser.parse, IdConvertible, hfind, hnumber]
    | _ => simp [ApiResponseParser.parse, IdConvertible, hfind]

namespace ParserManager

/-- The kind of a message decides which handler gets it. -/
theorem parse_initParserManager (doc : Json) :
    (initParserManager reader pairs pairsReverse).parse doc =
      match determineType doc with
      | .kDepthUpdate => (FamilyBookEventGetter.parse reader pairs pairsReverse doc).getDiff
      | .kSnapshot => (FamilyBookEventGetter.parse reader pairs pairsReverse doc).getSnapshot
      | .kNonQueryResponse => (ApiResponseParser.parse reader doc).map .apiResponse
      | _ => .ok default := by
  cases htype : determineType doc <;>
    simp [parse, initParserManager, registerHandler, htype]

/-- A message raises exactly when it is a diff that the depth parser rejects, or an
answer whose id is a number that cannot be converted. -/
theorem exists_parse_iff (reader : NumberReader) (pairs : TradingPairHashMap)
    (pairsReverse : String → Option TradingPair) (doc : Json) :
    (∃ parsed, (initParserManager reader pairs pairsReverse).parse doc = .ok parsed) ↔
      (IsType doc "delta" →
        ∃ data, doc.find "data" = some data ∧ Acceptable reader pairsReverse data) ∧
      (¬ IsType doc "delta" → ¬ IsType doc "snapshot" → (doc.find "success").isSome →
        IdConvertible reader doc) := by
  rw [parse_initParserManager]
  by_cases hdelta : IsType doc "delta"
  · have htype : determineType doc = .kDepthUpdate := if_pos hdelta
    simp only [htype, getDiff_parse_iff hdelta, hdelta, true_implies, not_true, false_implies,
      and_true]
  · by_cases hsnapshot : IsType doc "snapshot"
    · have htype : determineType doc = .kSnapshot := by
        rw [determineType, if_neg hdelta, if_pos hsnapshot]
      simp only [htype, hdelta, hsnapshot, getSnapshot_parse hsnapshot]
      simp
    · by_cases hsuccess : (doc.find "success").isSome
      · have htype : determineType doc = .kNonQueryResponse := by
          rw [determineType, if_neg hdelta, if_neg hsnapshot, if_pos hsuccess]
        simp only [htype, hdelta, hsnapshot, hsuccess, ← apiResponse_parse_iff]
        cases ApiResponseParser.parse reader doc <;> simp [Except.map]
      · have htype : determineType doc = .kUnknown := by
          rw [determineType, if_neg hdelta, if_neg hsnapshot, if_neg hsuccess]
        simp [htype, hdelta, hsuccess]

/-- A diff of a pair that is not registered. -/
def strangerDiff : Json :=
  .object [("topic", .string "orderbook.50.XRPUSDT"), ("type", .string "delta"),
    ("data", .object [("s", .string "XRPUSDT"), ("b", .array []), ("a", .array []),
      ("u", .number "1")])]

theorem isType_strangerDiff : IsType strangerDiff "delta" := by
  rw [IsType, strangerDiff, Json.find_cons_of_ne (by simp), Json.find_cons_self]
  rfl

theorem parse_strangerDiff :
    (initParserManager decimalReader (fun _ => some ⟨2, 5, "BTCUSDT", "BTCUSDT"⟩)
      (fun symbol => if symbol = "BTCUSDT" then some ⟨2, 1⟩ else none)).parse strangerDiff =
      .error .badVariantAccess := by
  have htype : determineType strangerDiff = .kDepthUpdate := if_pos isType_strangerDiff
  rw [parse_initParserManager, htype]
  simp only [parse_of_type isType_strangerDiff (.inr rfl)]
  rw [strangerDiff, Json.find_cons_of_ne (by simp), Json.find_cons_of_ne (by simp),
    Json.find_cons_self, Option.bind_some, Json.find_cons_self]
  simp [Json.getString, ResponseVariant.getDiff, default]

end ParserManager

end CryptoBot.MarketData.Bybit

/-
# The depth parsers of Binance

A depth message carries two arrays of levels, and a level is an array of two numbers
inside strings.  The parsers walk the arrays, fill the book as they go, and mark it
with the id of the exchange at the end.  A failed query raises an error that is
caught before the mark is set, so the mark says nothing about the message: a book
that was abandoned halfway carries it too.

The numbers of a level go to an array of two cells that is not initialised and whose
index is not checked.  What the cells hold before is the parameter `Stale`, and an
index out of bounds ends the parse as a failure of its own, which nothing catches.
-/

import CryptoBot.Math.Json
import CryptoBot.MarketData.Update
import CryptoBot.Requests.LimitOrder

namespace CryptoBot.MarketData.Binance

open CryptoBot.Common CryptoBot.Math CryptoBot.Requests

inductive Failure
  | simdjsonError | outOfBounds
  deriving DecidableEq, Repr

/-- The cells of `pair` before the first write, for each level of each side. -/
structure Stale where
  bids : ℕ → ℚ × ℚ
  asks : ℕ → ℚ × ℚ

/-! ## The loops -/

variable (reader : NumberReader)

/-- `pair[i] = number.get_double_in_string()` over the numbers of a level. -/
def readPair : ℚ × ℚ → ℕ → List Json → Except Failure (ℚ × ℚ)
  | pair, _, [] => .ok pair
  | pair, i, number :: rest =>
    match number.getDoubleInString reader with
    | none => .error .simdjsonError
    | some value =>
      match i with
      | 0 => readPair (value, pair.2) 1 rest
      | 1 => readPair (pair.1, value) 2 rest
      | _ => .error .outOfBounds

/-- The level that is stored. -/
def entry (info : TradingPairInfo) (pair : ℚ × ℚ) : BookSnapshotElem :=
  .ofDoubles info pair.1 pair.2

/-- The loop over one side.  The levels read so far survive a failure. -/
def readSide (info : TradingPairInfo) (stale : ℕ → ℚ × ℚ) :
    List BookSnapshotElem → List (Option Json) → List BookSnapshotElem × Option Failure
  | entries, [] => (entries, none)
  | entries, all :: rest =>
    match all.bind Json.getArray with
    | none => (entries, some .simdjsonError)
    | some numbers =>
      match readPair reader (stale entries.length) 0 numbers with
      | .error failure => (entries, some failure)
      | .ok pair => readSide info stale (entries ++ [entry info pair]) rest

structure Sides where
  bids : List BookSnapshotElem := []
  asks : List BookSnapshotElem := []
  failure : Option Failure := none

/-- Both sides; the second is not begun after a failure in the first. -/
def readSides (info : TradingPairInfo) (stale : Stale) (bids asks : Option Json) : Sides :=
  match readSide reader info stale.bids [] (Json.elements bids) with
  | (bids, some failure) => { bids, failure := some failure }
  | (bids, none) =>
    match readSide reader info stale.asks [] (Json.elements asks) with
    | (asks, failure) => { bids, asks, failure }

namespace FamilyBookSnapshot

/-- The end of `Parse`, where a `simdjson_error` has been caught. -/
def finish (book : BookSnapshot) (tradingPair : TradingPair) :
    Option Failure → Except Failure BookSnapshot
  | some .outOfBounds => .error .outOfBounds
  | _ => .ok { book with exchangeId := .kBinance, tradingPair }

/-- `FamilyBookSnapshot::ParserResponse::Parse`. -/
def parse (pairs : TradingPairHashMap) (stale : Stale) (doc : Json)
    (tradingPair : TradingPair) : Except Failure BookSnapshot :=
  match pairs tradingPair with
  | none => .ok {}
  | some info =>
    match (doc.find "lastUpdateId").bind (Json.getUint64 reader) with
    | none => finish {} tradingPair (some .simdjsonError)
    | some lastUpdateId =>
      let sides := readSides reader info stale (doc.find "bids") (doc.find "asks")
      finish { lastUpdateId, bids := sides.bids, asks := sides.asks } tradingPair sides.failure

end FamilyBookSnapshot

namespace FamilyBookEventGetter

def finish (book : BookDiffSnapshot) : Option Failure → Except Failure BookDiffSnapshot
  | some .outOfBounds => .error .outOfBounds
  | _ => .ok { book with exchangeId := .kBinance }

/-- The field `pu`, of futures only: nothing when it is missing, a failure when it is
there and no id. -/
def readPrevId (doc : Json) : Option (Option UInt64) :=
  match doc.find "pu" with
  | none => some none
  | some value => (value.getUint64 reader).map some

/-- The ids of a diff, up to the first that raises an error. -/
def readIds (doc : Json) : BookDiffSnapshot × Option Failure :=
  let book : BookDiffSnapshot := {}
  match (doc.find "U").bind (Json.getUint64 reader) with
  | none => (book, some .simdjsonError)
  | some firstId =>
    let book := { book with firstId }
    match (doc.find "u").bind (Json.getUint64 reader) with
    | none => (book, some .simdjsonError)
    | some lastId =>
      let book := { book with lastId }
      match readPrevId reader doc with
      | none => (book, some .simdjsonError)
      | some prevId => ({ book with prevId := prevId.getD book.prevId }, none)

/-- `FamilyBookEventGetter::ParserResponse::Parse`.  Both overloads have this body, one
after it has parsed the text. -/
def parse (pairs : TradingPairHashMap) (pairsReverse : String → Option TradingPair)
    (stale : Stale) (doc : Json) : Except Failure BookDiffSnapshot :=
  match readIds reader doc with
  | (book, some failure) => finish book (some failure)
  | (book, none) =>
    match (doc.find "s").bind Json.getString with
    | none => .ok {}
    | some symbol =>
      match pairsReverse symbol with
      | none => .ok {}
      | some tradingPair =>
        let sides := readSides reader (pairs.at tradingPair) stale (doc.find "b") (doc.find "a")
        finish { book with tradingPair, bids := sides.bids, asks := sides.asks } sides.failure

end FamilyBookEventGetter

/-! ## Well-formed books -/

/-- A level as the exchange writes it: exactly two numbers inside strings. -/
def level : Json → Option (ℚ × ℚ)
  | .array [price, qty] => do
    let price ← price.getDoubleInString reader
    let qty ← qty.getDoubleInString reader
    return (price, qty)
  | _ => none

/-- The levels of a side, when every element is one. -/
def levels (side : Option Json) : Option (List (ℚ × ℚ)) := do
  let values ← side.bind Json.getArray
  values.mapM (level reader)

variable {reader} {info : TradingPairInfo}

theorem exists_numbers_of_level {value : Json} {pair : ℚ × ℚ}
    (h : level reader value = some pair) (stale : ℚ × ℚ) :
    ∃ numbers, value.getArray = some numbers ∧ readPair reader stale 0 numbers = .ok pair := by
  unfold level at h
  split at h
  · rename_i price qty
    simp only [Option.bind_eq_bind, Option.bind_eq_some_iff, Option.pure_def,
      Option.some.injEq] at h
    obtain ⟨first, hprice, second, hqty, rfl⟩ := h
    refine ⟨[price, qty], rfl, ?_⟩
    simp only [readPair, hprice, hqty]
  · simp at h

/-- The loop over the levels of a side stores all of them, in order. -/
theorem readSide_of_levels {stale : ℕ → ℚ × ℚ} {values : List Json} {pairs : List (ℚ × ℚ)}
    (h : values.mapM (level reader) = some pairs) (entries : List BookSnapshotElem) :
    readSide reader info stale entries (values.map some) =
      (entries ++ pairs.map (entry info), none) := by
  induction values generalizing entries pairs with
  | nil =>
    simp only [List.mapM_nil, Option.pure_def, Option.some.injEq] at h
    subst h
    simp [readSide]
  | cons value rest ih =>
    simp only [List.mapM_cons, Option.bind_eq_bind, Option.bind_eq_some_iff, Option.pure_def,
      Option.some.injEq] at h
    obtain ⟨pair, hpair, others, hothers, rfl⟩ := h
    obtain ⟨numbers, hnumbers, hread⟩ := exists_numbers_of_level hpair (stale entries.length)
    rw [List.map_cons, readSide]
    simp only [Option.bind_some, hnumbers, hread]
    rw [ih hothers, List.map_cons, List.append_assoc, List.singleton_append]

theorem readSides_of_levels {stale : Stale} {bids asks : Option Json}
    {bidLevels askLevels : List (ℚ × ℚ)} (hbids : levels reader bids = some bidLevels)
    (hasks : levels reader asks = some askLevels) :
    readSides reader info stale bids asks =
      { bids := bidLevels.map (entry info), asks := askLevels.map (entry info) } := by
  simp only [levels, Option.bind_eq_bind, Option.bind_eq_some_iff] at hbids hasks
  obtain ⟨bidValues, hbidValues, hbids⟩ := hbids
  obtain ⟨askValues, haskValues, hasks⟩ := hasks
  simp only [readSides, Json.elements_of_array (Option.bind_eq_some_iff.mpr hbidValues),
    Json.elements_of_array (Option.bind_eq_some_iff.mpr haskValues), readSide_of_levels hbids,
    readSide_of_levels hasks, List.nil_append]

/-! ## What the mark of the exchange says -/

namespace FamilyBookSnapshot

variable (reader)

/-- A snapshot with every field and both sides made of levels. -/
structure WellFormed (doc : Json) (bids asks : List (ℚ × ℚ)) : Prop where
  lastUpdateId : ((doc.find "lastUpdateId").bind (Json.getUint64 reader)).isSome
  bids : levels reader (doc.find "bids") = some bids
  asks : levels reader (doc.find "asks") = some asks

/-- The parse ends within bounds, and a book with the mark is the book of a well-formed
document; the book of any other document is returned without it. -/
def MarksWellFormed (info : TradingPairInfo) (doc : Json) (result : Except Failure BookSnapshot) :
    Prop :=
  ∃ book, result = .ok book ∧
    (book.exchangeId = .kBinance → ∃ bids asks, WellFormed reader doc bids asks ∧
      book.bids = bids.map (entry info) ∧ book.asks = asks.map (entry info))

variable {reader} {pairs : TradingPairHashMap} {stale : Stale} {doc : Json}
  {tradingPair : TradingPair}

theorem exchangeId_of_finish {book result : BookSnapshot} {failure : Option Failure}
    (h : finish book tradingPair failure = .ok result) : result.exchangeId = .kBinance := by
  unfold finish at h
  split at h
  · simp at h
  · rw [← Except.ok.inj h]

theorem parse_of_wellFormed (stale : Stale) {bids asks : List (ℚ × ℚ)}
    (hpair : pairs tradingPair = some info) (h : WellFormed reader doc bids asks) :
    ∃ lastUpdateId, parse reader pairs stale doc tradingPair = .ok
      { exchangeId := .kBinance
        tradingPair
        bids := bids.map (entry info)
        asks := asks.map (entry info)
        lastUpdateId } := by
  obtain ⟨lastUpdateId, hid⟩ := Option.isSome_iff_exists.mp h.lastUpdateId
  refine ⟨lastUpdateId, ?_⟩
  simp only [parse, hpair, hid, readSides_of_levels h.bids h.asks, finish]

/-- The document of a registered pair is marked whatever it is. -/
theorem exchangeId_of_parse {book : BookSnapshot} (hpair : pairs tradingPair = some info)
    (h : parse reader pairs stale doc tradingPair = .ok book) : book.exchangeId = .kBinance := by
  simp only [parse, hpair] at h
  split at h
  · exact exchangeId_of_finish h
  · exact exchangeId_of_finish h

theorem marksWellFormed_iff :
    MarksWellFormed reader (pairs.at tradingPair) doc (parse reader pairs stale doc tradingPair) ↔
      pairs tradingPair = none ∨ ∃ bids asks, WellFormed reader doc bids asks := by
  cases hpair : pairs tradingPair with
  | none =>
    refine iff_of_true ⟨{}, ?_, ?_⟩ (.inl rfl)
    · simp only [parse, hpair]
    · simp
  | some info =>
    rw [TradingPairHashMap.at_of_some hpair]
    constructor
    · rintro ⟨book, hbook, hmark⟩
      obtain ⟨bids, asks, hwell, -⟩ := hmark (exchangeId_of_parse hpair hbook)
      exact .inr ⟨bids, asks, hwell⟩
    · rintro (hnone | ⟨bids, asks, hwell⟩)
      · simp at hnone
      · obtain ⟨lastUpdateId, hparse⟩ := parse_of_wellFormed stale hpair hwell
        exact ⟨_, hparse, fun _ => ⟨bids, asks, hwell, rfl, rfl⟩⟩

end FamilyBookSnapshot

namespace FamilyBookEventGetter

variable (reader)

/-- A diff with its ids, a symbol and both sides made of levels; `pu` may be missing. -/
structure WellFormed (doc : Json) (bids asks : List (ℚ × ℚ)) : Prop where
  firstId : ((doc.find "U").bind (Json.getUint64 reader)).isSome
  lastId : ((doc.find "u").bind (Json.getUint64 reader)).isSome
  prevId : (readPrevId reader doc).isSome
  symbol : ((doc.find "s").bind Json.getString).isSome
  bids : levels reader (doc.find "b") = some bids
  asks : levels reader (doc.find "a") = some asks

def MarksWellFormed (pairs : TradingPairHashMap) (doc : Json)
    (result : Except Failure BookDiffSnapshot) : Prop :=
  ∃ book, result = .ok book ∧
    (book.exchangeId = .kBinance → ∃ bids asks, WellFormed reader doc bids asks ∧
      book.bids = bids.map (entry (pairs.at book.tradingPair)) ∧
      book.asks = asks.map (entry (pairs.at book.tradingPair)))

/-- The ids are there, and the symbol is not one of a registered pair. -/
structure Unregistered (pairsReverse : String → Option TradingPair) (doc : Json) : Prop where
  firstId : ((doc.find "U").bind (Json.getUint64 reader)).isSome
  lastId : ((doc.find "u").bind (Json.getUint64 reader)).isSome
  prevId : (readPrevId reader doc).isSome
  symbol : ((doc.find "s").bind Json.getString).bind pairsReverse = none

variable {reader} {pairs : TradingPairHashMap} {pairsReverse : String → Option TradingPair}
  {stale : Stale} {doc : Json}

theorem exchangeId_of_finish {book result : BookDiffSnapshot} {failure : Option Failure}
    (h : finish book failure = .ok result) : result.exchangeId = .kBinance := by
  unfold finish at h
  split at h
  · simp at h
  · rw [← Except.ok.inj h]

/-- The ids are read to the end when all of them are there. -/
theorem readIds_eq_none_iff :
    (readIds reader doc).2 = none ↔ ((doc.find "U").bind (Json.getUint64 reader)).isSome ∧
      ((doc.find "u").bind (Json.getUint64 reader)).isSome ∧ (readPrevId reader doc).isSome := by
  simp only [readIds]
  cases hfirst : (doc.find "U").bind (Json.getUint64 reader) <;>
    cases hlast : (doc.find "u").bind (Json.getUint64 reader) <;>
      cases hprev : readPrevId reader doc <;> simp

theorem exists_readIds (hfirst : ((doc.find "U").bind (Json.getUint64 reader)).isSome)
    (hlast : ((doc.find "u").bind (Json.getUint64 reader)).isSome)
    (hprev : (readPrevId reader doc).isSome) : ∃ ids, readIds reader doc = (ids, none) :=
  ⟨(readIds reader doc).1, Prod.ext rfl (readIds_eq_none_iff.mpr ⟨hfirst, hlast, hprev⟩)⟩

theorem parse_of_unregistered (h : Unregistered reader pairsReverse doc) :
    parse reader pairs pairsReverse stale doc = .ok {} := by
  obtain ⟨ids, hread⟩ := exists_readIds h.firstId h.lastId h.prevId
  have hsymbol := h.symbol
  simp only [parse, hread]
  cases hstring : (doc.find "s").bind Json.getString with
  | none => rfl
  | some symbol =>
    rw [hstring, Option.bind_some] at hsymbol
    simp only [hsymbol]

/-- Every other document is marked whatever it is. -/
theorem exchangeId_of_parse {book : BookDiffSnapshot}
    (hregistered : ¬ Unregistered reader pairsReverse doc)
    (h : parse reader pairs pairsReverse stale doc = .ok book) : book.exchangeId = .kBinance := by
  have hids : (readIds reader doc).2 = none ↔ _ := readIds_eq_none_iff
  rcases hread : readIds reader doc with ⟨ids, failure⟩
  rw [hread] at hids
  cases failure with
  | some failure =>
    simp only [parse, hread] at h
    exact exchangeId_of_finish h
  | none =>
    obtain ⟨hfirst, hlast, hprev⟩ := hids.mp rfl
    simp only [parse, hread] at h
    cases hstring : (doc.find "s").bind Json.getString with
    | none => exact absurd ⟨hfirst, hlast, hprev, by rw [hstring, Option.bind_none]⟩ hregistered
    | some symbol =>
      cases hpair : pairsReverse symbol with
      | none =>
        exact absurd ⟨hfirst, hlast, hprev, by rw [hstring, Option.bind_some, hpair]⟩ hregistered
      | some tradingPair =>
        simp only [hstring, hpair] at h
        exact exchangeId_of_finish h

theorem parse_of_wellFormed (pairs : TradingPairHashMap) (stale : Stale)
    {bids asks : List (ℚ × ℚ)} (hregistered : ¬ Unregistered reader pairsReverse doc)
    (h : WellFormed reader doc bids asks) :
    ∃ book, parse reader pairs pairsReverse stale doc = .ok book ∧
      book.bids = bids.map (entry (pairs.at book.tradingPair)) ∧
      book.asks = asks.map (entry (pairs.at book.tradingPair)) := by
  obtain ⟨ids, hread⟩ := exists_readIds h.firstId h.lastId h.prevId
  obtain ⟨symbol, hsymbol⟩ := Option.isSome_iff_exists.mp h.symbol
  cases hpair : pairsReverse symbol with
  | none =>
    have hnone : ((doc.find "s").bind Json.getString).bind pairsReverse = none := by
      rw [hsymbol, Option.bind_some, hpair]
    exact absurd ⟨h.firstId, h.lastId, h.prevId, hnone⟩ hregistered
  | some tradingPair =>
    refine ⟨{ ids with
      exchangeId := .kBinance
      tradingPair
      bids := bids.map (entry (pairs.at tradingPair))
      asks := asks.map (entry (pairs.at tradingPair)) }, ?_, rfl, rfl⟩
    simp only [parse, hread, hsymbol, hpair, readSides_of_levels h.bids h.asks, finish]

theorem marksWellFormed_iff :
    MarksWellFormed reader pairs doc (parse reader pairs pairsReverse stale doc) ↔
      Unregistered reader pairsReverse doc ∨ ∃ bids asks, WellFormed reader doc bids asks := by
  by_cases hregistered : Unregistered reader pairsReverse doc
  · refine iff_of_true ⟨{}, parse_of_unregistered hregistered, ?_⟩ (.inl hregistered)
    simp
  · constructor
    · rintro ⟨book, hbook, hmark⟩
      obtain ⟨bids, asks, hwell, -⟩ := hmark (exchangeId_of_parse hregistered hbook)
      exact .inr ⟨bids, asks, hwell⟩
    · rintro (habsurd | ⟨bids, asks, hwell⟩)
      · exact absurd habsurd hregistered
      · obtain ⟨book, hparse, hbids, hasks⟩ :=
          parse_of_wellFormed pairs stale hregistered hwell
        exact ⟨book, hparse, fun _ => ⟨bids, asks, hwell, hbids, hasks⟩⟩

end FamilyBookEventGetter

/-- The parsers mark nothing but well-formed books only as long as they get nothing
else, apart from what they return before they begin. -/
theorem depthParsers_marksWellFormed_iff (reader : NumberReader) (pairs : TradingPairHashMap)
    (pairsReverse : String → Option TradingPair) (stale : Stale) (doc : Json)
    (tradingPair : TradingPair) :
    (FamilyBookSnapshot.MarksWellFormed reader (pairs.at tradingPair) doc
        (FamilyBookSnapshot.parse reader pairs stale doc tradingPair) ↔
      pairs tradingPair = none ∨
        ∃ bids asks, FamilyBookSnapshot.WellFormed reader doc bids asks) ∧
    (FamilyBookEventGetter.MarksWellFormed reader pairs doc
        (FamilyBookEventGetter.parse reader pairs pairsReverse stale doc) ↔
      FamilyBookEventGetter.Unregistered reader pairsReverse doc ∨
        ∃ bids asks, FamilyBookEventGetter.WellFormed reader doc bids asks) :=
  ⟨FamilyBookSnapshot.marksWellFormed_iff, FamilyBookEventGetter.marksWellFormed_iff⟩

/-- A third number is written behind the array. -/
example : readPair ⟨fun _ => none, fun _ => none, fun _ => some 1⟩ (0, 0) 0
    [.string "1", .string "1", .string "1"] = .error .outOfBounds := rfl

/-- A missing number is what the cell happened to hold. -/
example : readPair ⟨fun _ => none, fun _ => none, fun _ => some 1⟩ (7, 8) 0 [.string "1"] =
    .ok (1, 8) := rfl

/-- The exchange refuses a request. -/
def errorReply : Json :=
  .object [("code", .number "-1121"), ("msg", .string "Invalid symbol.")]

theorem find_errorReply {key : String} (hcode : key ≠ "code") (hmsg : key ≠ "msg") :
    errorReply.find key = none := by
  rw [errorReply, Json.find_cons_of_ne hcode, Json.find_cons_of_ne hmsg, Json.find_nil]

theorem not_marksWellFormed_errorReply :
    ¬ FamilyBookSnapshot.MarksWellFormed decimalReader ⟨2, 5, "BTCUSDT", "BTCUSDT"⟩ errorReply
        (FamilyBookSnapshot.parse decimalReader (fun _ => some ⟨2, 5, "BTCUSDT", "BTCUSDT"⟩)
          ⟨fun _ => (0, 0), fun _ => (0, 0)⟩ errorReply ⟨2, 1⟩) ∧
      ¬ FamilyBookEventGetter.MarksWellFormed decimalReader
        (fun _ => some ⟨2, 5, "BTCUSDT", "BTCUSDT"⟩) errorReply
        (FamilyBookEventGetter.parse decimalReader (fun _ => some ⟨2, 5, "BTCUSDT", "BTCUSDT"⟩)
          (fun _ => some ⟨2, 1⟩) ⟨fun _ => (0, 0), fun _ => (0, 0)⟩ errorReply) := by
  constructor
  · rintro ⟨book, hbook, hmark⟩
    obtain ⟨bids, asks, hwell, -⟩ := hmark (FamilyBookSnapshot.exchangeId_of_parse rfl hbook)
    have hid := hwell.lastUpdateId
    rw [find_errorReply (by simp) (by simp)] at hid
    simp at hid
  · rw [FamilyBookEventGetter.marksWellFormed_iff]
    rintro (hunregistered | ⟨bids, asks, hwell⟩)
    · have hid := hunregistered.firstId
      rw [find_errorReply (by simp) (by simp)] at hid
      simp at hid
    · have hid := hwell.firstId
      rw [find_errorReply (by simp) (by simp)] at hid
      simp at hid

end CryptoBot.MarketData.Binance

/-
# The tables of trading pairs

`TickerParser::Parse` reads a configuration file in three passes.  It collects the
tickers of the exchanges the file lists and gives them ids, and then it goes through
the pairs of Binance and of Bybit, whether or not the file lists the exchange, and
enters each pair whose two tickers have an id.  The tables stay between files, so a
later file overwrites the pairs it mentions.

`InitTPsJR` turns such a table around: it leads from the symbol of a pair in a JSON
text back to the pair.  The loop assigns in the order in which the table enumerates
its pairs, so a symbol that two pairs share leads to either of them.
-/

import CryptoBot.Common.Tickers
import CryptoBot.Common.TradingPairs
import CryptoBot.Math.UnorderedMap

namespace CryptoBot.Common

open CryptoBot.Math

/-! ## Files with their values -/

/-- A node of a file.  The values are those of the library that reads the file. -/
inductive ConfigNode (V : Type)
  | table (entries : List (String × ConfigNode V))
  | value (stored : V)

namespace ConfigNode

variable {V : Type}

def find (key : String) : ConfigNode V → Option (ConfigNode V)
  | table entries => entries.lookup key
  | value _ => none

def keys : Option (ConfigNode V) → List String
  | some (table entries) => entries.map Prod.fst
  | _ => []

mutual

/-- The tables of a node without the values. -/
def shape : ConfigNode V → Toml
  | table entries => .table (shapeEntries entries)
  | value _ => .value

def shapeEntries : List (String × ConfigNode V) → List (String × Toml)
  | [] => []
  | (key, node) :: entries => (key, node.shape) :: shapeEntries entries

end

end ConfigNode

/-- What the library makes of a value that is asked for as an `int` or as a text. -/
structure ValueReader (V : Type) where
  int : V → Option Int32
  text : V → Option String

namespace ValueReader

variable {V : Type} (reader : ValueReader V)

/-- `value_or(0)`; a node that is missing or a table has no value. -/
def intOr : Option (ConfigNode V) → Int32
  | some (.value stored) => (reader.int stored).getD 0
  | _ => 0

/-- `value_or(""sv)`. -/
def textOr : Option (ConfigNode V) → String
  | some (.value stored) => (reader.text stored).getD ""
  | _ => ""

end ValueReader

/-! ## The parser -/

/-- A trading pair with all of its symbols. -/
structure ConfiguredPair extends TradingPairInfo where
  wsQueryRequest : String := ""
  httpsQueryResponse : String := ""
  deriving DecidableEq, Repr

/-- The `TradingPairHashMap` of an exchange. -/
abbrev ConfiguredPairs := UnorderedMap TradingPair ConfiguredPair

/-- What the library and the hash tables choose. -/
structure ParserSetting (V : Type) where
  reader : ValueReader V
  placement : Placement (TradingPair × ConfiguredPair)

namespace ExchangeId

/-- `ExchangeConverter::ToString`. -/
def toString : ExchangeId → String
  | kBinance => "binance"
  | kBybit => "bybit"
  | kMexc => "mexc"
  | kInvalid => "invalid"

end ExchangeId

section Pairs

variable {V : Type} (setting : ParserSetting V)

/-- The fields of a pair; the texts are copied as C strings. -/
def pairInfo (reader : ValueReader V) (node : Option (ConfigNode V)) : ConfiguredPair :=
  let field (key : String) := node.bind (ConfigNode.find key)
  { pricePrecission := (reader.intOr (field "price_precision")).toUInt32.toUInt8
    qtyPrecission := (reader.intOr (field "qty_precision")).toUInt32.toUInt8
    httpsJsonRequest := cString (reader.textOr (field "https_json_request"))
    httpsQueryRequest := cString (reader.textOr (field "https_query_request"))
    wsQueryRequest := cString (reader.textOr (field "ws_query_request"))
    httpsQueryResponse := cString (reader.textOr (field "https_query_response")) }

/-- `config["trading_pairs"][exchange]`. -/
def exchangeTable (config : ConfigNode V) (exchangeId : ExchangeId) : Option (ConfigNode V) :=
  (config.find "trading_pairs").bind (ConfigNode.find exchangeId.toString)

/-- The body of the inner loop of `InitExchange`. -/
def addQuote (manager : TickerManager) (base : TickerId) (table : Option (ConfigNode V))
    (pairs : ConfiguredPairs) (keyQuote : String) : ConfiguredPairs :=
  match manager.tickerToInt (cString keyQuote) with
  | none => pairs
  | some quote =>
    pairs.set setting.placement ⟨base, quote⟩
      (pairInfo setting.reader (table.bind (ConfigNode.find keyQuote)))

/-- The body of the outer loop of `InitExchange`. -/
def addBase (manager : TickerManager) (exchange : Option (ConfigNode V))
    (pairs : ConfiguredPairs) (key : String) : ConfiguredPairs :=
  match manager.tickerToInt (cString key) with
  | none => pairs
  | some base =>
    let table := exchange.bind (ConfigNode.find key)
    (ConfigNode.keys table).foldl (addQuote setting manager base table) pairs

/-- `InitExchange` on the table of the exchange. -/
def initPairs (manager : TickerManager) (config : ConfigNode V) (exchangeId : ExchangeId)
    (pairs : ConfiguredPairs) : ConfiguredPairs :=
  let exchange := exchangeTable config exchangeId
  (ConfigNode.keys exchange).foldl (addBase setting manager exchange) pairs

end Pairs

/-- A call of `Parse`: the file, if it can be loaded, and the order in which the set of
its tickers is visited. -/
structure FileCall (V : Type) where
  config : Option (ConfigNode V)
  tickers : ParseCall
  config_tickers : tickers.config = config.map ConfigNode.shape

structure TickerParser where
  tickerManager : TickerManager := {}
  pairsBybit : ConfiguredPairs := .empty
  pairsBinance : ConfiguredPairs := .empty

namespace TickerParser

variable {V : Type} (setting : ParserSetting V)

def initExchange (parser : TickerParser) (config : ConfigNode V) (exchangeId : ExchangeId) :
    TickerParser :=
  match exchangeId with
  | .kBybit =>
    let pairs := initPairs setting parser.tickerManager config .kBybit parser.pairsBybit
    { parser with pairsBybit := pairs }
  | .kBinance =>
    let pairs := initPairs setting parser.tickerManager config .kBinance parser.pairsBinance
    { parser with pairsBinance := pairs }
  | _ => parser

/-- `Parse`; loading a file may throw, and then nothing has changed. -/
def parse (parser : TickerParser) (call : FileCall V) : TickerParser × Bool :=
  match call.config with
  | none => (parser, false)
  | some config =>
    let parser := { parser with tickerManager := parser.tickerManager.parse call.tickers }
    let parser := parser.initExchange setting config .kBinance
    (parser.initExchange setting config .kBybit, true)

def parseFiles (calls : List (FileCall V)) : TickerParser :=
  calls.foldl (fun parser call => (parser.parse setting call).1) {}

/-- The exchanges whose pairs are read. -/
def pairs (parser : TickerParser) : ExchangeId → ConfiguredPairs
  | .kBinance => parser.pairsBinance
  | .kBybit => parser.pairsBybit
  | _ => .empty

end TickerParser

/-! ## What a file says -/

section Entries

variable {V : Type}

/-- The entry of a file for a pair of tickers. -/
def ConfigNode.entry (reader : ValueReader V) (config : ConfigNode V) (exchangeId : ExchangeId)
    (base quote : String) : Option ConfiguredPair :=
  (((exchangeTable config exchangeId).bind (find base)).bind (find quote)).map fun node =>
    pairInfo reader (some node)

/-- The pairs of tickers in the order of the loops. -/
def listed (exchange : Option (ConfigNode V)) : List (String × String) :=
  (ConfigNode.keys exchange).flatMap fun key =>
    (ConfigNode.keys (exchange.bind (ConfigNode.find key))).map fun keyQuote => (key, keyQuote)

theorem ConfigNode.mem_keys_iff (node : Option (ConfigNode V)) (key : String) :
    key ∈ keys node ↔ (node.bind (find key)).isSome := by
  rcases node with _ | entries | stored
  · simp [keys]
  · rw [← not_iff_not, Option.not_isSome_iff_eq_none, keys, Option.bind_some, find,
      List.lookup_eq_none_iff]
    simp only [List.mem_map, not_exists, not_and]
    grind
  · simp [keys, find]

theorem mem_listed_iff (exchange : Option (ConfigNode V)) (base quote : String) :
    (base, quote) ∈ listed exchange ↔
      ((exchange.bind (ConfigNode.find base)).bind (ConfigNode.find quote)).isSome := by
  simp only [listed, List.mem_flatMap, List.mem_map, Prod.mk.injEq, exists_eq_right_right,
    ConfigNode.mem_keys_iff]
  constructor
  · rintro ⟨-, hquote⟩
    exact hquote
  · intro hquote
    refine ⟨?_, hquote⟩
    cases hbase : exchange.bind (ConfigNode.find base) with
    | none => simp [hbase] at hquote
    | some node => rfl

theorem ConfigNode.entry_eq_some {reader : ValueReader V} {config : ConfigNode V}
    {exchangeId : ExchangeId} {base quote : String}
    (h : (base, quote) ∈ listed (exchangeTable config exchangeId)) :
    config.entry reader exchangeId base quote =
      some (pairInfo reader
        (((exchangeTable config exchangeId).bind (find base)).bind (find quote))) := by
  obtain ⟨node, hnode⟩ := Option.isSome_iff_exists.mp ((mem_listed_iff _ _ _).mp h)
  rw [ConfigNode.entry, hnode]
  rfl

theorem ConfigNode.entry_eq_none {reader : ValueReader V} {config : ConfigNode V}
    {exchangeId : ExchangeId} {base quote : String}
    (h : (base, quote) ∉ listed (exchangeTable config exchangeId)) :
    config.entry reader exchangeId base quote = none := by
  rw [mem_listed_iff, Option.not_isSome_iff_eq_none] at h
  rw [ConfigNode.entry, h]
  rfl

end Entries

/-! ## One pass over the pairs of an exchange -/

section Pass

variable {V : Type} {setting : ParserSetting V} {manager : TickerManager}

/-- The pair of ids of two tickers. -/
def TickerManager.pairOf (manager : TickerManager) (tickers : String × String) :
    Option TradingPair :=
  (manager.tickerToInt (cString tickers.1)).bind fun base =>
    (manager.tickerToInt (cString tickers.2)).map fun quote => ⟨base, quote⟩

/-- What the table of an exchange says about two tickers. -/
def infoOf (reader : ValueReader V) (exchange : Option (ConfigNode V))
    (tickers : String × String) : ConfiguredPair :=
  pairInfo reader ((exchange.bind (ConfigNode.find tickers.1)).bind (ConfigNode.find tickers.2))

/-- The assignment of one pair of tickers. -/
def addPair (setting : ParserSetting V) (manager : TickerManager)
    (exchange : Option (ConfigNode V)) (pairs : ConfiguredPairs) (tickers : String × String) :
    ConfiguredPairs :=
  match manager.pairOf tickers with
  | none => pairs
  | some pair =>
    pairs.set setting.placement pair (infoOf setting.reader exchange tickers)

theorem addBase_eq_foldl (exchange : Option (ConfigNode V)) (pairs : ConfiguredPairs)
    (key : String) :
    addBase setting manager exchange pairs key =
      ((ConfigNode.keys (exchange.bind (ConfigNode.find key))).map
        fun keyQuote => (key, keyQuote)).foldl (addPair setting manager exchange) pairs := by
  rw [List.foldl_map, addBase]
  cases hbase : manager.tickerToInt (cString key) with
  | none =>
    -- no assignment has an id for its first ticker
    induction ConfigNode.keys (exchange.bind (ConfigNode.find key)) with
    | nil => rfl
    | cons keyQuote rest ih =>
      rw [List.foldl_cons]
      have hskip : addPair setting manager exchange pairs (key, keyQuote) = pairs := by
        simp [addPair, TickerManager.pairOf, hbase]
      rwa [hskip]
  | some base =>
    dsimp only
    congr 1
    funext pairs keyQuote
    simp only [addQuote, addPair, infoOf, TickerManager.pairOf, hbase, Option.bind_some]
    cases manager.tickerToInt (cString keyQuote) <;> rfl

/-- The two loops assign the pairs of tickers one after the other. -/
theorem initPairs_eq_foldl (config : ConfigNode V) (exchangeId : ExchangeId)
    (pairs : ConfiguredPairs) :
    initPairs setting manager config exchangeId pairs =
      (listed (exchangeTable config exchangeId)).foldl
        (addPair setting manager (exchangeTable config exchangeId)) pairs := by
  rw [initPairs, listed, List.foldl_flatMap]
  congr 1
  funext pairs key
  exact addBase_eq_foldl _ pairs key

theorem find_foldl_addPair (exchange : Option (ConfigNode V)) (tickers : List (String × String))
    (pairs : ConfiguredPairs) :
    (tickers.foldl (addPair setting manager exchange) pairs).find =
      writes pairs.find (tickers.filterMap fun names =>
        (manager.pairOf names).map fun pair =>
          (pair, some (infoOf setting.reader exchange names))) := by
  induction tickers generalizing pairs with
  | nil => rfl
  | cons names rest ih =>
    rw [List.foldl_cons, ih, List.filterMap_cons]
    cases hpair : manager.pairOf names with
    | none => simp only [addPair, hpair, Option.map_none]
    | some pair =>
      simp only [addPair, hpair, Option.map_some, writes_cons]
      congr 1
      funext other
      rw [UnorderedMap.find_set, Function.update_apply]

theorem pairOf_eq_some_iff {base quote : String} (hinverse : manager.Inverse)
    (hbase : cString base = base) (hquote : cString quote = quote) (pair : TradingPair) :
    manager.pairOf (base, quote) = some pair ↔
      manager.intToTicker pair.first = some base ∧
        manager.intToTicker pair.second = some quote := by
  rw [← hinverse, ← hinverse]
  simp only [TickerManager.pairOf, hbase, hquote, Option.bind_eq_some_iff, Option.map_eq_some_iff]
  constructor
  · rintro ⟨first, hfirst, second, hsecond, rfl⟩
    exact ⟨hfirst, hsecond⟩
  · rintro ⟨hfirst, hsecond⟩
    exact ⟨_, hfirst, _, hsecond, rfl⟩

/-- The entry of a file for a pair of ids. -/
def TickerManager.entryOf (manager : TickerManager)
    (entry : String → String → Option ConfiguredPair) (pair : TradingPair) :
    Option ConfiguredPair :=
  (manager.intToTicker pair.first).bind fun base =>
    (manager.intToTicker pair.second).bind fun quote => entry base quote

/-- A pass overwrites the pairs of the file and keeps the others. -/
theorem find_initPairs (hinverse : manager.Inverse) (config : ConfigNode V)
    (exchangeId : ExchangeId) (pairs : ConfiguredPairs)
    (hplain : ∀ names ∈ listed (exchangeTable config exchangeId),
      cString names.1 = names.1 ∧ cString names.2 = names.2) (pair : TradingPair) :
    (initPairs setting manager config exchangeId pairs).find pair =
      (manager.entryOf (config.entry setting.reader exchangeId) pair).or (pairs.find pair) := by
  rw [initPairs_eq_foldl, find_foldl_addPair]
  by_cases hlisted : ∃ names ∈ listed (exchangeTable config exchangeId),
      manager.pairOf names = some pair
  · obtain ⟨⟨base, quote⟩, hmem, hpair⟩ := hlisted
    obtain ⟨hplainBase, hplainQuote⟩ := hplain _ hmem
    obtain ⟨hbase, hquote⟩ := (pairOf_eq_some_iff hinverse hplainBase hplainQuote pair).mp hpair
    have hentry : manager.entryOf (config.entry setting.reader exchangeId) pair =
        some (infoOf setting.reader (exchangeTable config exchangeId) (base, quote)) := by
      rw [TickerManager.entryOf, hbase, hquote, Option.bind_some, Option.bind_some,
        ConfigNode.entry_eq_some hmem]
      rfl
    rw [hentry, Option.some_or]
    apply writes_apply_of_forall_mem
    · apply List.mem_map.mpr
      refine ⟨(pair, some (infoOf setting.reader (exchangeTable config exchangeId)
        (base, quote))), List.mem_filterMap.mpr ⟨_, hmem, ?_⟩, rfl⟩
      rw [hpair, Option.map_some]
    · -- the ids determine the tickers, so every assignment to the pair is this one
      rintro assigned hassigned rfl
      obtain ⟨⟨other, otherQuote⟩, hother, hvalue⟩ := List.mem_filterMap.mp hassigned
      obtain ⟨found, hfound, rfl⟩ := Option.map_eq_some_iff.mp hvalue
      obtain ⟨hplainOther, hplainOtherQuote⟩ := hplain _ hother
      obtain ⟨hfirst, hsecond⟩ :=
        (pairOf_eq_some_iff hinverse hplainOther hplainOtherQuote found).mp hfound
      have hsameBase : other = base := Option.some.inj (hfirst.symm.trans hbase)
      have hsameQuote : otherQuote = quote := Option.some.inj (hsecond.symm.trans hquote)
      rw [hsameBase, hsameQuote]
  · have hnone : manager.entryOf (config.entry setting.reader exchangeId) pair = none := by
      rw [TickerManager.entryOf, Option.bind_eq_none_iff]
      intro base hbase
      rw [Option.bind_eq_none_iff]
      intro quote hquote
      apply ConfigNode.entry_eq_none
      intro hmem
      obtain ⟨hplainBase, hplainQuote⟩ := hplain _ hmem
      exact hlisted ⟨_, hmem,
        (pairOf_eq_some_iff hinverse hplainBase hplainQuote pair).mpr ⟨hbase, hquote⟩⟩
    rw [hnone, Option.none_or]
    apply writes_apply_of_notMem
    rw [List.mem_map]
    rintro ⟨assigned, hassigned, rfl⟩
    obtain ⟨names, hnames, hvalue⟩ := List.mem_filterMap.mp hassigned
    obtain ⟨found, hfound, rfl⟩ := Option.map_eq_some_iff.mp hvalue
    exact hlisted ⟨names, hnames, hfound⟩

end Pass

/-! ## The ids of the tickers of several files -/

namespace TickerManager

variable {manager : TickerManager} {calls : List ParseCall}

/-- A ticker that gets an id is one of those that are visited. -/
theorem mem_of_isSome_foldl {counter : UInt32} {texts : List String} {ticker : String}
    (h : ((texts.foldl addTicker (manager, counter)).1.tickerToInt ticker).isSome) :
    (manager.tickerToInt ticker).isSome ∨ ticker ∈ texts.map cString := by
  induction texts generalizing manager counter with
  | nil => exact .inl h
  | cons text rest ih =>
    rcases @ih (addTicker (manager, counter) text).1 (addTicker (manager, counter) text).2 h with
      hknown | hrest
    · unfold addTicker at hknown
      dsimp only at hknown
      split at hknown
      · by_cases hticker : ticker = cString text
        · exact .inr (by simp [hticker])
        · dsimp only at hknown
          rw [Function.update_of_ne hticker] at hknown
          exact .inl hknown
      · exact .inl hknown
    · exact .inr (by simp [hrest])

/-- The tickers with an id are those of the files. -/
theorem isSome_parseAll_iff {ticker : String} :
    ((parseAll calls).tickerToInt ticker).isSome ↔
      ∃ call ∈ calls, ticker ∈ call.order.map cString := by
  induction calls using List.reverseRecOn with
  | nil => simp [parseAll]
  | append_singleton calls call ih =>
    rw [parseAll_concat]
    constructor
    · intro h
      rcases mem_of_isSome_foldl h with hearlier | hhere
      · obtain ⟨earlier, hmem, hticker⟩ := ih.mp hearlier
        exact ⟨earlier, List.mem_append_left _ hmem, hticker⟩
      · exact ⟨call, by simp, hhere⟩
    · rintro ⟨other, hmem, hticker⟩
      rcases List.mem_append.mp hmem with hearlier | hhere
      · obtain ⟨id, hid⟩ := Option.isSome_iff_exists.mp (ih.mpr ⟨other, hearlier, hticker⟩)
        rw [parse, initTickerManager, tickerToInt_foldl hid]
        rfl
      · rw [List.mem_singleton.mp hhere] at hticker
        obtain ⟨text, htext, rfl⟩ := List.mem_map.mp hticker
        exact isSome_foldl htext

/-- The ids stay unique as long as new tickers come to an empty manager. -/
theorem inverse_parseAll
    (haccepts : EveryStep (fun before call => (parseAll before).Accepts call) calls) :
    (parseAll calls).Inverse := by
  induction calls using List.reverseRecOn with
  | nil => exact counted_empty.inverse
  | append_singleton calls call ih =>
    obtain ⟨hbefore, hcall⟩ := EveryStep.concat_iff.mp haccepts
    rw [parseAll_concat]
    exact (inverse_parse_iff (ih hbefore) (parseAll_cases calls) call).mpr hcall

/-- What was known of a pair of ids before a file is what is known of its tickers. -/
theorem entryOf_parse (hbefore : manager.Inverse) {call : ParseCall}
    (hafter : (manager.parse call).Inverse) {entry : String → String → Option ConfiguredPair}
    (hknown : ∀ base quote info, entry base quote = some info →
      (manager.tickerToInt base).isSome ∧ (manager.tickerToInt quote).isSome)
    (pair : TradingPair) :
    (manager.parse call).entryOf entry pair = manager.entryOf entry pair := by
  -- an id that leads to a ticker leads to it afterwards
  have hkeeps : ∀ id ticker, manager.intToTicker id = some ticker →
      (manager.parse call).intToTicker id = some ticker := by
    intro id ticker h
    rw [← hbefore] at h
    exact (hafter ticker id).mp (tickerToInt_foldl h)
  ext info
  simp only [entryOf, Option.bind_eq_some_iff]
  constructor
  · rintro ⟨base, hbase, quote, hquote, hentry⟩
    obtain ⟨hknownBase, hknownQuote⟩ := hknown base quote info hentry
    obtain ⟨baseId, hbaseId⟩ := Option.isSome_iff_exists.mp hknownBase
    obtain ⟨quoteId, hquoteId⟩ := Option.isSome_iff_exists.mp hknownQuote
    have hfirst : pair.first = baseId := by
      rw [← hafter, parse, initTickerManager, tickerToInt_foldl hbaseId] at hbase
      exact (Option.some.inj hbase).symm
    have hsecond : pair.second = quoteId := by
      rw [← hafter, parse, initTickerManager, tickerToInt_foldl hquoteId] at hquote
      exact (Option.some.inj hquote).symm
    exact ⟨base, by rw [hfirst, ← hbefore, hbaseId], quote,
      by rw [hsecond, ← hbefore, hquoteId], hentry⟩
  · rintro ⟨base, hbase, quote, hquote, hentry⟩
    exact ⟨base, hkeeps _ _ hbase, quote, hkeeps _ _ hquote, hentry⟩

end TickerManager

/-! ## The tables after any number of files -/

section Files

variable {V : Type} {setting : ParserSetting V} {calls : List (FileCall V)}

/-- The entry of the file of a call. -/
def FileCall.entry (call : FileCall V) (reader : ValueReader V) (exchangeId : ExchangeId)
    (base quote : String) : Option ConfiguredPair :=
  call.config.bind fun config => config.entry reader exchangeId base quote

/-- No ticker of a file holds a null character. -/
structure FileCall.Plain (call : FileCall V) : Prop where
  tickers : ∀ ticker ∈ call.tickers.order, cString ticker = ticker
  listed : ∀ config ∈ call.config, ∀ exchangeId, ∀ names ∈ listed (exchangeTable config exchangeId),
    cString names.1 = names.1 ∧ cString names.2 = names.2

/-- The ticker is one of an exchange that a file lists. -/
def Mentioned (calls : List (FileCall V)) (ticker : String) : Prop :=
  ∃ call ∈ calls, ticker ∈ call.tickers.order

instance (calls : List (FileCall V)) (ticker : String) : Decidable (Mentioned calls ticker) :=
  inferInstanceAs (Decidable (∃ call ∈ calls, ticker ∈ call.tickers.order))

/-- What the files say about a pair, the last file first: the entry of the last file
that has one, among the files since both tickers are known. -/
def latest (reader : ValueReader V) (exchangeId : ExchangeId) (base quote : String) :
    List (FileCall V) → Option ConfiguredPair
  | [] => none
  | call :: earlier =>
    if Mentioned (call :: earlier) base ∧ Mentioned (call :: earlier) quote then
      (call.entry reader exchangeId base quote).or (latest reader exchangeId base quote earlier)
    else none

theorem mentioned_of_latest {reader : ValueReader V} {exchangeId : ExchangeId}
    {base quote : String} {info : ConfiguredPair}
    (h : latest reader exchangeId base quote calls = some info) :
    Mentioned calls base ∧ Mentioned calls quote := by
  cases calls with
  | nil => simp [latest] at h
  | cons call earlier =>
    rw [latest] at h
    split at h
    · assumption
    · simp at h

theorem latest_of_mentioned {reader : ValueReader V} {exchangeId : ExchangeId}
    {base quote : String} {call : FileCall V} (hbase : Mentioned (call :: calls) base)
    (hquote : Mentioned (call :: calls) quote) :
    latest reader exchangeId base quote (call :: calls) =
      (call.entry reader exchangeId base quote).or
        (latest reader exchangeId base quote calls) := by
  rw [latest, if_pos ⟨hbase, hquote⟩]

/-- An exchange with a table of its own. -/
def IsConfigured (exchangeId : ExchangeId) : Prop :=
  exchangeId = .kBinance ∨ exchangeId = .kBybit

namespace TickerParser

theorem parseFiles_concat (calls : List (FileCall V)) (call : FileCall V) :
    parseFiles setting (calls ++ [call]) = ((parseFiles setting calls).parse setting call).1 := by
  rw [parseFiles, parseFiles, List.foldl_append, List.foldl_cons, List.foldl_nil]

/-- A file that cannot be loaded has no tickers. -/
theorem tickers_order_of_none {call : FileCall V} (h : call.config = none) :
    call.tickers.order = [] := by
  apply List.eq_nil_iff_forall_not_mem.mpr
  intro ticker hmem
  rw [call.tickers.mem_order, call.config_tickers, h] at hmem
  simp [Toml.tickers] at hmem

theorem tickerManager_parse (parser : TickerParser) (call : FileCall V) :
    (parser.parse setting call).1.tickerManager = parser.tickerManager.parse call.tickers := by
  rw [parse]
  cases hconfig : call.config with
  | none =>
    rw [TickerManager.parse, TickerManager.initTickerManager, tickers_order_of_none hconfig]
    rfl
  | some config => rfl

theorem tickerManager_parseFiles (calls : List (FileCall V)) :
    (parseFiles setting calls).tickerManager =
      TickerManager.parseAll (calls.map FileCall.tickers) := by
  induction calls using List.reverseRecOn with
  | nil => rfl
  | append_singleton calls call ih =>
    rw [parseFiles_concat, tickerManager_parse, ih, List.map_append, List.map_cons, List.map_nil,
      TickerManager.parseAll_concat]

/-- A file overwrites the pairs it mentions, in the ids that it leaves. -/
theorem find_pairs_parse {parser : TickerParser} {call : FileCall V}
    (hinverse : (parser.tickerManager.parse call.tickers).Inverse) (hplain : call.Plain)
    {exchangeId : ExchangeId} (hexchange : IsConfigured exchangeId) (pair : TradingPair) :
    ((parser.parse setting call).1.pairs exchangeId).find pair =
      ((parser.tickerManager.parse call.tickers).entryOf
        (call.entry setting.reader exchangeId) pair).or ((parser.pairs exchangeId).find pair) := by
  rw [parse]
  cases hconfig : call.config with
  | none =>
    have hnone : (parser.tickerManager.parse call.tickers).entryOf
        (call.entry setting.reader exchangeId) pair = none := by
      simp [TickerManager.entryOf, FileCall.entry, hconfig]
    rw [hnone, Option.none_or]
  | some config =>
    have hentry : call.entry setting.reader exchangeId =
        config.entry setting.reader exchangeId := by
      funext base quote
      rw [FileCall.entry, hconfig, Option.bind_some]
    rw [hentry]
    rcases hexchange with rfl | rfl
    · exact find_initPairs hinverse config .kBinance parser.pairsBinance
        (hplain.listed config hconfig .kBinance) pair
    · exact find_initPairs hinverse config .kBybit parser.pairsBybit
        (hplain.listed config hconfig .kBybit) pair

/-- The tickers with an id are those that the files mention. -/
theorem isSome_tickerToInt_iff (setting : ParserSetting V) (hplain : ∀ call ∈ calls, call.Plain)
    (ticker : String) :
    ((parseFiles setting calls).tickerManager.tickerToInt ticker).isSome ↔
      Mentioned calls ticker := by
  rw [tickerManager_parseFiles, TickerManager.isSome_parseAll_iff]
  constructor
  · rintro ⟨tickers, hmem, hticker⟩
    obtain ⟨call, hcall, rfl⟩ := List.mem_map.mp hmem
    obtain ⟨text, htext, rfl⟩ := List.mem_map.mp hticker
    refine ⟨call, hcall, ?_⟩
    rwa [(hplain call hcall).tickers text htext]
  · rintro ⟨call, hcall, hticker⟩
    refine ⟨call.tickers, List.mem_map_of_mem hcall, List.mem_map.mpr ⟨ticker, hticker, ?_⟩⟩
    exact (hplain call hcall).tickers ticker hticker

theorem mentioned_reverse (ticker : String) :
    Mentioned calls.reverse ticker ↔ Mentioned calls ticker := by
  simp only [Mentioned, List.mem_reverse]

/-- New tickers come to an empty manager only. -/
def Accepted (calls : List (FileCall V)) : Prop :=
  EveryStep (fun before call => (TickerManager.parseAll before).Accepts call)
    (calls.map FileCall.tickers)

theorem inverse_parseFiles (setting : ParserSetting V) (haccepted : Accepted calls) :
    (parseFiles setting calls).tickerManager.Inverse := by
  rw [tickerManager_parseFiles]
  exact TickerManager.inverse_parseAll haccepted

theorem Accepted.left {call : FileCall V} (h : Accepted (calls ++ [call])) : Accepted calls := by
  rw [Accepted, List.map_append] at h
  exact h.left

/-- The table of an exchange holds what the files say about the tickers of its pairs. -/
theorem find_pairs_parseFiles (haccepted : Accepted calls) (hplain : ∀ call ∈ calls, call.Plain)
    {exchangeId : ExchangeId} (hexchange : IsConfigured exchangeId) (pair : TradingPair) :
    ((parseFiles setting calls).pairs exchangeId).find pair =
      (parseFiles setting calls).tickerManager.entryOf
        (fun base quote => latest setting.reader exchangeId base quote calls.reverse) pair := by
  induction calls using List.reverseRecOn with
  | nil => rcases hexchange with rfl | rfl <;> rfl
  | append_singleton calls call ih =>
    have hearlier := ih haccepted.left fun other hother => hplain other (by simp [hother])
    have hbefore := inverse_parseFiles setting haccepted.left
    have hafter := inverse_parseFiles setting haccepted
    have hknown := isSome_tickerToInt_iff setting hplain
    have hknownBefore := isSome_tickerToInt_iff setting
      fun other hother => hplain other (List.mem_append_left [call] hother)
    rw [parseFiles_concat, tickerManager_parse] at hafter hknown ⊢
    rw [find_pairs_parse hafter (hplain call (by simp)) hexchange, hearlier,
      ← TickerManager.entryOf_parse hbefore hafter]
    · -- both tickers of the pair are known after this file
      have hmentioned : ∀ id ticker,
          ((parseFiles setting calls).tickerManager.parse call.tickers).intToTicker id =
            some ticker → Mentioned (call :: calls.reverse) ticker := by
        intro id ticker hticker
        rw [← hafter] at hticker
        have hmention := (hknown ticker).mp (by rw [hticker, Option.isSome_some])
        rwa [← mentioned_reverse, List.reverse_concat] at hmention
      rw [List.reverse_concat]
      simp only [TickerManager.entryOf]
      cases hbase : ((parseFiles setting calls).tickerManager.parse call.tickers).intToTicker
          pair.first with
      | none => rfl
      | some base =>
        cases hquote : ((parseFiles setting calls).tickerManager.parse call.tickers).intToTicker
            pair.second with
        | none => rfl
        | some quote =>
          simp only [Option.bind_some]
          rw [latest_of_mentioned (hmentioned _ _ hbase) (hmentioned _ _ hquote)]
    · intro base quote info hlatest
      obtain ⟨hbase, hquote⟩ := mentioned_of_latest hlatest
      rw [mentioned_reverse] at hbase hquote
      exact ⟨(hknownBefore base).mpr hbase, (hknownBefore quote).mpr hquote⟩

/-- The pairs of the table are those of the files. -/
theorem find_pairs_eq_some_iff (setting : ParserSetting V) (haccepted : Accepted calls)
    (hplain : ∀ call ∈ calls, call.Plain) {exchangeId : ExchangeId}
    (hexchange : IsConfigured exchangeId) (pair : TradingPair) (info : ConfiguredPair) :
    ((parseFiles setting calls).pairs exchangeId).find pair = some info ↔
      ∃ base quote,
        (parseFiles setting calls).tickerManager.tickerToInt base = some pair.first ∧
        (parseFiles setting calls).tickerManager.tickerToInt quote = some pair.second ∧
        latest setting.reader exchangeId base quote calls.reverse = some info := by
  have hinverse := inverse_parseFiles setting haccepted
  rw [find_pairs_parseFiles haccepted hplain hexchange, TickerManager.entryOf]
  simp only [Option.bind_eq_some_iff]
  constructor
  · rintro ⟨base, hbase, quote, hquote, hlatest⟩
    exact ⟨base, quote, (hinverse _ _).mpr hbase, (hinverse _ _).mpr hquote, hlatest⟩
  · rintro ⟨base, quote, hbase, hquote, hlatest⟩
    exact ⟨base, (hinverse _ _).mp hbase, quote, (hinverse _ _).mp hquote, hlatest⟩

/-- Two tickers have one pair of ids. -/
theorem pair_eq_of_ids {manager : TickerManager} {base quote : String} {first second : TradingPair}
    (hbase : manager.tickerToInt base = some first.first)
    (hquote : manager.tickerToInt quote = some first.second)
    (hotherBase : manager.tickerToInt base = some second.first)
    (hotherQuote : manager.tickerToInt quote = some second.second) : first = second := by
  have hfirst : first.first = second.first := Option.some.inj (hbase.symm.trans hotherBase)
  have hsecond : first.second = second.second := Option.some.inj (hquote.symm.trans hotherQuote)
  calc first = ⟨first.first, first.second⟩ := rfl
    _ = second := by rw [hfirst, hsecond]

/-- Both tickers of a pair that the files describe have an id. -/
theorem exists_ids_of_latest (setting : ParserSetting V) (hplain : ∀ call ∈ calls, call.Plain)
    {exchangeId : ExchangeId} {base quote : String} {info : ConfiguredPair}
    (h : latest setting.reader exchangeId base quote calls.reverse = some info) :
    ∃ pair : TradingPair,
      (parseFiles setting calls).tickerManager.tickerToInt base = some pair.first ∧
      (parseFiles setting calls).tickerManager.tickerToInt quote = some pair.second := by
  obtain ⟨hbase, hquote⟩ := mentioned_of_latest h
  rw [mentioned_reverse, ← isSome_tickerToInt_iff setting hplain] at hbase hquote
  obtain ⟨baseId, hbaseId⟩ := Option.isSome_iff_exists.mp hbase
  obtain ⟨quoteId, hquoteId⟩ := Option.isSome_iff_exists.mp hquote
  exact ⟨⟨baseId, quoteId⟩, hbaseId, hquoteId⟩

end TickerParser

end Files

/-! ## The table of all exchanges -/

namespace ExchangeTradingPairs

variable (pairs : ExchangeTradingPairs)

def addOrUpdatePair (exchangeId : ExchangeId) (tradingPair : TradingPair)
    (info : TradingPairInfo) : ExchangeTradingPairs :=
  let known := (pairs.exchangePairs exchangeId).getD fun _ => none
  ⟨Function.update pairs.exchangePairs exchangeId
    (some (Function.update known tradingPair (some info)))⟩

/-- The loop that copies the pairs of an exchange. -/
def addPairs (exchangeId : ExchangeId) (table : ConfiguredPairs) : ExchangeTradingPairs :=
  table.entries.foldl
    (fun pairs entry => pairs.addOrUpdatePair exchangeId entry.1 entry.2.toTradingPairInfo) pairs

/-- The pairs that the program hands to its components. -/
def ofParser (parser : TickerParser) : ExchangeTradingPairs :=
  addPairs (addPairs ⟨fun _ => none⟩ .kBinance parser.pairsBinance) .kBybit parser.pairsBybit

@[simp]
theorem getPairInfo_addOrUpdatePair (exchangeId : ExchangeId) (tradingPair : TradingPair)
    (info : TradingPairInfo) :
    (pairs.addOrUpdatePair exchangeId tradingPair info).getPairInfo exchangeId =
      Function.update (pairs.getPairInfo exchangeId) tradingPair (some info) := by
  funext other
  simp only [getPairInfo, addOrUpdatePair, Function.update_self, Option.bind_some,
    Function.update_apply]
  split
  · rfl
  · cases pairs.exchangePairs exchangeId <;> rfl

@[simp]
theorem getPairInfo_addOrUpdatePair_of_ne {exchangeId other : ExchangeId} (h : other ≠ exchangeId)
    (tradingPair : TradingPair) (info : TradingPairInfo) :
    (pairs.addOrUpdatePair exchangeId tradingPair info).getPairInfo other =
      pairs.getPairInfo other := by
  funext pair
  simp only [getPairInfo, addOrUpdatePair, Function.update_of_ne h]

/-- The pairs of the table come over the pairs that were there. -/
theorem getPairInfo_addPairs (exchangeId : ExchangeId) (table : ConfiguredPairs)
    (pair : TradingPair) :
    (pairs.addPairs exchangeId table).getPairInfo exchangeId pair =
      ((table.find pair).map ConfiguredPair.toTradingPairInfo).or
        (pairs.getPairInfo exchangeId pair) := by
  have hwrites : ∀ (entries : List (TradingPair × ConfiguredPair)) (start : ExchangeTradingPairs),
      (entries.foldl (fun pairs entry =>
        pairs.addOrUpdatePair exchangeId entry.1 entry.2.toTradingPairInfo) start).getPairInfo
          exchangeId = writes (start.getPairInfo exchangeId)
            (entries.map fun entry => (entry.1, some entry.2.toTradingPairInfo)) := by
    intro entries
    induction entries with
    | nil => exact fun start => rfl
    | cons entry entries ih =>
      intro start
      rw [List.foldl_cons, ih, List.map_cons, writes_cons, getPairInfo_addOrUpdatePair]
  rw [addPairs, hwrites]
  cases hfind : table.find pair with
  | none =>
    rw [Option.map_none, Option.none_or]
    apply writes_apply_of_notMem
    rw [List.map_map]
    exact table.find_eq_none_iff.mp hfind
  | some info =>
    rw [Option.map_some, Option.some_or]
    apply writes_apply_of_forall_mem
    · rw [List.map_map]
      exact List.mem_map_of_mem (table.mem_entries_iff.mpr hfind)
    · intro written hwritten hkey
      obtain ⟨⟨other, stored⟩, hentry, rfl⟩ := List.mem_map.mp hwritten
      have hstored := table.mem_entries_iff.mp hentry
      rw [show other = pair from hkey, hfind] at hstored
      rw [Option.some.inj hstored]

theorem getPairInfo_addPairs_of_ne {exchangeId other : ExchangeId} (h : other ≠ exchangeId)
    (table : ConfiguredPairs) :
    (pairs.addPairs exchangeId table).getPairInfo other = pairs.getPairInfo other := by
  rw [addPairs]
  induction table.entries generalizing pairs with
  | nil => rfl
  | cons entry entries ih =>
    rw [List.foldl_cons, ih, getPairInfo_addOrUpdatePair_of_ne _ h]

/-- The components see the tables of the parser. -/
theorem getPairInfo_ofParser (parser : TickerParser) (exchangeId : ExchangeId)
    (pair : TradingPair) :
    (ofParser parser).getPairInfo exchangeId pair =
      ((parser.pairs exchangeId).find pair).map ConfiguredPair.toTradingPairInfo := by
  have hnothing : ∀ other, (⟨fun _ => none⟩ : ExchangeTradingPairs).getPairInfo other pair = none :=
    fun other => rfl
  rw [ofParser]
  by_cases hbybit : exchangeId = .kBybit
  · subst hbybit
    rw [getPairInfo_addPairs, getPairInfo_addPairs_of_ne _ (by decide), hnothing, Option.or_none]
    rfl
  · rw [getPairInfo_addPairs_of_ne _ hbybit]
    by_cases hbinance : exchangeId = .kBinance
    · subst hbinance
      rw [getPairInfo_addPairs, hnothing, Option.or_none]
      rfl
    · rw [getPairInfo_addPairs_of_ne _ hbinance, hnothing]
      cases exchangeId <;> simp_all [TickerParser.pairs]

end ExchangeTradingPairs

/-! ## The way back from a symbol -/

abbrev TradingPairReverseHashMap := UnorderedMap String TradingPair

def initTPsJR (placement : Placement (String × TradingPair)) (pairs : ConfiguredPairs) :
    TradingPairReverseHashMap :=
  pairs.entries.foldl
    (fun map entry => map.set placement entry.2.httpsJsonRequest entry.1) .empty

section Reverse

variable {placement : Placement (String × TradingPair)} {pairs : ConfiguredPairs}

theorem find_initTPsJR :
    (initTPsJR placement pairs).find = writes (fun _ => none)
      (pairs.entries.map fun entry => (entry.2.httpsJsonRequest, some entry.1)) :=
  UnorderedMap.find_foldl_set _ placement pairs.entries _ _

/-- A symbol leads to a pair that has it. -/
theorem exists_of_find_initTPsJR {symbol : String} {pair : TradingPair}
    (h : (initTPsJR placement pairs).find symbol = some pair) :
    ∃ info, pairs.find pair = some info ∧ info.httpsJsonRequest = symbol := by
  rw [find_initTPsJR] at h
  have hkey : symbol ∈ (pairs.entries.map fun entry =>
      (entry.2.httpsJsonRequest, some entry.1)).map Prod.fst := by
    by_contra habsent
    rw [writes_apply_of_notMem habsent] at h
    simp at h
  have hmem := mem_writes_of_mem hkey fun _ => none
  rw [h] at hmem
  obtain ⟨⟨other, info⟩, hentry, hequal⟩ := List.mem_map.mp hmem
  obtain ⟨hsymbol, hpair⟩ := Prod.mk.inj hequal
  rw [← Option.some.inj hpair]
  exact ⟨info, pairs.mem_entries_iff.mp hentry, hsymbol⟩

/-- The symbols of a table belong to one pair each. -/
def Distinct (pairs : ConfiguredPairs) : Prop :=
  ∀ first second firstInfo secondInfo, pairs.find first = some firstInfo →
    pairs.find second = some secondInfo →
      firstInfo.httpsJsonRequest = secondInfo.httpsJsonRequest → first = second

/-- Every symbol leads back to its pair exactly when no two pairs share one. -/
theorem forall_find_initTPsJR_iff :
    (∀ pair info, pairs.find pair = some info →
      (initTPsJR placement pairs).find info.httpsJsonRequest = some pair) ↔ Distinct pairs := by
  constructor
  · intro h first second firstInfo secondInfo hfirst hsecond hsymbol
    have hback := h first firstInfo hfirst
    rw [hsymbol, h second secondInfo hsecond] at hback
    exact (Option.some.inj hback).symm
  · intro hdistinct pair info hinfo
    rw [find_initTPsJR]
    apply writes_apply_of_forall_mem
    · rw [List.map_map]
      exact List.mem_map_of_mem (pairs.mem_entries_iff.mpr hinfo)
    · intro entry hentry hsymbol
      obtain ⟨⟨other, otherInfo⟩, hother, rfl⟩ := List.mem_map.mp hentry
      rw [hdistinct other pair otherInfo info (pairs.mem_entries_iff.mp hother) hinfo hsymbol]

end Reverse

/-! ## The laws of a configuration -/

namespace TickerParser

variable {V : Type}

/-- The files are read into tables that hold the entries of the last file for each pair,
and nothing else, and the components see these entries. -/
theorem tables_follow_files (setting : ParserSetting V) (calls : List (FileCall V))
    (haccepted : Accepted calls) (hplain : ∀ call ∈ calls, call.Plain) (exchangeId : ExchangeId)
    (hexchange : IsConfigured exchangeId) :
    (∀ pair info, ((parseFiles setting calls).pairs exchangeId).find pair = some info ↔
      ∃ base quote,
        (parseFiles setting calls).tickerManager.tickerToInt base = some pair.first ∧
        (parseFiles setting calls).tickerManager.tickerToInt quote = some pair.second ∧
        latest setting.reader exchangeId base quote calls.reverse = some info) ∧
    ∀ base quote info, latest setting.reader exchangeId base quote calls.reverse = some info →
      ∃ pair : TradingPair,
        (parseFiles setting calls).tickerManager.tickerToInt base = some pair.first ∧
        (parseFiles setting calls).tickerManager.tickerToInt quote = some pair.second ∧
        (ExchangeTradingPairs.ofParser (parseFiles setting calls)).getPairInfo exchangeId pair =
          some info.toTradingPairInfo := by
  have hfind := find_pairs_eq_some_iff setting haccepted hplain hexchange
  refine ⟨hfind, ?_⟩
  intro base quote info hlatest
  obtain ⟨pair, hbase, hquote⟩ := exists_ids_of_latest setting hplain hlatest
  refine ⟨pair, hbase, hquote, ?_⟩
  rw [ExchangeTradingPairs.getPairInfo_ofParser,
    (hfind pair info).mpr ⟨base, quote, hbase, hquote, hlatest⟩, Option.map_some]

/-! ### Two files -/

inductive TomlValue
  | integer (number : Int32)
  | text (content : String)

/-- A number is read as an `int` and a text as a text. -/
def tomlReader : ValueReader TomlValue where
  int
    | .integer number => some number
    | .text _ => none
  text
    | .integer _ => none
    | .text content => some content

def backSetting : ParserSetting TomlValue := ⟨tomlReader, .back⟩

/-- A file with bitcoin and ether on Binance, with the precision of the price of bitcoin. -/
def twoPairs (precision : Int32) : ConfigNode TomlValue :=
  .table [("exchange", .table [("binance", .table [])]),
    ("trading_pairs", .table [("binance", .table
      [("BTC", .table [("USDT", .table [("price_precision", .value (.integer precision)),
          ("https_json_request", .value (.text "BTCUSDT"))])]),
        ("ETH", .table [("USDT", .table [("https_json_request", .value (.text "ETHUSDT"))])])])])]

theorem tickers_twoPairs (precision : Int32) :
    Toml.tickers (some (twoPairs precision).shape) = ["BTC", "USDT", "ETH", "USDT"] := by
  simp [Toml.tickers, Toml.parseTickers, Toml.parseExchanges, Toml.find, Toml.keys, twoPairs,
    ConfigNode.shape, ConfigNode.shapeEntries, List.lookup_cons]

def twoPairsCall (precision : Int32) : FileCall TomlValue where
  config := some (twoPairs precision)
  tickers :=
    { config := some (twoPairs precision).shape
      order := ["USDT", "ETH", "BTC"]
      nodup := by decide
      mem_order := fun ticker => by
        rw [tickers_twoPairs]
        simp only [List.mem_cons, List.not_mem_nil, or_false]
        tauto }
  config_tickers := rfl

/-- The second file corrects the precision. -/
def correctedFiles : List (FileCall TomlValue) := [twoPairsCall 1, twoPairsCall 2]

theorem accepted_correctedFiles : Accepted correctedFiles := by
  change EveryStep _ (([] ++ [(twoPairsCall 1).tickers]) ++ [(twoPairsCall 2).tickers])
  rw [EveryStep.concat_iff, EveryStep.concat_iff]
  refine ⟨⟨.nil, .inr ⟨fun _ => rfl, ?_⟩⟩, .inl ?_⟩
  · decide +kernel
  · decide +kernel

theorem plain_twoPairsCall (precision : Int32) : (twoPairsCall precision).Plain where
  tickers := by
    change ∀ ticker ∈ ["USDT", "ETH", "BTC"], cString ticker = ticker
    decide
  listed := by
    rintro config ⟨⟩ exchangeId names hnames
    cases exchangeId with
    | kBinance =>
      have hlisted : listed (exchangeTable (twoPairs precision) .kBinance) =
          [("BTC", "USDT"), ("ETH", "USDT")] := rfl
      rw [hlisted] at hnames
      simp only [List.mem_cons, List.not_mem_nil, or_false] at hnames
      rcases hnames with rfl | rfl <;> decide
    | kBybit | kMexc | kInvalid => cases hnames

theorem plain_correctedFiles : ∀ call ∈ correctedFiles, call.Plain := by
  intro call hcall
  simp only [correctedFiles, List.mem_cons, List.not_mem_nil, or_false] at hcall
  rcases hcall with rfl | rfl <;> exact plain_twoPairsCall _

theorem tables_follow_correctedFiles :
    ∃ pair : TradingPair,
      (parseFiles backSetting correctedFiles).tickerManager.tickerToInt "BTC" = some pair.first ∧
      (parseFiles backSetting correctedFiles).tickerManager.tickerToInt "USDT" = some pair.second ∧
      (ExchangeTradingPairs.ofParser (parseFiles backSetting correctedFiles)).getPairInfo
        .kBinance pair =
          some { pricePrecission := 2, qtyPrecission := 0, httpsJsonRequest := "BTCUSDT" } :=
  (tables_follow_files backSetting correctedFiles accepted_correctedFiles plain_correctedFiles
    .kBinance (.inl rfl)).2 "BTC" "USDT"
    { pricePrecission := 2, qtyPrecission := 0, httpsJsonRequest := "BTCUSDT" } (by decide +kernel)

/-- The symbol of every pair of tickers that the files describe leads back to the ids
of these tickers. -/
def Resolves (setting : ParserSetting V) (placement : Placement (String × TradingPair))
    (calls : List (FileCall V)) (exchangeId : ExchangeId) : Prop :=
  ∀ base quote info, latest setting.reader exchangeId base quote calls.reverse = some info →
    ∃ pair : TradingPair,
      (parseFiles setting calls).tickerManager.tickerToInt base = some pair.first ∧
      (parseFiles setting calls).tickerManager.tickerToInt quote = some pair.second ∧
      (initTPsJR placement ((parseFiles setting calls).pairs exchangeId)).find
        info.httpsJsonRequest = some pair

/-- No two pairs of tickers have one symbol in the files. -/
def DistinctSymbols (reader : ValueReader V) (calls : List (FileCall V))
    (exchangeId : ExchangeId) : Prop :=
  ∀ base quote info otherBase otherQuote otherInfo,
    latest reader exchangeId base quote calls.reverse = some info →
    latest reader exchangeId otherBase otherQuote calls.reverse = some otherInfo →
    info.httpsJsonRequest = otherInfo.httpsJsonRequest → base = otherBase ∧ quote = otherQuote

/-- The symbols of the files are distinct exactly when those of the table are. -/
theorem distinct_pairs_iff (setting : ParserSetting V) {calls : List (FileCall V)}
    (haccepted : Accepted calls) (hplain : ∀ call ∈ calls, call.Plain) {exchangeId : ExchangeId}
    (hexchange : IsConfigured exchangeId) :
    Distinct ((parseFiles setting calls).pairs exchangeId) ↔
      DistinctSymbols setting.reader calls exchangeId := by
  have hinverse := inverse_parseFiles setting haccepted
  have hfind := find_pairs_eq_some_iff setting haccepted hplain hexchange
  constructor
  · intro hdistinct base quote info otherBase otherQuote otherInfo hlatest hother hsymbol
    obtain ⟨pair, hbase, hquote⟩ := exists_ids_of_latest setting hplain hlatest
    obtain ⟨otherPair, hotherBase, hotherQuote⟩ := exists_ids_of_latest setting hplain hother
    have hpair : pair = otherPair := by
      apply hdistinct pair otherPair info otherInfo _ _ hsymbol
      · exact (hfind pair info).mpr ⟨base, quote, hbase, hquote, hlatest⟩
      · exact (hfind otherPair otherInfo).mpr
          ⟨otherBase, otherQuote, hotherBase, hotherQuote, hother⟩
    subst hpair
    rw [hinverse] at hbase hquote hotherBase hotherQuote
    exact ⟨Option.some.inj (hbase.symm.trans hotherBase),
      Option.some.inj (hquote.symm.trans hotherQuote)⟩
  · intro hdistinct first second firstInfo secondInfo hfirst hsecond hsymbol
    obtain ⟨base, quote, hbase, hquote, hlatest⟩ := (hfind _ _).mp hfirst
    obtain ⟨otherBase, otherQuote, hotherBase, hotherQuote, hother⟩ := (hfind _ _).mp hsecond
    obtain ⟨rfl, rfl⟩ := hdistinct _ _ _ _ _ _ hlatest hother hsymbol
    exact pair_eq_of_ids hbase hquote hotherBase hotherQuote

/-- The way back from the symbols of an exchange is right exactly when no two pairs share
one, whatever the order of the tables. -/
theorem resolves_iff_distinct (setting : ParserSetting V)
    (placement : Placement (String × TradingPair)) (calls : List (FileCall V))
    (haccepted : Accepted calls) (hplain : ∀ call ∈ calls, call.Plain) (exchangeId : ExchangeId)
    (hexchange : IsConfigured exchangeId) :
    Resolves setting placement calls exchangeId ↔
      DistinctSymbols setting.reader calls exchangeId := by
  have hfind := find_pairs_eq_some_iff setting haccepted hplain hexchange
  rw [← distinct_pairs_iff setting haccepted hplain hexchange,
    ← @forall_find_initTPsJR_iff placement]
  constructor
  · intro hresolves pair info hinfo
    obtain ⟨base, quote, hbase, hquote, hlatest⟩ := (hfind _ _).mp hinfo
    obtain ⟨found, hfoundBase, hfoundQuote, hback⟩ := hresolves base quote info hlatest
    rwa [pair_eq_of_ids hfoundBase hfoundQuote hbase hquote] at hback
  · intro hback base quote info hlatest
    obtain ⟨pair, hbase, hquote⟩ := exists_ids_of_latest setting hplain hlatest
    exact ⟨pair, hbase, hquote,
      hback pair info ((hfind _ _).mpr ⟨base, quote, hbase, hquote, hlatest⟩)⟩

theorem distinctSymbols_correctedFiles : DistinctSymbols tomlReader correctedFiles .kBinance := by
  have hmentioned : ∀ ticker, Mentioned correctedFiles.reverse ticker →
      ticker ∈ ["USDT", "ETH", "BTC"] := by
    rintro ticker ⟨call, hcall, hticker⟩
    simp only [correctedFiles, List.reverse_cons, List.reverse_nil, List.nil_append,
      List.cons_append, List.mem_cons, List.not_mem_nil, or_false] at hcall
    rcases hcall with rfl | rfl <;> exact hticker
  have htable : ∀ base ∈ ["USDT", "ETH", "BTC"], ∀ quote ∈ ["USDT", "ETH", "BTC"],
      ∀ otherBase ∈ ["USDT", "ETH", "BTC"], ∀ otherQuote ∈ ["USDT", "ETH", "BTC"],
        let info := latest tomlReader .kBinance base quote correctedFiles.reverse
        let otherInfo := latest tomlReader .kBinance otherBase otherQuote correctedFiles.reverse
        info.isSome → info.map (fun pair => pair.httpsJsonRequest) =
          otherInfo.map (fun pair => pair.httpsJsonRequest) →
            base = otherBase ∧ quote = otherQuote := by
    decide +kernel
  intro base quote info otherBase otherQuote otherInfo hlatest hother hsymbol
  obtain ⟨hbase, hquote⟩ := mentioned_of_latest hlatest
  obtain ⟨hotherBase, hotherQuote⟩ := mentioned_of_latest hother
  apply htable base (hmentioned _ hbase) quote (hmentioned _ hquote) otherBase
    (hmentioned _ hotherBase) otherQuote (hmentioned _ hotherQuote)
  · rw [hlatest, Option.isSome_some]
  · rw [hlatest, hother, Option.map_some, Option.map_some, hsymbol]

theorem resolves_correctedFiles :
    DistinctSymbols tomlReader correctedFiles .kBinance ∧
      Resolves backSetting .front correctedFiles .kBinance := by
  have hdistinct := distinctSymbols_correctedFiles
  exact ⟨hdistinct, (resolves_iff_distinct backSetting .front correctedFiles
    accepted_correctedFiles plain_correctedFiles .kBinance (.inl rfl)).mpr hdistinct⟩

end TickerParser

end CryptoBot.Common

/-
# From the websocket to the synchroniser

One websocket carries the depth updates of many pairs, the answers to subscriptions
and whatever else the venue sends.  The handler of the stream gives each message to
the parser manager and sends an event for what comes back.  A message without a
handler of its own comes back as an empty diff, and the handler sends that as well.

The law is that one pair sees only its own updates: what the synchroniser does for a
pair during any stream is what it does for the updates that carry the symbol of the
pair, in their order.  Answers, errors, unknown messages, updates of other pairs and
updates that a parser rejects are as if they had not come.
-/

import CryptoBot.Common.Configuration
import CryptoBot.MarketData.BinanceDepth
import CryptoBot.MarketData.BybitMessages
import CryptoBot.Sync.Recovery

namespace CryptoBot.MarketData

open CryptoBot.Common CryptoBot.Math CryptoBot.Requests

/-- The pairs of an exchange as the parsers look them up. -/
def pairsOf (table : ConfiguredPairs) : TradingPairHashMap := fun tradingPair =>
  (table.find tradingPair).map ConfiguredPair.toTradingPairInfo

/-! ## The parser manager of Binance -/

namespace Binance

open Bybit (ApiResponseData ApiResponseStatus RequestId ResponseType)

variable (reader : NumberReader)

/-- The field `id` of an answer; the number of an id is converted without a check. -/
def ApiResponseParser.readId (data : ApiResponseData) (doc : Json) :
    Except Failure ApiResponseData :=
  match doc.find "id" with
  | some (.string id) => .ok { data with id := .text id }
  | some (.number token) =>
    match reader.getNumber token with
    | none => .error .simdjsonError
    | some (.signedInteger value) => .ok { data with id := .signed value }
    | some (.unsignedInteger value) => .ok { data with id := .unsigned value }
    | some _ => .ok data
  | _ => .ok data

def ApiResponseParser.parse (doc : Json) : Except Failure ApiResponseData :=
  match doc.find "result" with
  | none => .ok {}
  | some .null => readId reader { status := .kSuccess } doc
  | some _ => readId reader {} doc

inductive ParsedData
  | bookDiffSnapshot (book : BookDiffSnapshot)
  | apiResponse (data : ApiResponseData)

instance : Inhabited ParsedData := ⟨.bookDiffSnapshot {}⟩

abbrev Handler := Json → Except Failure ParsedData

structure ParserManager where
  handlers : ResponseType → Option Handler := fun _ => none

namespace ParserManager

def registerHandler (manager : ParserManager) (type : ResponseType) (handler : Handler) :
    ParserManager where
  handlers := Function.update manager.handlers type (some handler)

/-- The field `e` says that the document is a depth update. -/
def IsDepthUpdate (doc : Json) : Prop := (doc.find "e").bind Json.getString = some "depthUpdate"

instance (doc : Json) : Decidable (IsDepthUpdate doc) := inferInstanceAs (Decidable (_ = _))

/-- The fields `code` and `msg` of an error. -/
def IsError (doc : Json) : Prop :=
  ((doc.find "code").bind Json.getNumber).isSome ∧ ((doc.find "msg").bind Json.getString).isSome

instance (doc : Json) : Decidable (IsError doc) := inferInstanceAs (Decidable (_ ∧ _))

def determineType (doc : Json) : ResponseType :=
  if IsDepthUpdate doc then .kDepthUpdate
  else if IsError doc then .kErrorResponse
  else if (doc.find "result").isSome then .kNonQueryResponse
  else .kUnknown

def parse (manager : ParserManager) (doc : Json) : Except Failure ParsedData :=
  match manager.handlers (determineType doc) with
  | none => .ok default
  | some handler => handler doc

end ParserManager

def initParserManager (pairs : TradingPairHashMap) (pairsReverse : String → Option TradingPair)
    (stale : Stale) : ParserManager :=
  let manager : ParserManager := {}
  let manager := manager.registerHandler .kNonQueryResponse fun doc =>
    (ApiResponseParser.parse reader doc).map .apiResponse
  manager.registerHandler .kDepthUpdate fun doc =>
    (FamilyBookEventGetter.parse reader pairs pairsReverse stale doc).map .bookDiffSnapshot

variable {reader} {pairs : TradingPairHashMap} {pairsReverse : String → Option TradingPair}
  {stale : Stale} {doc : Json}

theorem ParserManager.parse_of_depthUpdate (h : IsDepthUpdate doc) :
    (initParserManager reader pairs pairsReverse stale).parse doc =
      (FamilyBookEventGetter.parse reader pairs pairsReverse stale doc).map .bookDiffSnapshot := by
  have htype : determineType doc = .kDepthUpdate := if_pos h
  simp [parse, initParserManager, registerHandler, htype]

/-- Anything but a depth update is an answer or comes back as an empty diff. -/
theorem ParserManager.parse_of_not_depthUpdate (h : ¬ IsDepthUpdate doc) :
    (∃ failure, (initParserManager reader pairs pairsReverse stale).parse doc = .error failure) ∨
      (∃ data, (initParserManager reader pairs pairsReverse stale).parse doc =
        .ok (.apiResponse data)) ∨
      (initParserManager reader pairs pairsReverse stale).parse doc = .ok default := by
  have htype : determineType doc = .kNonQueryResponse ∨ determineType doc = .kErrorResponse ∨
      determineType doc = .kUnknown := by
    rw [determineType, if_neg h]
    split
    · exact .inr (.inl rfl)
    · split
      · exact .inl rfl
      · exact .inr (.inr rfl)
  rcases htype with htype | htype | htype
  · have hparse : (initParserManager reader pairs pairsReverse stale).parse doc =
        (ApiResponseParser.parse reader doc).map .apiResponse := by
      simp [parse, initParserManager, registerHandler, htype]
    rw [hparse]
    cases ApiResponseParser.parse reader doc with
    | error failure => exact .inl ⟨failure, rfl⟩
    | ok data => exact .inr (.inl ⟨data, rfl⟩)
  · exact .inr (.inr (by simp [parse, initParserManager, registerHandler, htype]))
  · exact .inr (.inr (by simp [parse, initParserManager, registerHandler, htype]))

/-! ### Depth updates that can be read -/

/-- No level of a side has more than two numbers. -/
def InBounds (side : Option Json) : Prop :=
  ∀ value ∈ Json.elements side, ∀ numbers, value.bind Json.getArray = some numbers →
    numbers.length ≤ 2

theorem readPair_ne_outOfBounds {pair : ℚ × ℚ} {i : ℕ} {numbers : List Json}
    (h : i + numbers.length ≤ 2) : readPair reader pair i numbers ≠ .error .outOfBounds := by
  induction numbers generalizing pair i with
  | nil => simp [readPair]
  | cons number rest ih =>
    rw [List.length_cons] at h
    rw [readPair]
    cases number.getDoubleInString reader with
    | none => simp
    | some value =>
      rcases i with _ | _ | i
      · exact ih (by omega)
      · exact ih (by omega)
      · omega

theorem readSide_ne_outOfBounds {info : TradingPairInfo} {cells : ℕ → ℚ × ℚ}
    {entries : List BookSnapshotElem} {elements : List (Option Json)}
    (h : ∀ value ∈ elements, ∀ numbers, value.bind Json.getArray = some numbers →
      numbers.length ≤ 2) :
    (readSide reader info cells entries elements).2 ≠ some .outOfBounds := by
  induction elements generalizing entries with
  | nil => simp [readSide]
  | cons all rest ih =>
    rw [readSide]
    cases harray : all.bind Json.getArray with
    | none => simp
    | some numbers =>
      have hlength := h all List.mem_cons_self numbers harray
      have hpair := @readPair_ne_outOfBounds reader (cells entries.length) 0 numbers (by omega)
      dsimp only
      cases hread : readPair reader (cells entries.length) 0 numbers with
      | error failure =>
        rw [hread] at hpair
        simpa using hpair
      | ok pair => exact ih fun value hvalue => h value (List.mem_cons_of_mem _ hvalue)

theorem readSides_ne_outOfBounds {info : TradingPairInfo} {bids asks : Option Json}
    (hbids : InBounds bids) (hasks : InBounds asks) :
    (readSides reader info stale bids asks).failure ≠ some .outOfBounds := by
  have hbid := @readSide_ne_outOfBounds reader info stale.bids [] _ hbids
  have hask := @readSide_ne_outOfBounds reader info stale.asks [] _ hasks
  rw [readSides]
  rcases hread : readSide reader info stale.bids [] (Json.elements bids) with ⟨entries, _ | failure⟩
  · exact hask
  · rw [hread] at hbid
    exact hbid

/-- The ids of an update can be read, and its levels fit. -/
structure Readable (reader : NumberReader) (doc : Json) : Prop where
  ids : (FamilyBookEventGetter.readIds reader doc).2 = none
  bids : InBounds (doc.find "b")
  asks : InBounds (doc.find "a")

namespace FamilyBookEventGetter

/-- The book of a pair as an update has it: its ids, and the levels up to the first that
cannot be read. -/
def bookOf (reader : NumberReader) (info : TradingPairInfo) (tradingPair : TradingPair)
    (stale : Stale) (doc : Json) : BookDiffSnapshot :=
  let sides := readSides reader info stale (doc.find "b") (doc.find "a")
  { (readIds reader doc).1 with
    exchangeId := .kBinance
    tradingPair
    bids := sides.bids
    asks := sides.asks }

/-- A readable update of a registered symbol is the book of its pair, and one of another
symbol is empty. -/
theorem parse_of_readable (h : Readable reader doc) :
    parse reader pairs pairsReverse stale doc =
      .ok ((((doc.find "s").bind Json.getString).bind pairsReverse).elim {} fun tradingPair =>
        bookOf reader (pairs.at tradingPair) tradingPair stale doc) := by
  rcases hids : readIds reader doc with ⟨ids, failure⟩
  have hnone : failure = none := by
    have hread := h.ids
    rwa [hids] at hread
  subst hnone
  simp only [parse, hids]
  cases hsymbol : (doc.find "s").bind Json.getString with
  | none => rfl
  | some symbol =>
    cases hpair : pairsReverse symbol with
    | none => simp only [Option.bind_some, hpair, Option.elim_none]
    | some tradingPair =>
      have hbounds : (readSides reader (pairs.at tradingPair) stale (doc.find "b")
          (doc.find "a")).failure ≠ some .outOfBounds := readSides_ne_outOfBounds h.bids h.asks
      simp only [Option.bind_some, hpair, Option.elim_some, bookOf, hids]
      revert hbounds
      cases (readSides reader (pairs.at tradingPair) stale (doc.find "b")
        (doc.find "a")).failure with
      | none => exact fun _ => rfl
      | some failure =>
        cases failure with
        | simdjsonError => exact fun _ => rfl
        | outOfBounds => exact fun hbounds => absurd rfl hbounds

end FamilyBookEventGetter

end Binance

end CryptoBot.MarketData

namespace CryptoBot.Sync

open CryptoBot.Common CryptoBot.Math CryptoBot.MarketData CryptoBot.Requests

/-! ## One pair of a synchroniser -/

namespace Generator

variable (generator : Generator) {events : List Event} {pair : TradingPair}

/-- The event is one of the pair, and the component does not drop it. -/
def Concerns (pair : TradingPair) (event : Event) : Prop :=
  event.exchangeId = generator.exchangeId ∧ event.tradingPair = pair

instance (pair : TradingPair) (event : Event) : Decidable (generator.Concerns pair event) :=
  inferInstanceAs (Decidable (_ ∧ _))

/-- Events of no venue concern nobody. -/
theorem not_concerns_of_invalid (hvenue : generator.exchangeId ≠ .kInvalid) {event : Event}
    (h : event.exchangeId = .kInvalid) : ¬ generator.Concerns pair event := by
  rintro ⟨hexchange, -⟩
  exact hvenue (hexchange.symm.trans h)

theorem filter_eq_nil_of_invalid (hvenue : generator.exchangeId ≠ .kInvalid)
    (h : ∀ event ∈ events, event.exchangeId = .kInvalid) :
    events.filter (generator.Concerns pair ·) = [] := by
  rw [List.filter_eq_nil_iff]
  intro event hevent
  simpa using generator.not_concerns_of_invalid hvenue (h event hevent)

/-- Only the events of a pair matter to it. -/
theorem filter_concerns (events : List Event) (pair : TradingPair) :
    generator.stateOf (events.filter (generator.Concerns pair ·)) pair =
        generator.stateOf events pair ∧
      generator.history (events.filter (generator.Concerns pair ·)) pair =
        generator.history events pair := by
  have hown : generator.own pair (events.filter (generator.Concerns pair ·)) =
      generator.own pair events := by
    rw [own, own, List.filter_filter]
    apply List.filter_congr
    intro event _
    exact Bool.and_self _
  obtain ⟨hstate, hhistory⟩ := generator.pair_eq events pair
  obtain ⟨hstate', hhistory'⟩ :=
    generator.pair_eq (events.filter (generator.Concerns pair ·)) pair
  rw [hstate', hhistory', hown]
  exact ⟨hstate.symm, hhistory.symm⟩

/-- A stream of messages, each of which leads to the events `sent`, works on a pair like
the updates of the pair, if those are the events of each message that concern it. -/
theorem stream_eq {μ : Type} (sent : μ → List Event) (update : μ → Option Event)
    {messages : List μ}
    (h : ∀ message ∈ messages,
      (sent message).filter (generator.Concerns pair ·) = (update message).toList) :
    generator.stateOf (messages.flatMap sent) pair =
        generator.stateOf (messages.filterMap update) pair ∧
      generator.history (messages.flatMap sent) pair =
        generator.history (messages.filterMap update) pair := by
  have hevents : (messages.flatMap sent).filter (generator.Concerns pair ·) =
      messages.filterMap update := by
    induction messages with
    | nil => rfl
    | cons message messages ih =>
      rw [List.flatMap_cons, List.filter_append, h message List.mem_cons_self,
        ih fun later hlater => h later (List.mem_cons_of_mem _ hlater), List.filterMap_cons]
      cases update message <;> rfl
  obtain ⟨hstate, hhistory⟩ := generator.filter_concerns (messages.flatMap sent) pair
  rw [← hstate, ← hhistory, hevents]
  exact ⟨rfl, rfl⟩

/-- A pair without updates is untouched. -/
theorem stream_untouched {μ : Type} (sent : μ → List Event) {messages : List μ}
    (h : ∀ message ∈ messages, ∀ event ∈ sent message, ¬ generator.Concerns pair event) :
    generator.stateOf (messages.flatMap sent) pair = {} ∧
      generator.history (messages.flatMap sent) pair = [] := by
  have hevents : ∀ message ∈ messages,
      (sent message).filter (generator.Concerns pair ·) = (none : Option Event).toList := by
    intro message hmessage
    rw [Option.toList_none, List.filter_eq_nil_iff]
    intro event hevent
    simpa using h message hmessage event hevent
  obtain ⟨hstate, hhistory⟩ := generator.stream_eq sent (fun _ => none) hevents
  rw [hstate, hhistory]
  simp [stateOf, history, historyOf, machine, Machine.run, Machine.runFrom, Machine.trace,
    Machine.traceFrom]

end Generator

/-- Each pair of the table sees its own updates only, and no other pair sees anything. -/
structure Separated {μ : Type} (generator : Generator) (table : ConfiguredPairs)
    (sent : μ → List Event) (update : TradingPair → ConfiguredPair → μ → Option Event)
    (messages : List μ) : Prop where
  state : ∀ pair info, table.find pair = some info →
    generator.stateOf (messages.flatMap sent) pair =
      generator.stateOf (messages.filterMap (update pair info)) pair
  history : ∀ pair info, table.find pair = some info →
    generator.history (messages.flatMap sent) pair =
      generator.history (messages.filterMap (update pair info)) pair
  strangers : ∀ pair, table.find pair = none →
    generator.stateOf (messages.flatMap sent) pair = {} ∧
      generator.history (messages.flatMap sent) pair = []

/-- It is enough to look at one message at a time. -/
theorem Separated.of_messages {μ : Type} {generator : Generator} {table : ConfiguredPairs}
    {sent : μ → List Event} {update : TradingPair → ConfiguredPair → μ → Option Event}
    {messages : List μ}
    (hown : ∀ message ∈ messages, ∀ pair info, table.find pair = some info →
      (sent message).filter (generator.Concerns pair ·) = (update pair info message).toList)
    (hstrangers : ∀ message ∈ messages, ∀ pair, table.find pair = none →
      ∀ event ∈ sent message, ¬ generator.Concerns pair event) :
    Separated generator table sent update messages where
  state pair info hinfo :=
    (generator.stream_eq sent (update pair info) fun message hmessage =>
      hown message hmessage pair info hinfo).1
  history pair info hinfo :=
    (generator.stream_eq sent (update pair info) fun message hmessage =>
      hown message hmessage pair info hinfo).2
  strangers pair hpair := generator.stream_untouched sent fun message hmessage =>
    hstrangers message hmessage pair hpair

/-- The table leads from a symbol to the pair that has it. -/
theorem find_initTPsJR_eq_some_iff (placement : Placement (String × TradingPair))
    {table : ConfiguredPairs} (hdistinct : Distinct table) {pair : TradingPair}
    {info : ConfiguredPair} (hinfo : table.find pair = some info) (symbol : String) :
    (initTPsJR placement table).find symbol = some pair ↔ symbol = info.httpsJsonRequest := by
  constructor
  · intro h
    obtain ⟨found, hfound, hsymbol⟩ := exists_of_find_initTPsJR h
    rw [hinfo] at hfound
    rw [Option.some.inj hfound, hsymbol]
  · rintro rfl
    exact forall_find_initTPsJR_iff.mpr hdistinct pair info hinfo

/-- What a handler sends, if it does not raise. -/
def sentBy {ε : Type} : Except ε (List Event) → List Event
  | .ok events => events
  | .error _ => []

/-! ## The stream of Binance -/

namespace Binance

open MarketData.Binance

/-- A message of the stream, with what the cells of the parser hold before. -/
structure Message where
  doc : Json
  stale : Stale

def eventOf (book : BookDiffSnapshot) : Event :=
  .bookDiffSnapshot
    { exchangeId := book.exchangeId
      tradingPair := book.tradingPair
      bids := book.bids
      asks := book.asks
      firstId := book.firstId
      lastId := book.lastId
      prevId := book.prevId }

/-- `BookEventGetterComponentCallbackHandler::HandleResponse`: the events it sends. -/
def handleResponse (manager : ParserManager) (doc : Json) : Except Failure (List Event) :=
  (manager.parse doc).map fun
    | .bookDiffSnapshot book => [eventOf book]
    | .apiResponse _ => []

section

variable (reader : NumberReader) (placement : Placement (String × TradingPair))
  (table : ConfiguredPairs)

/-- The events of a message, with the tables of the configuration. -/
def sent (message : Message) : List Event :=
  sentBy (handleResponse
    (initParserManager reader (pairsOf table) (initTPsJR placement table).find message.stale)
    message.doc)

/-- The update of a pair in a message: a depth update with the symbol of the pair. -/
def updateOf (pair : TradingPair) (info : ConfiguredPair) (message : Message) : Option Event :=
  if ParserManager.IsDepthUpdate message.doc ∧
      (message.doc.find "s").bind Json.getString = some info.httpsJsonRequest then
    some (eventOf (FamilyBookEventGetter.bookOf reader info.toTradingPairInfo pair message.stale
      message.doc))
  else none

end

variable {reader : NumberReader} {placement : Placement (String × TradingPair)}
  {table : ConfiguredPairs} {message : Message} {pair : TradingPair}

/-- A message that is no depth update leads to nothing or to a diff of no venue. -/
theorem exchangeId_of_mem_sent (h : ¬ ParserManager.IsDepthUpdate message.doc) {event : Event}
    (hevent : event ∈ sent reader placement table message) : event.exchangeId = .kInvalid := by
  rw [sent, handleResponse] at hevent
  rcases ParserManager.parse_of_not_depthUpdate h with
    ⟨failure, hparse⟩ | ⟨data, hparse⟩ | hparse
  · rw [hparse] at hevent
    simp [Except.map, sentBy] at hevent
  · rw [hparse] at hevent
    simp [Except.map, sentBy] at hevent
  · rw [hparse] at hevent
    simp only [Except.map, sentBy, default, List.mem_singleton] at hevent
    rw [hevent]
    rfl

/-- A depth update that can be read leads to one event, of the pair of its symbol. -/
theorem sent_of_readable (h : ParserManager.IsDepthUpdate message.doc)
    (hreadable : Readable reader message.doc) :
    sent reader placement table message =
      [eventOf ((((message.doc.find "s").bind Json.getString).bind
        (initTPsJR placement table).find).elim {} fun tradingPair =>
          FamilyBookEventGetter.bookOf reader ((pairsOf table).at tradingPair) tradingPair
            message.stale message.doc)] := by
  rw [sent, handleResponse, ParserManager.parse_of_depthUpdate h,
    FamilyBookEventGetter.parse_of_readable hreadable]
  rfl

theorem filter_sent (policy : PolicyPacketLoss) (hdistinct : Distinct table)
    (hreadable : ParserManager.IsDepthUpdate message.doc → Readable reader message.doc)
    {info : ConfiguredPair} (hinfo : table.find pair = some info) :
    (sent reader placement table message).filter ((generator policy).Concerns pair ·) =
      (updateOf reader pair info message).toList := by
  by_cases hupdate : ParserManager.IsDepthUpdate message.doc
  · rw [sent_of_readable hupdate (hreadable hupdate), updateOf]
    cases hsymbol : (message.doc.find "s").bind Json.getString with
    | none => simp [Generator.Concerns, eventOf, Event.exchangeId, generator]
    | some symbol =>
      have hpairs : (pairsOf table).at pair = info.toTradingPairInfo := by
        apply TradingPairHashMap.at_of_some
        rw [pairsOf, hinfo, Option.map_some]
      have hresolve := find_initTPsJR_eq_some_iff placement hdistinct hinfo symbol
      rw [Option.bind_some]
      cases hfound : (initTPsJR placement table).find symbol with
      | none =>
        have hother : symbol ≠ info.httpsJsonRequest := by
          rw [Ne, ← hresolve, hfound]
          simp
        simp [Generator.Concerns, eventOf, Event.exchangeId, generator, hother]
      | some found =>
        by_cases hsame : found = pair
        · subst hsame
          have hown : symbol = info.httpsJsonRequest := hresolve.mp hfound
          simp [Generator.Concerns, eventOf, Event.exchangeId, Event.tradingPair, generator,
            FamilyBookEventGetter.bookOf, hupdate, hown, hpairs]
        · have hother : symbol ≠ info.httpsJsonRequest := by
            rw [Ne, ← hresolve, hfound, Option.some.injEq]
            exact hsame
          simp [Generator.Concerns, eventOf, Event.exchangeId, Event.tradingPair, generator,
            FamilyBookEventGetter.bookOf, hother, hsame]
  · have hnone : updateOf reader pair info message = none := if_neg fun h => hupdate h.1
    rw [hnone, Option.toList_none]
    apply (generator policy).filter_eq_nil_of_invalid (by simp [generator])
    intro event hevent
    exact exchangeId_of_mem_sent hupdate hevent

/-- The events of a message are those of pairs in the table. -/
theorem not_concerns_of_find_eq_none (policy : PolicyPacketLoss)
    (hreadable : ParserManager.IsDepthUpdate message.doc → Readable reader message.doc)
    (hpair : table.find pair = none) {event : Event}
    (hevent : event ∈ sent reader placement table message) :
    ¬ (generator policy).Concerns pair event := by
  rintro ⟨hvenue, hconcerns⟩
  by_cases hupdate : ParserManager.IsDepthUpdate message.doc
  · rw [sent_of_readable hupdate (hreadable hupdate), List.mem_singleton] at hevent
    subst hevent
    cases hfound : ((message.doc.find "s").bind Json.getString).bind
        (initTPsJR placement table).find with
    | none =>
      rw [hfound] at hvenue
      cases hvenue
    | some found =>
      obtain ⟨symbol, -, hsymbol⟩ := Option.bind_eq_some_iff.mp hfound
      obtain ⟨info, hinfo, -⟩ := exists_of_find_initTPsJR hsymbol
      rw [hfound] at hconcerns
      have hsame : found = pair := hconcerns
      rw [hsame, hpair] at hinfo
      cases hinfo
  · rw [exchangeId_of_mem_sent hupdate hevent] at hvenue
    cases hvenue

/-- A stream of Binance works on each pair like the depth updates with its symbol. -/
theorem binance_separated (policy : PolicyPacketLoss) (reader : NumberReader)
    (placement : Placement (String × TradingPair)) (table : ConfiguredPairs)
    (messages : List Message) (hdistinct : Distinct table)
    (hreadable : ∀ message ∈ messages,
      ParserManager.IsDepthUpdate message.doc → Readable reader message.doc) :
    Separated (generator policy) table (sent reader placement table) (updateOf reader)
      messages := by
  apply Separated.of_messages
  · intro message hmessage pair info hinfo
    exact filter_sent policy hdistinct (hreadable message hmessage) hinfo
  · intro message hmessage pair hpair event hevent
    exact not_concerns_of_find_eq_none policy (hreadable message hmessage) hpair hevent

/-- Bitcoin and ether on Binance. -/
def twoSymbols : ConfiguredPairs where
  entries :=
    [(⟨2, 1⟩, { pricePrecission := 2, qtyPrecission := 5, httpsJsonRequest := "BTCUSDT" }),
      (⟨3, 1⟩, { pricePrecission := 2, qtyPrecission := 4, httpsJsonRequest := "ETHUSDT" })]
  nodup := by decide

theorem distinct_twoSymbols : Distinct twoSymbols := by
  intro first second firstInfo secondInfo hfirst hsecond hsymbol
  rw [← twoSymbols.mem_entries_iff] at hfirst hsecond
  simp only [twoSymbols, List.mem_cons, Prod.mk.injEq, List.not_mem_nil, or_false]
    at hfirst hsecond
  rcases hfirst with ⟨rfl, rfl⟩ | ⟨rfl, rfl⟩ <;> rcases hsecond with ⟨rfl, rfl⟩ | ⟨rfl, rfl⟩ <;>
    simp_all

/-- An update of bitcoin with one bid. -/
def bitcoinUpdate : Json :=
  .object [("e", .string "depthUpdate"), ("s", .string "BTCUSDT"), ("U", .number "157"),
    ("u", .number "160"), ("b", .array [.array [.string "0.0024", .string "10"]]),
    ("a", .array [])]

theorem readable_bitcoinUpdate : Readable decimalReader bitcoinUpdate where
  ids := by decide +kernel
  bids := by
    have hfind : bitcoinUpdate.find "b" =
        some (.array [.array [.string "0.0024", .string "10"]]) := rfl
    simp [InBounds, hfind, Json.elements, Json.getArray]
  asks := by
    have hfind : bitcoinUpdate.find "a" = some (.array []) := rfl
    simp [InBounds, hfind, Json.elements, Json.getArray]

/-- An error of the exchange comes between two updates. -/
def errorBetween : List Message :=
  [⟨bitcoinUpdate, ⟨fun _ => (0, 0), fun _ => (0, 0)⟩⟩,
    ⟨errorReply, ⟨fun _ => (0, 0), fun _ => (0, 0)⟩⟩,
    ⟨bitcoinUpdate, ⟨fun _ => (0, 0), fun _ => (0, 0)⟩⟩]

theorem separated_errorBetween :
    Separated (generator .spot) twoSymbols (sent decimalReader .front twoSymbols)
      (updateOf decimalReader) errorBetween := by
  apply binance_separated .spot decimalReader .front twoSymbols errorBetween distinct_twoSymbols
  intro message hmessage hupdate
  simp only [errorBetween, List.mem_cons, List.not_mem_nil, or_false] at hmessage
  rcases hmessage with rfl | rfl | rfl
  · exact readable_bitcoinUpdate
  · rw [ParserManager.IsDepthUpdate, find_errorReply (by decide) (by decide)] at hupdate
    cases hupdate
  · exact readable_bitcoinUpdate

end Binance

/-! ## The stream of Bybit -/

namespace Bybit

open MarketData.Bybit

def diffEvent (book : BookDiffSnapshot) : Event :=
  .bookDiffSnapshot
    { exchangeId := book.exchangeId
      tradingPair := book.tradingPair
      bids := book.bids
      asks := book.asks
      firstId := book.firstId
      lastId := book.lastId }

def snapshotEvent (book : BookSnapshot) : Event :=
  .responseNewSnapshot
    { exchangeId := book.exchangeId
      tradingPair := book.tradingPair
      bids := book.bids
      asks := book.asks
      lastUpdateId := book.lastUpdateId }

/-- `OrderBookWebSocketResponseHandler::HandleResponse`: the events it sends. -/
def handleResponse (manager : ParserManager) (doc : Json) : Except Failure (List Event) :=
  (manager.parse doc).map fun
    | .bookDiffSnapshot book => [diffEvent book]
    | .bookSnapshot book => [snapshotEvent book]
    | .apiResponse _ => []

/-- The event of a book of the depth parser. -/
def eventOf : ResponseVariant → Event
  | .bookDiffSnapshot book => diffEvent book
  | .bookSnapshot book => snapshotEvent book

section

variable (reader : NumberReader) (placement : Placement (String × TradingPair))
  (table : ConfiguredPairs)

def sent (doc : Json) : List Event :=
  sentBy (handleResponse
    (initParserManager reader (pairsOf table) (initTPsJR placement table).find) doc)

/-- The update of a pair in a message: a snapshot or a diff with the symbol of the pair
that the depth parser reads to the end. -/
def updateOf (pair : TradingPair) (info : ConfiguredPair) (doc : Json) : Option Event :=
  (doc.find "data").bind fun data =>
    if (data.find "s").bind Json.getString = some info.httpsJsonRequest then
      if ParserManager.IsType doc "delta" then
        (readBook reader info.toTradingPairInfo pair "delta" data).map eventOf
      else if ParserManager.IsType doc "snapshot" then
        (readBook reader info.toTradingPairInfo pair "snapshot" data).map eventOf
      else none
    else none

end

variable {reader : NumberReader} {placement : Placement (String × TradingPair)}
  {table : ConfiguredPairs} {doc : Json} {pair : TradingPair}

theorem eventOf_readBook {info : TradingPairInfo} {type : String} {data : Json}
    {response : ResponseVariant} (hvalid : IsValidType type)
    (h : readBook reader info pair type data = some response) :
    (eventOf response).exchangeId = .kBybit ∧ (eventOf response).tradingPair = pair := by
  simp only [readBook, Option.bind_eq_bind, Option.bind_eq_some_iff] at h
  obtain ⟨bids, -, id, -, h⟩ := h
  rcases hvalid with rfl | rfl
  · cases Option.some.inj h
    exact ⟨rfl, rfl⟩
  · cases Option.some.inj h
    exact ⟨rfl, rfl⟩

/-- What the depth parser reads from a message of a type. -/
def readOf (reader : NumberReader) (placement : Placement (String × TradingPair))
    (table : ConfiguredPairs) (type : String) (doc : Json) : Option ResponseVariant :=
  (doc.find "data").bind fun data =>
    (((data.find "s").bind Json.getString).bind (initTPsJR placement table).find).bind
      fun tradingPair => readBook reader ((pairsOf table).at tradingPair) tradingPair type data

theorem readOf_eq_some_iff {type : String} {response : ResponseVariant} :
    readOf reader placement table type doc = some response ↔
      ∃ data symbol tradingPair, doc.find "data" = some data ∧
        (data.find "s").bind Json.getString = some symbol ∧
        (initTPsJR placement table).find symbol = some tradingPair ∧
        readBook reader ((pairsOf table).at tradingPair) tradingPair type data =
          some response := by
  constructor
  · intro h
    obtain ⟨data, hdata, h⟩ := Option.bind_eq_some_iff.mp h
    obtain ⟨tradingPair, hpair, h⟩ := Option.bind_eq_some_iff.mp h
    obtain ⟨symbol, hsymbol, hpair⟩ := Option.bind_eq_some_iff.mp hpair
    exact ⟨data, symbol, tradingPair, hdata, hsymbol, hpair, h⟩
  · rintro ⟨data, symbol, tradingPair, hdata, hsymbol, hpair, h⟩
    simp only [readOf, hdata, hsymbol, hpair, Option.bind_some, h]

/-- A message of a depth type leads to the event of what was read, or to one of no
venue. -/
theorem sent_of_isType {type : String} (hvalid : IsValidType type)
    (htype : ParserManager.IsType doc type) :
    (∃ response, readOf reader placement table type doc = some response ∧
      sent reader placement table doc = [eventOf response]) ∨
    readOf reader placement table type doc = none ∧
      ∀ event ∈ sent reader placement table doc, event.exchangeId = .kInvalid := by
  have hparse := @parse_of_type reader (pairsOf table) (initTPsJR placement table).find doc type
    htype hvalid
  rw [← readOf] at hparse
  rcases hvalid with rfl | rfl
  · have hkind : ParserManager.determineType doc = .kSnapshot := by
      rw [ParserManager.determineType, if_neg, if_pos htype]
      rw [ParserManager.IsType] at htype ⊢
      simp [htype]
    rw [sent, handleResponse, ParserManager.parse_initParserManager, hkind]
    dsimp only
    rw [hparse]
    cases hread : readOf reader placement table "snapshot" doc with
    | none =>
      refine .inr ⟨rfl, ?_⟩
      intro event hevent
      rw [List.mem_singleton.mp hevent]
      rfl
    | some response =>
      obtain ⟨data, symbol, tradingPair, -, -, -, hbook⟩ := readOf_eq_some_iff.mp hread
      obtain ⟨book, rfl⟩ := exists_readBook_snapshot hbook
      exact .inl ⟨_, rfl, rfl⟩
  · have hkind : ParserManager.determineType doc = .kDepthUpdate := if_pos htype
    rw [sent, handleResponse, ParserManager.parse_initParserManager, hkind]
    dsimp only
    rw [hparse]
    cases hread : readOf reader placement table "delta" doc with
    | none =>
      refine .inr ⟨rfl, ?_⟩
      intro event hevent
      cases hevent
    | some response =>
      obtain ⟨data, symbol, tradingPair, -, -, -, hbook⟩ := readOf_eq_some_iff.mp hread
      obtain ⟨book, rfl⟩ := exists_readBook_delta hbook
      exact .inl ⟨_, rfl, rfl⟩

/-- Any other message leads to nothing or to a diff of no venue. -/
theorem exchangeId_of_mem_sent (hdelta : ¬ ParserManager.IsType doc "delta")
    (hsnapshot : ¬ ParserManager.IsType doc "snapshot") {event : Event}
    (hevent : event ∈ sent reader placement table doc) : event.exchangeId = .kInvalid := by
  rw [sent, handleResponse, ParserManager.parse_initParserManager,
    ParserManager.determineType, if_neg hdelta, if_neg hsnapshot] at hevent
  by_cases hsuccess : (doc.find "success").isSome
  · rw [if_pos hsuccess] at hevent
    dsimp only at hevent
    cases hanswer : ApiResponseParser.parse reader doc with
    | error failure =>
      rw [hanswer] at hevent
      cases hevent
    | ok data =>
      rw [hanswer] at hevent
      cases hevent
  · rw [if_neg hsuccess] at hevent
    rw [List.mem_singleton.mp hevent]
    rfl

/-- The update of a pair is what is read of a message with its symbol. -/
theorem updateOf_of_isType {type : String} (hvalid : IsValidType type)
    (htype : ParserManager.IsType doc type) (pair : TradingPair) (info : ConfiguredPair) :
    updateOf reader pair info doc = (doc.find "data").bind fun data =>
      if (data.find "s").bind Json.getString = some info.httpsJsonRequest then
        (readBook reader info.toTradingPairInfo pair type data).map eventOf
      else none := by
  rw [updateOf]
  congr 1
  funext data
  split
  · rcases hvalid with rfl | rfl
    · rw [if_neg, if_pos htype]
      rw [ParserManager.IsType] at htype ⊢
      simp [htype]
    · rw [if_pos htype]
  · rfl

/-- The events of a message of a depth type that concern a pair. -/
theorem filter_sent_of_isType (hdistinct : Distinct table) {type : String}
    (hvalid : IsValidType type) (htype : ParserManager.IsType doc type) {info : ConfiguredPair}
    (hinfo : table.find pair = some info) :
    (sent reader placement table doc).filter (generator.Concerns pair ·) =
      (updateOf reader pair info doc).toList := by
  have hpairs : (pairsOf table).at pair = info.toTradingPairInfo := by
    apply TradingPairHashMap.at_of_some
    rw [pairsOf, hinfo, Option.map_some]
  rw [updateOf_of_isType hvalid htype]
  rcases sent_of_isType hvalid htype with ⟨response, hread, hsent⟩ | ⟨hread, hsent⟩
  · obtain ⟨data, symbol, tradingPair, hdata, hsymbol, hfound, hbook⟩ :=
      readOf_eq_some_iff.mp hread
    obtain ⟨hvenue, hconcerns⟩ := eventOf_readBook hvalid hbook
    have hresolve := find_initTPsJR_eq_some_iff placement hdistinct hinfo symbol
    rw [hsent, hdata, Option.bind_some, hsymbol]
    by_cases hsame : tradingPair = pair
    · subst hsame
      rw [hpairs] at hbook
      simp [Generator.Concerns, hvenue, hconcerns, generator, hresolve.mp hfound, hbook]
    · have hother : symbol ≠ info.httpsJsonRequest := by
        rw [Ne, ← hresolve, hfound, Option.some.injEq]
        exact hsame
      simp [Generator.Concerns, hconcerns, hsame, hother]
  · -- nothing was read, so there is no book for the pair either
    have hnone : ((doc.find "data").bind fun data =>
        if (data.find "s").bind Json.getString = some info.httpsJsonRequest then
          (readBook reader info.toTradingPairInfo pair type data).map eventOf
        else none) = none := by
      rw [Option.bind_eq_none_iff]
      intro data hdata
      split
      · rename_i hsymbol
        have hfound := (find_initTPsJR_eq_some_iff placement hdistinct hinfo _).mpr rfl
        rw [Option.map_eq_none_iff, Option.eq_none_iff_forall_ne_some]
        intro response hbook
        rw [← hpairs] at hbook
        rw [readOf_eq_some_iff.mpr ⟨data, _, pair, hdata, hsymbol, hfound, hbook⟩] at hread
        cases hread
      · rfl
    rw [hnone, Option.toList_none]
    exact generator.filter_eq_nil_of_invalid (by simp [generator]) hsent

/-- The events of a message of a depth type are those of pairs in the table. -/
theorem not_concerns_of_isType {type : String} (hvalid : IsValidType type)
    (htype : ParserManager.IsType doc type) (hpair : table.find pair = none) {event : Event}
    (hevent : event ∈ sent reader placement table doc) : ¬ generator.Concerns pair event := by
  rintro ⟨hvenue, hconcerns⟩
  rcases sent_of_isType hvalid htype with ⟨response, hread, hsent⟩ | ⟨-, hsent⟩
  · obtain ⟨data, symbol, tradingPair, -, -, hfound, hbook⟩ := readOf_eq_some_iff.mp hread
    obtain ⟨info, hinfo, -⟩ := exists_of_find_initTPsJR hfound
    rw [hsent, List.mem_singleton] at hevent
    rw [hevent, (eventOf_readBook hvalid hbook).2] at hconcerns
    rw [hconcerns, hpair] at hinfo
    cases hinfo
  · rw [hsent event hevent] at hvenue
    cases hvenue

/-- A stream of Bybit works on each pair like the snapshots and diffs with its symbol. -/
theorem bybit_separated (reader : NumberReader) (placement : Placement (String × TradingPair))
    (table : ConfiguredPairs) (docs : List Json) (hdistinct : Distinct table) :
    Separated generator table (sent reader placement table) (updateOf reader) docs := by
  apply Separated.of_messages
  · intro doc _ pair info hinfo
    by_cases hdelta : ParserManager.IsType doc "delta"
    · exact filter_sent_of_isType hdistinct (.inr rfl) hdelta hinfo
    · by_cases hsnapshot : ParserManager.IsType doc "snapshot"
      · exact filter_sent_of_isType hdistinct (.inl rfl) hsnapshot hinfo
      · have hnone : updateOf reader pair info doc = none := by
          simp [updateOf, hdelta, hsnapshot]
        rw [hnone, Option.toList_none]
        apply generator.filter_eq_nil_of_invalid (by simp [generator])
        intro event hevent
        exact exchangeId_of_mem_sent hdelta hsnapshot hevent
  · intro doc _ pair hpair event hevent
    by_cases hdelta : ParserManager.IsType doc "delta"
    · exact not_concerns_of_isType (.inr rfl) hdelta hpair hevent
    · by_cases hsnapshot : ParserManager.IsType doc "snapshot"
      · exact not_concerns_of_isType (.inl rfl) hsnapshot hpair hevent
      · exact generator.not_concerns_of_invalid (by simp [generator])
          (exchangeId_of_mem_sent hdelta hsnapshot hevent)

/-- A book message of bitcoin with one bid. -/
def bitcoinBook (type : String) (id : String) : Json :=
  .object [("topic", .string "orderbook.50.BTCUSDT"), ("type", .string type),
    ("data", .object [("s", .string "BTCUSDT"),
      ("b", .array [.array [.string "16493.50", .string "0.006"]]), ("a", .array []),
      ("u", .number id)])]

/-- The diff of a pair that is not in the table comes between a snapshot and a diff of one that
is. -/
theorem separated_strangerDiff :
    let docs := [bitcoinBook "snapshot" "7", ParserManager.strangerDiff, bitcoinBook "delta" "8"]
    docs.flatMap (fun doc => (sent decimalReader .front Binance.twoSymbols doc).map
        fun event => (event.exchangeId, event.tradingPair)) =
        [(.kBybit, ⟨2, 1⟩), (.kBybit, ⟨2, 1⟩)] ∧
      Separated generator Binance.twoSymbols (sent decimalReader .front Binance.twoSymbols)
        (updateOf decimalReader) docs := by
  intro docs
  exact ⟨by decide +kernel,
    bybit_separated decimalReader .front Binance.twoSymbols docs Binance.distinct_twoSymbols⟩

end Bybit

end CryptoBot.Sync

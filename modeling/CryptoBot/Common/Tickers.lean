/-
# Ids of tickers

`TickerManager` gives each ticker an id and keeps both directions of the map.  The ids
come from a counter of the caller, and `TickerParser::Parse` starts a new counter at
zero for every file, while the maps of the manager stay.  So the second file that
brings new tickers gives out ids that are taken.

A file is a tree of tables, of which only the keys matter here.  The tickers are
collected in a hash set, and a parse visits them in some order; the order is part of
the call.  The manager copies a ticker as a C string, up to the first null character.
-/

import Mathlib.Data.Finset.Card
import Mathlib.Data.UInt
import CryptoBot.Math.Machine

namespace CryptoBot.Common

open CryptoBot.Math

/-! ## The manager -/

/-- The text of a string up to a null character, as `std::string(text.data())`. -/
def cString (text : String) : String := .ofList (text.toList.takeWhile (· ≠ '\x00'))

structure TickerManager where
  tickerToInt : String → Option UInt32 := fun _ => none
  intToTicker : UInt32 → Option String := fun _ => none

namespace TickerManager

/-- `AddTicker`, with the counter. -/
def addTicker (state : TickerManager × UInt32) (text : String) : TickerManager × UInt32 :=
  let (manager, counter) := state
  let ticker := cString text
  if (manager.tickerToInt ticker).isNone then
    ({ tickerToInt := Function.update manager.tickerToInt ticker (some counter)
       intToTicker := Function.update manager.intToTicker counter (some ticker) }, counter + 1)
  else (manager, counter)

/-- `InitTickerManager`. -/
def initTickerManager (manager : TickerManager) (tickers : List String) : TickerManager :=
  (tickers.foldl addTicker (manager, 0)).1

/-- Different tickers have different ids, and the ids lead back to their tickers. -/
def Inverse (manager : TickerManager) : Prop :=
  ∀ ticker id, manager.tickerToInt ticker = some id ↔ manager.intToTicker id = some ticker

end TickerManager

/-! ## Files -/

inductive Toml
  | table (entries : List (String × Toml))
  | value

namespace Toml

def find (key : String) : Toml → Option Toml
  | table entries => entries.lookup key
  | value => none

/-- The keys of a table; anything else has none. -/
def keys : Option Toml → List String
  | some (table entries) => entries.map Prod.fst
  | _ => []

def parseExchanges (config : Toml) : List String := keys (config.find "exchange")

def parseTickers (config : Toml) (exchanges : List String) : List String :=
  exchanges.flatMap fun exchange =>
    let pairs := (config.find "trading_pairs").bind (find exchange)
    (keys pairs).flatMap fun ticker => ticker :: keys (pairs.bind (find ticker))

/-- The tickers of a file; one that cannot be loaded has none. -/
def tickers : Option Toml → List String
  | some config => config.parseTickers config.parseExchanges
  | none => []

end Toml

/-- A call of `TickerParser::Parse`: the file and the order in which the set of its
tickers is visited. -/
structure ParseCall where
  config : Option Toml
  order : List String
  nodup : order.Nodup
  mem_order : ∀ ticker, ticker ∈ order ↔ ticker ∈ Toml.tickers config

namespace TickerManager

def parse (manager : TickerManager) (call : ParseCall) : TickerManager :=
  manager.initTickerManager call.order

def parseAll (calls : List ParseCall) : TickerManager := calls.foldl parse {}

theorem parseAll_concat (calls : List ParseCall) (call : ParseCall) :
    parseAll (calls ++ [call]) = (parseAll calls).parse call := by
  rw [parseAll, parseAll, List.foldl_append, List.foldl_cons, List.foldl_nil]

/-! ## The loop over the tickers -/

variable {manager : TickerManager} {counter : UInt32} {texts : List String}

/-- A known ticker keeps its id. -/
theorem tickerToInt_addTicker {ticker : String} {id : UInt32} (text : String)
    (h : manager.tickerToInt ticker = some id) :
    (addTicker (manager, counter) text).1.tickerToInt ticker = some id := by
  unfold addTicker
  dsimp only
  split
  · rename_i hnone
    have hne : ticker ≠ cString text := by
      rintro rfl
      simp [h] at hnone
    exact (Function.update_of_ne hne _ _).trans h
  · exact h

theorem tickerToInt_foldl {ticker : String} {id : UInt32}
    (h : manager.tickerToInt ticker = some id) :
    (texts.foldl addTicker (manager, counter)).1.tickerToInt ticker = some id := by
  induction texts generalizing manager counter with
  | nil => exact h
  | cons text rest ih => exact ih (tickerToInt_addTicker text h)

theorem addTicker_of_known {text : String} (h : (manager.tickerToInt (cString text)).isSome) :
    addTicker (manager, counter) text = (manager, counter) := by
  rw [addTicker, if_neg (by simp [Option.isNone_iff_eq_none, ← Option.not_isSome_iff_eq_none, h])]

/-- The first new ticker gets the id of the counter. -/
theorem exists_first_of_new
    (h : ∃ text ∈ texts, manager.tickerToInt (cString text) = none) :
    ∃ ticker, manager.tickerToInt ticker = none ∧
      (texts.foldl addTicker (manager, counter)).1.tickerToInt ticker = some counter := by
  induction texts with
  | nil => simp at h
  | cons text rest ih =>
    rw [List.foldl_cons]
    cases hknown : manager.tickerToInt (cString text) with
    | none =>
      refine ⟨cString text, hknown, ?_⟩
      have hadd : (addTicker (manager, counter) text).1.tickerToInt (cString text) =
          some counter := by
        simp [addTicker, hknown]
      exact tickerToInt_foldl hadd
    | some id =>
      rw [addTicker_of_known (by simp [hknown])]
      apply ih
      obtain ⟨other, hmem, hnone⟩ := h
      rcases List.mem_cons.mp hmem with rfl | hmem
      · simp [hknown] at hnone
      · exact ⟨other, hmem, hnone⟩

theorem foldl_addTicker_of_known
    (h : ∀ text ∈ texts, (manager.tickerToInt (cString text)).isSome) :
    texts.foldl addTicker (manager, counter) = (manager, counter) := by
  induction texts with
  | nil => rfl
  | cons text rest ih =>
    rw [List.foldl_cons, addTicker_of_known (h text List.mem_cons_self)]
    exact ih fun other hother => h other (List.mem_cons_of_mem _ hother)

/-! ## A file for an empty manager -/

/-- The ids of the tickers seen so far are the numbers below their number, and the
counter is the next. -/
structure Counted (manager : TickerManager) (counter : UInt32) (seen : Finset String) : Prop where
  inverse : manager.Inverse
  known : ∀ ticker, (manager.tickerToInt ticker).isSome ↔ ticker ∈ seen
  used : ∀ id, (manager.intToTicker id).isSome ↔ id.toNat < seen.card
  next : counter = .ofNat seen.card

theorem counted_empty : Counted {} 0 ∅ where
  inverse := by simp [Inverse]
  known := by simp
  used := by simp
  next := rfl

theorem Counted.addTicker {seen : Finset String} (h : Counted manager counter seen)
    (text : String) (hbound : (insert (cString text) seen).card ≤ 2 ^ 32) :
    Counted (addTicker (manager, counter) text).1 (addTicker (manager, counter) text).2
      (insert (cString text) seen) := by
  by_cases hseen : cString text ∈ seen
  · rw [addTicker_of_known ((h.known _).mpr hseen), Finset.insert_eq_of_mem hseen]
    exact h
  · have hcard := Finset.card_insert_of_notMem hseen
    have hnone : manager.tickerToInt (cString text) = none := by
      rw [← Option.not_isSome_iff_eq_none, h.known]
      exact hseen
    have hcounter : counter.toNat = seen.card := by
      rw [h.next, UInt32.toNat_ofNat', Nat.mod_eq_of_lt (by omega)]
    have hfree : manager.intToTicker counter = none := by
      rw [← Option.not_isSome_iff_eq_none, h.used, hcounter]
      exact lt_irrefl _
    simp only [TickerManager.addTicker, hnone, Option.isNone_none, if_true]
    constructor
    · intro ticker id
      by_cases hticker : ticker = cString text <;> by_cases hid : id = counter
      · simp [hticker, hid]
      · have hother : manager.intToTicker id ≠ some (cString text) := by
          rw [Ne, ← h.inverse, hnone]
          simp
        simp [hticker, hid, Ne.symm hid, hother]
      · have hother : manager.tickerToInt ticker ≠ some counter := by
          rw [Ne, h.inverse, hfree]
          simp
        simp [hticker, hid, Ne.symm hticker, hother]
      · simp only [Function.update_of_ne hticker, Function.update_of_ne hid]
        exact h.inverse ticker id
    · intro ticker
      by_cases hticker : ticker = cString text
      · simp [hticker]
      · simp [hticker, h.known]
    · intro id
      by_cases hid : id = counter
      · simp [hid, hcounter, hcard]
      · have hne : id.toNat ≠ seen.card := by
          rw [← hcounter]
          exact fun heq => hid (UInt32.toNat_inj.mp heq)
        dsimp only
        rw [Function.update_of_ne hid, h.used, hcard]
        omega
    · rw [hcard, h.next]
      exact UInt32.toNat_inj.mp (by simp)

theorem Counted.foldl {seen : Finset String} (h : Counted manager counter seen)
    (hbound : (seen ∪ (texts.map cString).toFinset).card ≤ 2 ^ 32) :
    (texts.foldl TickerManager.addTicker (manager, counter)).1.Inverse := by
  induction texts generalizing manager counter seen with
  | nil => exact h.inverse
  | cons text rest ih =>
    have hunion : seen ∪ ((text :: rest).map cString).toFinset =
        insert (cString text) seen ∪ (rest.map cString).toFinset := by
      rw [List.map_cons, List.toFinset_cons, Finset.union_insert, Finset.insert_union]
    rw [hunion] at hbound
    have hstep := h.addTicker text (le_trans (Finset.card_le_card Finset.subset_union_left) hbound)
    exact ih hstep hbound

/-- Every ticker of the file is known afterwards. -/
theorem isSome_foldl {text : String} (h : text ∈ texts) :
    ((texts.foldl addTicker (manager, counter)).1.tickerToInt (cString text)).isSome := by
  induction texts generalizing manager counter with
  | nil => simp at h
  | cons first rest ih =>
    rw [List.foldl_cons]
    rcases List.mem_cons.mp h with rfl | hrest
    · have hknown : ∃ id, (addTicker (manager, counter) text).1.tickerToInt (cString text) =
          some id := by
        cases hbefore : manager.tickerToInt (cString text) with
        | none => exact ⟨counter, by simp [addTicker, hbefore]⟩
        | some id => exact ⟨id, tickerToInt_addTicker text hbefore⟩
      obtain ⟨id, hid⟩ := hknown
      rw [tickerToInt_foldl hid]
      rfl
    · exact ih hrest

/-- There are no more ids than words of 32 bits. -/
theorem card_le_of_inverse {seen : Finset String} (h : manager.Inverse)
    (hknown : ∀ ticker ∈ seen, (manager.tickerToInt ticker).isSome) : seen.card ≤ 2 ^ 32 := by
  let number (ticker : String) : ℕ := ((manager.tickerToInt ticker).getD 0).toNat
  have hmaps : ∀ ticker ∈ seen, number ticker ∈ Finset.range (2 ^ 32) := by
    intro ticker _
    exact Finset.mem_range.mpr (UInt32.toNat_lt _)
  have hinjective : Set.InjOn number seen := by
    intro first hfirst second hsecond heq
    obtain ⟨id, hid⟩ := Option.isSome_iff_exists.mp (hknown first hfirst)
    obtain ⟨other, hother⟩ := Option.isSome_iff_exists.mp (hknown second hsecond)
    simp only [number, hid, hother, Option.getD_some, UInt32.toNat_inj] at heq
    rw [h] at hid hother
    rw [heq, hother] at hid
    exact (Option.some.inj hid).symm
  simpa using Finset.card_le_card_of_injOn number hmaps hinjective

/-! ## All calls -/

/-- The file brings no new ticker, or it is the first that brings any and 32 bits are
enough to count them. -/
def Accepts (manager : TickerManager) (call : ParseCall) : Prop :=
  (∀ text ∈ call.order, (manager.tickerToInt (cString text)).isSome) ∨
    (∀ ticker, manager.tickerToInt ticker = none) ∧
      (call.order.map cString).toFinset.card ≤ 2 ^ 32

/-- As soon as there are tickers, one of them has the first id. -/
theorem parseAll_cases (calls : List ParseCall) :
    parseAll calls = {} ∨ ∃ ticker, (parseAll calls).tickerToInt ticker = some 0 := by
  induction calls using List.reverseRecOn with
  | nil => exact .inl rfl
  | append_singleton calls call ih =>
    rw [parseAll_concat]
    rcases ih with hempty | ⟨ticker, hticker⟩
    · cases horder : call.order with
      | nil => exact .inl (by rw [parse, initTickerManager, horder, hempty]; rfl)
      | cons text rest =>
        have hnew : ∃ text ∈ call.order,
            (parseAll calls).tickerToInt (cString text) = none := by
          refine ⟨text, by simp [horder], ?_⟩
          rw [hempty]
        obtain ⟨ticker, -, hticker⟩ := exists_first_of_new hnew
        exact .inr ⟨ticker, hticker⟩
    · exact .inr ⟨ticker, tickerToInt_foldl hticker⟩

theorem inverse_parse_iff (h : manager.Inverse)
    (hcases : manager = {} ∨ ∃ ticker, manager.tickerToInt ticker = some 0) (call : ParseCall) :
    (manager.parse call).Inverse ↔ manager.Accepts call := by
  by_cases hknown : ∀ text ∈ call.order, (manager.tickerToInt (cString text)).isSome
  · have hsame : manager.parse call = manager := by
      rw [parse, initTickerManager, foldl_addTicker_of_known hknown]
    rw [hsame]
    exact iff_of_true h (.inl hknown)
  · have hnew : ∃ text ∈ call.order, manager.tickerToInt (cString text) = none := by
      simpa using hknown
    rcases hcases with rfl | ⟨ticker, hticker⟩
    · constructor
      · intro hinverse
        refine .inr ⟨fun _ => rfl, card_le_of_inverse hinverse fun ticker hmem => ?_⟩
        obtain ⟨text, htext, rfl⟩ := List.mem_map.mp (List.mem_toFinset.mp hmem)
        exact isSome_foldl htext
      · rintro (hall | ⟨-, hbound⟩)
        · exact absurd hall hknown
        · exact counted_empty.foldl (by rwa [Finset.empty_union])
    · -- the first new ticker gets the id zero a second time
      refine iff_of_false (fun hinverse => ?_) ?_
      · obtain ⟨first, hfirst, hzero⟩ := exists_first_of_new hnew
        have hkept : (manager.parse call).tickerToInt ticker = some 0 := tickerToInt_foldl hticker
        have hback := (hinverse first 0).mp hzero
        rw [(hinverse ticker 0).mp hkept] at hback
        rw [← Option.some.inj hback, hticker] at hfirst
        simp at hfirst
      · rintro (hall | ⟨hnone, -⟩)
        · exact hknown hall
        · simp [hnone] at hticker

/-- At every moment the ids lead back to their tickers, and an id that was given once
was never changed. -/
def UniqueIds (calls : List ParseCall) : Prop :=
  ∀ before, before <+: calls → (parseAll before).Inverse ∧
    ∀ earlier, earlier <+: before → ∀ ticker id,
      (parseAll earlier).tickerToInt ticker = some id →
        (parseAll before).tickerToInt ticker = some id

theorem tickerToInt_parseAll_append (earlier later : List ParseCall) {ticker : String}
    {id : UInt32} (h : (parseAll earlier).tickerToInt ticker = some id) :
    (parseAll (earlier ++ later)).tickerToInt ticker = some id := by
  induction later using List.reverseRecOn with
  | nil => rwa [List.append_nil]
  | append_singleton later call ih =>
    rw [← List.append_assoc, parseAll_concat]
    exact tickerToInt_foldl ih

/-- The ids are unique exactly when every file that brings new tickers comes to an empty
manager. -/
theorem uniqueIds_iff (calls : List ParseCall) :
    UniqueIds calls ↔ EveryStep (fun before call => (parseAll before).Accepts call) calls := by
  have hstable : ∀ before earlier : List ParseCall, earlier <+: before → ∀ ticker id,
      (parseAll earlier).tickerToInt ticker = some id →
        (parseAll before).tickerToInt ticker = some id := by
    rintro before earlier ⟨later, rfl⟩ ticker id h
    exact tickerToInt_parseAll_append earlier later h
  apply EveryStep.forall_prefix_iff
  · exact ⟨counted_empty.inverse, hstable []⟩
  · rintro before call ⟨hbefore, -⟩
    rw [← inverse_parse_iff hbefore (parseAll_cases before), ← parseAll_concat]
    exact and_iff_left (hstable (before ++ [call]))

/-- A file with one pair of one exchange. -/
def onePair (base quote : String) : Toml :=
  .table [("exchange", .table [("binance", .table [])]),
    ("trading_pairs", .table [("binance", .table [(base, .table [(quote, .value)])])])]

theorem tickers_onePair (base quote : String) :
    Toml.tickers (some (onePair base quote)) = [base, quote] := by
  have hpairs : ((onePair base quote).find "trading_pairs").bind (Toml.find "binance") =
      some (.table [(base, .table [(quote, .value)])]) := rfl
  have hexchanges : (onePair base quote).parseExchanges = ["binance"] := rfl
  simp only [Toml.tickers, Toml.parseTickers, hexchanges, List.flatMap_singleton, hpairs]
  simp [Toml.find, Toml.keys]

def onePairCall (base quote : String) (h : base ≠ quote) : ParseCall where
  config := some (onePair base quote)
  order := [base, quote]
  nodup := by simp [h]
  mem_order ticker := by rw [tickers_onePair]

/-- A file with bitcoin and then one with ether. -/
def twoFiles : List ParseCall :=
  [onePairCall "BTC" "USDT" (by decide), onePairCall "ETH" "USDT" (by decide)]

theorem not_uniqueIds_twoFiles : ¬ UniqueIds twoFiles := by
  intro h
  obtain ⟨hinverse, -⟩ := h twoFiles List.prefix_rfl
  have hbitcoin : (parseAll twoFiles).tickerToInt "BTC" = some 0 := by decide
  have hether : (parseAll twoFiles).tickerToInt "ETH" = some 0 := by decide
  rw [hinverse] at hbitcoin hether
  rw [hbitcoin] at hether
  exact absurd (Option.some.inj hether) (by decide)

end TickerManager

end CryptoBot.Common

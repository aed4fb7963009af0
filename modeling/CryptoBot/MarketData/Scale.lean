/-
# One scale for market data and orders

A price reaches the program through several readers: the depth parsers of the
exchanges, the history of the backtesting and the replies to orders.  Each has its own
copy of the scaling, and they differ in the width of the integers in between.  The
order replies convert to a word at once; the others pass through an `int`, and the
history keeps its power of ten in 32 bits as well.

`SameScale` says of a price and a quantity that all readers store the same words.  It
holds for the words that an `int` can carry, and for the precisions whose power of ten
is not cut, or cut without a consequence.
-/

import CryptoBot.MarketData.BinanceDepth
import CryptoBot.MarketData.BybitMessages
import CryptoBot.Strategy.Backtesting

namespace CryptoBot.MarketData

open CryptoBot.Common CryptoBot.Math CryptoBot.Requests
open CryptoBot.Strategy.Backtesting (KlineTexts OHLCVI.readLine OHLCVI.scale)

/-- Every reader stores `level` for the price and the quantity of `level`. -/
structure SameScale (info : TradingPairInfo) (level : BookSnapshotElem) : Prop where
  snapshot : ∀ reader pairs stale doc tradingPair bids asks, pairs tradingPair = some info →
    Binance.FamilyBookSnapshot.WellFormed reader doc bids asks →
    ∃ book, Binance.FamilyBookSnapshot.parse reader pairs stale doc tradingPair = .ok book ∧
      ∀ k : ℕ,
        (bids[k]? = some (info.getPriceDouble level.price, info.getQtyDouble level.qty) →
          book.bids[k]? = some level) ∧
        (asks[k]? = some (info.getPriceDouble level.price, info.getQtyDouble level.qty) →
          book.asks[k]? = some level)
  diff : ∀ reader pairs pairsReverse stale doc bids asks,
    ¬ Binance.FamilyBookEventGetter.Unregistered reader pairsReverse doc →
    Binance.FamilyBookEventGetter.WellFormed reader doc bids asks →
    ∃ book, Binance.FamilyBookEventGetter.parse reader pairs pairsReverse stale doc = .ok book ∧
      (pairs.at book.tradingPair = info → ∀ k : ℕ,
        (bids[k]? = some (info.getPriceDouble level.price, info.getQtyDouble level.qty) →
          book.bids[k]? = some level) ∧
        (asks[k]? = some (info.getPriceDouble level.price, info.getQtyDouble level.qty) →
          book.asks[k]? = some level))
  bybit : ∀ (reader : NumberReader) price qty,
    reader.getDoubleInString price = some (info.getPriceDouble level.price) →
    reader.getDoubleInString qty = some (info.getQtyDouble level.qty) →
    Bybit.readLevel reader info [.string price, .string qty] = [level]
  kline : ∀ stod tradingPair (texts : KlineTexts),
    (stod texts.opening = info.getPriceDouble level.price →
      (OHLCVI.readLine stod info tradingPair texts).ohlcv.opening = level.price) ∧
    (stod texts.high = info.getPriceDouble level.price →
      (OHLCVI.readLine stod info tradingPair texts).ohlcv.high = level.price) ∧
    (stod texts.low = info.getPriceDouble level.price →
      (OHLCVI.readLine stod info tradingPair texts).ohlcv.low = level.price) ∧
    (stod texts.close = info.getPriceDouble level.price →
      (OHLCVI.readLine stod info tradingPair texts).ohlcv.close = level.price) ∧
    (stod texts.volume = info.getQtyDouble level.qty →
      (OHLCVI.readLine stod info tradingPair texts).ohlcv.volume = level.qty)
  order : ∀ text (pairs : TradingPairHashMap) pairsReverse (texts : LimitOrderTexts),
    pairs.at ((texts.symbol.bind pairsReverse).getD {}) = info →
    (texts.price.bind text.getDoubleInString = some (info.getPriceDouble level.price) →
      (texts.read text pairs pairsReverse).price = some level.price) ∧
    (texts.executedQty.bind text.getDoubleInString = some (info.getQtyDouble level.qty) →
      (texts.read text pairs pairsReverse).executedQty = some level.qty)

/-- An `int` can carry the word, and what the power of ten loses in 32 bits, times the
number, is close below a multiple of `2 ^ 32`; up to nine decimals it loses nothing. -/
structure Storable (word : UInt64) (precision : UInt8) : Prop where
  fits : FitsInt word
  close : ⌈word.toNat * (10 : ℚ) ^ (-(precision.toNat : ℤ)) *
        (10 ^ precision.toNat / 2 ^ 32 : ℕ)⌉ -
      word.toNat * (10 : ℚ) ^ (-(precision.toNat : ℤ)) * (10 ^ precision.toNat / 2 ^ 32 : ℕ) <
    1 / 2 ^ 32

theorem scale_eq_iff (word : UInt64) (precision : UInt8) :
    OHLCVI.scale precision (word.toNat * (10 : ℚ) ^ (-(precision.toNat : ℤ))) = word ↔
      Storable word precision := by
  rw [OHLCVI.scale, ofInt_doubleToInt_unsignedScale (scaled_back _ _)]
  exact ⟨fun h => ⟨h.1, h.2⟩, fun h => ⟨h.fits, h.close⟩⟩

variable {info : TradingPairInfo} {level : BookSnapshotElem}

theorem ofDoubles_eq (hprice : FitsInt level.price) (hqty : FitsInt level.qty) :
    BookSnapshotElem.ofDoubles info (info.getPriceDouble level.price)
      (info.getQtyDouble level.qty) = level := by
  rw [BookSnapshotElem.ofDoubles, TradingPairInfo.getPriceDouble, TradingPairInfo.getQtyDouble,
    scaled_back, scaled_back, (ofInt_doubleToInt_natCast _).mpr hprice,
    (ofInt_doubleToInt_natCast _).mpr hqty]

theorem getElem?_map_entry {levels : List (ℚ × ℚ)} {k : ℕ} (hprice : FitsInt level.price)
    (hqty : FitsInt level.qty)
    (h : levels[k]? = some (info.getPriceDouble level.price, info.getQtyDouble level.qty)) :
    (levels.map (Binance.entry info))[k]? = some level := by
  rw [List.getElem?_map, h, Option.map_some, Binance.entry, ofDoubles_eq hprice hqty]

/-- The readers of market data agree with the replies to orders exactly on the words
that survive the conversion to an `int`. -/
theorem sameScale_iff (info : TradingPairInfo) (level : BookSnapshotElem) :
    SameScale info level ↔
      Storable level.price info.pricePrecission ∧ Storable level.qty info.qtyPrecission := by
  constructor
  · intro h
    obtain ⟨hprice, -⟩ := h.kline (fun _ => info.getPriceDouble level.price) {} ⟨"", "", "", "", ""⟩
    obtain ⟨-, -, -, -, hqty⟩ :=
      h.kline (fun _ => info.getQtyDouble level.qty) {} ⟨"", "", "", "", ""⟩
    exact ⟨(scale_eq_iff _ _).mp (hprice rfl), (scale_eq_iff _ _).mp (hqty rfl)⟩
  · rintro ⟨hprice, hqty⟩
    constructor
    case snapshot =>
      intro reader pairs stale doc tradingPair bids asks hpair hwell
      obtain ⟨lastUpdateId, hparse⟩ :=
        Binance.FamilyBookSnapshot.parse_of_wellFormed stale hpair hwell
      exact ⟨_, hparse, fun k => ⟨getElem?_map_entry hprice.fits hqty.fits,
        getElem?_map_entry hprice.fits hqty.fits⟩⟩
    case diff =>
      intro reader pairs pairsReverse stale doc bids asks hregistered hwell
      obtain ⟨book, hparse, hbids, hasks⟩ :=
        Binance.FamilyBookEventGetter.parse_of_wellFormed pairs stale hregistered hwell
      refine ⟨book, hparse, fun hinfo k => ?_⟩
      rw [hbids, hasks, hinfo]
      exact ⟨getElem?_map_entry hprice.fits hqty.fits, getElem?_map_entry hprice.fits hqty.fits⟩
    case bybit =>
      intro reader price qty hreadPrice hreadQty
      simp [Bybit.readLevel, Bybit.readPair, Json.getDoubleInString, Json.getString, hreadPrice,
        hreadQty, Bybit.entry, ofDoubles_eq hprice.fits hqty.fits]
    case kline =>
      intro stod tradingPair texts
      have hscalePrice := (scale_eq_iff _ _).mpr hprice
      have hscaleQty := (scale_eq_iff _ _).mpr hqty
      refine ⟨fun h => ?_, fun h => ?_, fun h => ?_, fun h => ?_, fun h => ?_⟩
      all_goals
        rw [OHLCVI.readLine, h]
        assumption
    case order =>
      intro text pairs pairsReverse texts hinfo
      constructor
      · intro hread
        simp only [LimitOrderTexts.read, hinfo, hread, Option.map_some,
          TradingPairInfo.getPriceDouble, castWord_scaled]
      · intro hread
        simp only [LimitOrderTexts.read, hinfo, hread, Option.map_some,
          TradingPairInfo.getQtyDouble, castWord_scaled]

/-- A price of 30000000.00 with two decimals does not fit. -/
theorem not_sameScale_thirtyMillion :
    ¬ SameScale ⟨2, 5, "BTCUSDT", "BTCUSDT"⟩ ⟨3000000000, 100000⟩ := by
  intro h
  obtain ⟨hprice, -⟩ := h.kline
    (fun _ => TradingPairInfo.getPriceDouble ⟨2, 5, "BTCUSDT", "BTCUSDT"⟩ 3000000000) {}
    ⟨"", "", "", "", ""⟩
  have hfits := ((scale_eq_iff _ _).mp (hprice rfl)).fits
  revert hfits
  simp [FitsInt]

end CryptoBot.MarketData

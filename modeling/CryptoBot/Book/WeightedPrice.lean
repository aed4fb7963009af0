/-
# The weighted price

`GetWeightedPrice` of a BBO is the mean of the two quotes, each weighted with its
quantity and rounded to an integer.  Products and sums are taken modulo `2 ^ 64`, and
the marks of an empty side are words like any other, so they take part: in the
arithmetic of words the invalid price and quantity are `-1`.

The rounded quotient is used through its two bounds only.  `Weighable` says for which
BBO the result is a price between the quotes, or invalid as it should be.
-/

import Mathlib.Algebra.Order.Round
import Mathlib.Tactic.Ring
import CryptoBot.Book.TopOfBook
import CryptoBot.Common.Conversions

namespace CryptoBot.Book

open CryptoBot.Common CryptoBot.MarketData CryptoBot.Math

namespace BBO

variable (bbo : BBO)

/-- `bid_price * bid_qty + ask_price * ask_qty`. -/
def weightedSum : UInt64 := bbo.bidPrice * bbo.bidQty + bbo.askPrice * bbo.askQty

/-- `bid_qty + ask_qty`. -/
def totalQty : Qty := bbo.bidQty + bbo.askQty

def getWeightedPrice : Price :=
  if bbo.totalQty = 0 then kPriceInvalid
  else .ofInt (round ((bbo.weightedSum.toNat : ℚ) / bbo.totalQty.toNat))

def invalidQuote : Price × Qty := (kPriceInvalid, kQtyInvalid)

/-- The result is a price between the quotes, or none; without a side it is none. -/
structure PriceBetweenQuotes : Prop where
  between : bbo.bid ≠ invalidQuote → bbo.ask ≠ invalidQuote →
    bbo.getWeightedPrice = kPriceInvalid ∨
      min bbo.bidPrice bbo.askPrice ≤ bbo.getWeightedPrice ∧
        bbo.getWeightedPrice ≤ max bbo.bidPrice bbo.askPrice
  invalid : bbo.bid = invalidQuote ∨ bbo.ask = invalidQuote →
    bbo.getWeightedPrice = kPriceInvalid

/-- Neither the sum of the quantities nor the weighted sum leaves the words. -/
structure Unwrapped : Prop where
  total : bbo.bidQty.toNat + bbo.askQty.toNat < 2 ^ 64
  sum : bbo.bidPrice.toNat * bbo.bidQty.toNat + bbo.askPrice.toNat * bbo.askQty.toNat < 2 ^ 64

/-- The sums, as words, still stand in the ratio of a price between the quotes. -/
structure RatioBetween : Prop where
  lower : 2 * (min bbo.bidPrice bbo.askPrice).toNat * bbo.totalQty.toNat ≤
    2 * bbo.weightedSum.toNat + bbo.totalQty.toNat
  upper : 2 * bbo.weightedSum.toNat <
    2 * (max bbo.bidPrice bbo.askPrice).toNat * bbo.totalQty.toNat + bbo.totalQty.toNat

/-- The only quotes that give an invalid price beside an empty side. -/
def Lonely (quote : Price × Qty) : Prop :=
  quote.2 = 1 ∨ quote.2 = 2 ∧ quote.1.toNat % 2 ^ 63 = 2 ^ 63 - 1

/-- When the weighted price is one: both sides are there and the sums stay within the
words, or wrap to nothing or to a fitting ratio; or one side is there and is of a kind
that makes the price invalid. -/
def Weighable : Prop :=
  bbo.bid ≠ invalidQuote ∧ bbo.ask ≠ invalidQuote ∧
      (bbo.Unwrapped ∨ bbo.totalQty = 0 ∨ bbo.RatioBetween ∨
        bbo.totalQty = 1 ∧ bbo.weightedSum = kPriceInvalid) ∨
    bbo.bid ≠ invalidQuote ∧ bbo.ask = invalidQuote ∧ Lonely bbo.bid ∨
    bbo.bid = invalidQuote ∧ bbo.ask ≠ invalidQuote ∧ Lonely bbo.ask

/-! ## The rounded quotient -/

variable {bbo}

theorem toNat_totalQty_pos (h : bbo.totalQty ≠ 0) : 0 < bbo.totalQty.toNat := by
  rw [Nat.pos_iff_ne_zero, Ne, ← UInt64.toNat_zero, UInt64.toNat_inj]
  exact h

theorem toNat_getWeightedPrice (h : bbo.totalQty ≠ 0) :
    (bbo.getWeightedPrice.toNat : ℤ) =
      round ((bbo.weightedSum.toNat : ℚ) / bbo.totalQty.toNat) := by
  have hpos := toNat_totalQty_pos h
  have hsum := bbo.weightedSum.toNat_lt
  have hnonneg : 0 ≤ round ((bbo.weightedSum.toNat : ℚ) / bbo.totalQty.toNat) := by
    rw [round_eq, Int.le_floor]
    positivity
  have hle : round ((bbo.weightedSum.toNat : ℚ) / bbo.totalQty.toNat) ≤ bbo.weightedSum.toNat := by
    have hquotient : (bbo.weightedSum.toNat : ℚ) / bbo.totalQty.toNat ≤ bbo.weightedSum.toNat :=
      div_le_self (by positivity) (by exact_mod_cast hpos)
    rw [round_eq, ← Int.lt_add_one_iff, Int.floor_lt]
    push_cast
    linarith
  rw [getWeightedPrice, if_neg h]
  exact (ofInt_eq_iff.mp rfl).symm.trans (Int.emod_eq_of_lt hnonneg (by omega))

/-- Rounding is decided by cross multiplication. -/
theorem le_round_iff {sum total bound : ℕ} (h : 0 < total) :
    (bound : ℤ) ≤ round ((sum : ℚ) / total) ↔ 2 * bound * total ≤ 2 * sum + total := by
  have htotal : (0 : ℚ) < total := by exact_mod_cast h
  rw [round_eq, Int.le_floor, ← Nat.cast_le (α := ℚ)]
  push_cast
  constructor
  · intro hle
    have hscaled := mul_le_mul_of_nonneg_right hle htotal.le
    rw [add_mul, div_mul_cancel₀ _ htotal.ne'] at hscaled
    linarith
  · intro hle
    have hdiv : (bound : ℚ) - 1 / 2 ≤ sum / total := by
      rw [le_div_iff₀ htotal]
      linarith
    linarith

theorem le_toNat_getWeightedPrice_iff (h : bbo.totalQty ≠ 0) (bound : ℕ) :
    bound ≤ bbo.getWeightedPrice.toNat ↔
      2 * bound * bbo.totalQty.toNat ≤ 2 * bbo.weightedSum.toNat + bbo.totalQty.toNat := by
  rw [← le_round_iff (toNat_totalQty_pos h), ← toNat_getWeightedPrice h, Nat.cast_le]

theorem getWeightedPrice_eq_invalid_iff : bbo.getWeightedPrice = kPriceInvalid ↔
    bbo.totalQty = 0 ∨ bbo.totalQty = 1 ∧ bbo.weightedSum = kPriceInvalid := by
  by_cases htotal : bbo.totalQty = 0
  · exact iff_of_true (if_pos htotal) (.inl htotal)
  · have hpos := toNat_totalQty_pos htotal
    have hsum := bbo.weightedSum.toNat_lt
    have hprice := bbo.getWeightedPrice.toNat_lt
    have hle := le_toNat_getWeightedPrice_iff htotal (2 ^ 64 - 1)
    have hinvalid : kPriceInvalid.toNat = 2 ^ 64 - 1 := rfl
    simp only [htotal, false_or, ← UInt64.toNat_inj, hinvalid, UInt64.toNat_one]
    omega

theorem between_iff (h : bbo.totalQty ≠ 0) :
    min bbo.bidPrice bbo.askPrice ≤ bbo.getWeightedPrice ∧
        bbo.getWeightedPrice ≤ max bbo.bidPrice bbo.askPrice ↔ bbo.RatioBetween := by
  have hlower := le_toNat_getWeightedPrice_iff h (min bbo.bidPrice bbo.askPrice).toNat
  have hupper := le_toNat_getWeightedPrice_iff h ((max bbo.bidPrice bbo.askPrice).toNat + 1)
  rw [mul_add, mul_one, add_mul] at hupper
  rw [UInt64.le_iff_toNat_le, UInt64.le_iff_toNat_le, hlower]
  constructor
  · rintro ⟨hmin, hmax⟩
    exact ⟨hmin, by omega⟩
  · rintro ⟨hmin, hmax⟩
    exact ⟨hmin, by omega⟩

/-- A mean of the quotes lies between them. -/
theorem ratioBetween_of_unwrapped (h : bbo.Unwrapped) (htotal : bbo.totalQty ≠ 0) :
    bbo.RatioBetween := by
  have hpos := toNat_totalQty_pos htotal
  have hqty : bbo.totalQty.toNat = bbo.bidQty.toNat + bbo.askQty.toNat := by
    rw [totalQty, UInt64.toNat_add, Nat.mod_eq_of_lt h.total]
  have hsum : bbo.weightedSum.toNat =
      bbo.bidPrice.toNat * bbo.bidQty.toNat + bbo.askPrice.toNat * bbo.askQty.toNat := by
    have hunwrapped := h.sum
    rw [weightedSum, UInt64.toNat_add, UInt64.toNat_mul, UInt64.toNat_mul, ← Nat.add_mod,
      Nat.mod_eq_of_lt hunwrapped]
  constructor
  · have hbid := Nat.mul_le_mul_right bbo.bidQty.toNat
      (min_le_left bbo.bidPrice.toNat bbo.askPrice.toNat)
    have hask := Nat.mul_le_mul_right bbo.askQty.toNat
      (min_le_right bbo.bidPrice.toNat bbo.askPrice.toNat)
    have hsplit := mul_add (min bbo.bidPrice.toNat bbo.askPrice.toNat) bbo.bidQty.toNat
      bbo.askQty.toNat
    rw [UInt64.toNat_min, mul_assoc, hsum, hqty, hsplit]
    omega
  · have hbid := Nat.mul_le_mul_right bbo.bidQty.toNat
      (le_max_left bbo.bidPrice.toNat bbo.askPrice.toNat)
    have hask := Nat.mul_le_mul_right bbo.askQty.toNat
      (le_max_right bbo.bidPrice.toNat bbo.askPrice.toNat)
    have hsplit := mul_add (max bbo.bidPrice.toNat bbo.askPrice.toNat) bbo.bidQty.toNat
      bbo.askQty.toNat
    rw [hqty] at hpos ⊢
    rw [UInt64.toNat_max, mul_assoc, hsum, hsplit]
    omega

/-! ## One side -/

/-- In the arithmetic of words an empty side counts as `-1`. -/
theorem lonely_iff {price : Price} {qty : Qty} :
    qty + kQtyInvalid = 0 ∨ qty + kQtyInvalid = 1 ∧ price * qty + 1 = kPriceInvalid ↔
      Lonely (price, qty) := by
  have hzero : qty + kQtyInvalid = 0 ↔ qty = 1 := by
    simp only [← UInt64.toNat_inj, UInt64.toNat_add, kQtyInvalid]
    have hqty := qty.toNat_lt
    simp
    omega
  have hone : qty + kQtyInvalid = 1 ↔ qty = 2 := by
    simp only [← UInt64.toNat_inj, UInt64.toNat_add, kQtyInvalid]
    have hqty := qty.toNat_lt
    simp
    omega
  have hprice : price * 2 + 1 = kPriceInvalid ↔ price.toNat % 2 ^ 63 = 2 ^ 63 - 1 := by
    simp only [← UInt64.toNat_inj, UInt64.toNat_add, UInt64.toNat_mul, kPriceInvalid]
    have hlt := price.toNat_lt
    simp
    omega
  rw [hzero, hone, Lonely]
  refine or_congr_right (and_congr_right fun hqty => ?_)
  rw [hqty, hprice]

theorem getWeightedPrice_of_ask_invalid (h : bbo.ask = invalidQuote) :
    bbo.getWeightedPrice = kPriceInvalid ↔ Lonely bbo.bid := by
  obtain ⟨hprice, hqty⟩ := Prod.mk.inj h
  have hproduct : kPriceInvalid * kQtyInvalid = 1 := by decide
  rw [getWeightedPrice_eq_invalid_iff, totalQty, weightedSum, hprice, hqty, hproduct, lonely_iff]
  rfl

theorem getWeightedPrice_of_bid_invalid (h : bbo.bid = invalidQuote) :
    bbo.getWeightedPrice = kPriceInvalid ↔ Lonely bbo.ask := by
  obtain ⟨hprice, hqty⟩ := Prod.mk.inj h
  have hproduct : kPriceInvalid * kQtyInvalid = 1 := by decide
  rw [getWeightedPrice_eq_invalid_iff, totalQty, weightedSum, hprice, hqty, hproduct, add_comm,
    add_comm 1, lonely_iff]
  rfl

theorem not_lonely_invalidQuote : ¬ Lonely invalidQuote := by
  simp [Lonely, invalidQuote, kQtyInvalid]

theorem priceBetweenQuotes_iff_weighable : bbo.PriceBetweenQuotes ↔ bbo.Weighable := by
  by_cases hbid : bbo.bid = invalidQuote
  · by_cases hask : bbo.ask = invalidQuote
    · refine iff_of_false (fun h => ?_) (by simp [Weighable, hbid, hask])
      have hlonely := (getWeightedPrice_of_ask_invalid hask).mp (h.invalid (.inr hask))
      rw [hbid] at hlonely
      exact not_lonely_invalidQuote hlonely
    · simp only [Weighable, hbid, hask, ne_eq, not_true_eq_false, not_false_eq_true, false_and,
        true_and, false_or, ← getWeightedPrice_of_bid_invalid hbid]
      exact ⟨fun h => h.invalid (.inl hbid),
        fun h => ⟨fun hvalid => absurd hbid hvalid, fun _ => h⟩⟩
  · by_cases hask : bbo.ask = invalidQuote
    · simp only [Weighable, hbid, hask, ne_eq, not_true_eq_false, not_false_eq_true, false_and,
        and_false, true_and, false_or, or_false, ← getWeightedPrice_of_ask_invalid hask]
      exact ⟨fun h => h.invalid (.inr hask),
        fun h => ⟨fun _ hvalid => absurd hask hvalid, fun _ => h⟩⟩
    · simp only [Weighable, hbid, hask, ne_eq, not_false_eq_true, false_and, and_false, true_and,
        or_false]
      constructor
      · intro h
        rcases h.between hbid hask with hinvalid | hbetween
        · rcases getWeightedPrice_eq_invalid_iff.mp hinvalid with hzero | hone
          · exact .inr (.inl hzero)
          · exact .inr (.inr (.inr hone))
        · by_cases htotal : bbo.totalQty = 0
          · exact .inr (.inl htotal)
          · exact .inr (.inr (.inl ((between_iff htotal).mp hbetween)))
      · intro h
        refine ⟨fun _ _ => ?_, fun hnone => (hnone.elim hbid hask).elim⟩
        by_cases htotal : bbo.totalQty = 0
        · exact .inl (getWeightedPrice_eq_invalid_iff.mpr (.inl htotal))
        · rcases h with hunwrapped | hzero | hratio | hone
          · exact .inr ((between_iff htotal).mpr (ratioBetween_of_unwrapped hunwrapped htotal))
          · exact absurd hzero htotal
          · exact .inr ((between_iff htotal).mpr hratio)
          · exact .inl (getWeightedPrice_eq_invalid_iff.mpr (.inr hone))

/-- Two quotes whose sums stay within the words have a price between them. -/
theorem priceBetweenQuotes_of_unwrapped (hbid : bbo.bid ≠ invalidQuote)
    (hask : bbo.ask ≠ invalidQuote) (h : bbo.Unwrapped) : bbo.PriceBetweenQuotes :=
  priceBetweenQuotes_iff_weighable.mpr (.inl ⟨hbid, hask, .inl h⟩)

end BBO

/-- For every BBO that a book reaches, the weighted price is what it should be exactly
when the BBO is weighable. -/
theorem weightedPrice_iff (containers : Containers) (messages : List BookMessage) :
    ((MarketOrderBook2.machine containers).run messages).bbo.PriceBetweenQuotes ↔
      ((MarketOrderBook2.machine containers).run messages).bbo.Weighable :=
  BBO.priceBetweenQuotes_iff_weighable

/-- The weighted price of an empty book is zero. -/
theorem not_priceBetweenQuotes_empty :
    ¬ ((MarketOrderBook2.machine Containers.lists).run []).bbo.PriceBetweenQuotes := by
  intro h
  have hbook : ((MarketOrderBook2.machine Containers.lists).run []).bbo = {} := rfl
  rw [hbook] at h
  have hlonely := (BBO.getWeightedPrice_of_ask_invalid rfl).mp (h.invalid (.inr rfl))
  exact BBO.not_lonely_invalidQuote hlonely

end CryptoBot.Book

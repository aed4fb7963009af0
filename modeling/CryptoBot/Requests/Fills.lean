/-
# Fills on the wire

The reply to an order that was filled says how much of it was executed and how much
money that took.  The parser puts the money into the price of the response, and the
position keeper multiplies the price by the quantity again.  So a fill is booked at
what was exchanged only if one unit was executed, or if nothing was paid.
-/

import CryptoBot.Positions.PositionKeeper
import CryptoBot.Requests.LimitOrder

namespace CryptoBot.Positions.PositionInfo

open CryptoBot.Common CryptoBot.Orders

variable {info : PositionInfo} {response : MEClientResponse}

/-- A fill that leaves a position keeps the accumulators of `settle`. -/
theorem vwap_addFill (hopen : (info.addFill response).position ≠ 0) (side : Side) :
    (info.addFill response).vwap side = (info.settle response).vwap side := by
  rw [position_addFill, ← position_settle] at hopen
  simp only [addFill, if_neg hopen]
  rfl

/-- A fill on the side of the position adds its cost. -/
theorem vwap_addFill_increase (hside : 0 ≤ info.position * sideToValue response.side)
    (hopen : (info.addFill response).position ≠ 0)
    (hcost : response.price.toNat * response.execQty.toNat < 0x10000000000000000) :
    (info.addFill response).vwap response.side =
      info.vwap response.side + response.price.toNat * response.execQty.toNat := by
  rw [vwap_addFill hopen, settle, if_pos hside, increase, vwap_setVwap_self, toNat_mul_of_lt hcost,
    Nat.cast_mul]
  simp only [vwap]

end CryptoBot.Positions.PositionInfo

namespace CryptoBot.Requests

open CryptoBot.Common CryptoBot.Math CryptoBot.Orders CryptoBot.Positions

/-- A number with no more decimals than the precision, which fits into a word when
it is scaled. -/
def AtPrecision (value : ℚ) (precision : UInt8) : Prop :=
  ∃ word : UInt64, value = word.toNat * (10 : ℚ) ^ (-(precision.toNat : ℤ))

theorem AtPrecision.toNat_castWord {value : ℚ} {precision : UInt8}
    (h : AtPrecision value precision) :
    ((castWord (value * (10 : ℚ) ^ precision.toNat)).toNat : ℚ) =
      value * (10 : ℚ) ^ precision.toNat := by
  obtain ⟨word, rfl⟩ := h
  rw [castWord_scaled, scaled_back]

namespace LimitOrderTexts

/-- The reply to an order of a registered pair that was filled, in full or in part:
`executed` units for `quote`. -/
structure Fills (text : NumberText) (pairs : TradingPairHashMap)
    (pairsReverse : String → Option TradingPair) (texts : LimitOrderTexts)
    (info : TradingPairInfo) (executed quote : ℚ) : Prop where
  symbol : ∃ tradingPair, texts.symbol.bind pairsReverse = some tradingPair ∧
    pairs tradingPair = some info
  clientOrderId : (texts.clientOrderId.bind text.getUint64InString).isSome
  status : texts.status = some "FILLED" ∨ texts.status = some "PARTIALLY_FILLED"
  executedQty : texts.executedQty.bind text.getDoubleInString = some executed
  cummulativeQuoteQty : texts.cummulativeQuoteQty.bind text.getDoubleInString = some quote
  executed_pos : 0 < executed
  executed_exact : AtPrecision executed info.qtyPrecission
  quote_exact : AtPrecision quote info.pricePrecission

end LimitOrderTexts

/-- The price of a fill response is that of one unit: with the executed quantity it
gives the money that was exchanged, in the units of the product, and a position on
the side of the fill grows by that much. -/
structure CarriesPrice (response : MEClientResponse) (info : TradingPairInfo) (quote : ℚ) :
    Prop where
  exchanged : (response.price.toNat * response.execQty.toNat : ℚ) =
    quote * (10 : ℚ) ^ (info.pricePrecission.toNat + info.qtyPrecission.toNat)
  booked : ∀ position : PositionInfo, 0 ≤ position.position * sideToValue response.side →
    (position.addFill response).position ≠ 0 →
    response.price.toNat * response.execQty.toNat < 0x10000000000000000 →
    (position.addFill response).vwap response.side = position.vwap response.side +
      quote * (10 : ℚ) ^ (info.pricePrecission.toNat + info.qtyPrecission.toNat)

theorem carriesPrice_iff_exchanged {response : MEClientResponse} {info : TradingPairInfo}
    {quote : ℚ} :
    CarriesPrice response info quote ↔
      (response.price.toNat * response.execQty.toNat : ℚ) =
        quote * (10 : ℚ) ^ (info.pricePrecission.toNat + info.qtyPrecission.toNat) := by
  refine ⟨CarriesPrice.exchanged, fun hexchanged => ⟨hexchanged, ?_⟩⟩
  intro position hside hopen hcost
  rw [PositionInfo.vwap_addFill_increase hside hopen hcost, hexchanged]

section Fills

variable {text : NumberText} {pairs : TradingPairHashMap}
  {pairsReverse : String → Option TradingPair} {texts : LimitOrderTexts}
  {info : TradingPairInfo} {executed quote : ℚ}

/-- The fields after the status of a fill. -/
theorem finish_of_some {reply : LimitOrderReply} (output : MEClientResponse)
    (type : ClientResponseType) (price : Price) {execQty : Qty}
    (hexecuted : reply.executedQty = some execQty) :
    (FamilyLimitOrder.finish reply output type (some price)).price = price ∧
      (FamilyLimitOrder.finish reply output type (some price)).execQty = execQty := by
  simp only [FamilyLimitOrder.finish, hexecuted]
  -- neither the side nor what is left of the order touches the two fields
  cases reply.leavesQty with
  | none =>
      refine ⟨?_, rfl⟩
      dsimp only
      split <;> rfl
  | some leavesQty =>
      refine ⟨?_, rfl⟩
      dsimp only
      split <;> rfl

/-- The price of the response is the money, scaled. -/
theorem parse_of_fills (hfills : texts.Fills text pairs pairsReverse info executed quote) :
    ((texts.parse text pairs pairsReverse).price.toNat : ℚ) =
        quote * (10 : ℚ) ^ info.pricePrecission.toNat ∧
      ((texts.parse text pairs pairsReverse).execQty.toNat : ℚ) =
        executed * (10 : ℚ) ^ info.qtyPrecission.toNat := by
  obtain ⟨tradingPair, hsymbol, hpair⟩ := hfills.symbol
  obtain ⟨orderId, horderId⟩ := Option.isSome_iff_exists.mp hfills.clientOrderId
  have hinfo := TradingPairHashMap.at_of_some hpair
  set reply := texts.read text pairs pairsReverse with hreply
  have hexecuted : reply.executedQty =
      some (castWord (executed * (10 : ℚ) ^ info.qtyPrecission.toNat)) := by
    simp only [hreply, LimitOrderTexts.read, hsymbol, Option.getD_some, hinfo, hfills.executedQty,
      Option.map_some]
  have hquote : reply.cummulativeQuoteQty =
      some (castWord (quote * (10 : ℚ) ^ info.pricePrecission.toNat)) := by
    simp only [hreply, LimitOrderTexts.read, hsymbol, Option.getD_some, hinfo,
      hfills.cummulativeQuoteQty, Option.map_some]
  have hparse : texts.parse text pairs pairsReverse =
      FamilyLimitOrder.finish reply { tradingPair, orderId } .filled
        (some (castWord (quote * (10 : ℚ) ^ info.pricePrecission.toNat))) := by
    have hsymbolRead : reply.symbol.bind pairsReverse = some tradingPair := hsymbol
    have horderIdRead : reply.clientOrderId = some orderId := horderId
    have hstatus : reply.status = texts.status := rfl
    rw [LimitOrderTexts.parse, ← hreply]
    rcases hfills.status with hfilled | hpartially
    · simp only [FamilyLimitOrder.parse, hsymbolRead, horderIdRead, hstatus, hfilled, hquote]
    · simp only [FamilyLimitOrder.parse, hsymbolRead, horderIdRead, hstatus, hpartially, hquote]
  obtain ⟨hprice, hexecQty⟩ := finish_of_some { tradingPair, orderId } .filled
    (castWord (quote * (10 : ℚ) ^ info.pricePrecission.toNat)) hexecuted
  rw [hparse, hprice, hexecQty]
  exact ⟨hfills.quote_exact.toNat_castWord, hfills.executed_exact.toNat_castWord⟩

end Fills

/-- The precisions of the pair in the replies below. -/
def bitcoinInfo : TradingPairInfo := ⟨2, 5, "BTCUSDT", "BTCUSDT"⟩

/-- An order that was sold in full. -/
def soldTexts (executedQty cummulativeQuoteQty : String) : LimitOrderTexts where
  symbol := some "BTCUSDT"
  clientOrderId := some "56789"
  status := some "FILLED"
  cummulativeQuoteQty := some cummulativeQuoteQty
  side := some "SELL"
  executedQty := some executedQty
  origQty := some executedQty

theorem eq_scaled {number value precision : ℕ} (h : number = value * 10 ^ precision) :
    (value : ℚ) = number * (10 : ℚ) ^ (-(precision : ℤ)) := by
  rw [h, Nat.cast_mul, Nat.cast_pow, zpow_neg, zpow_natCast]
  exact (mul_inv_cancel_right₀ (by positivity) _).symm

theorem fills_soldTexts {executedQty cummulativeQuoteQty : String} {executed quote : ℕ}
    (executedWord quoteWord : UInt64) (hpos : 0 < executed)
    (hexecuted : executedWord.toNat = executed * 10 ^ 5)
    (hquote : quoteWord.toNat = quote * 10 ^ 2)
    (hexecutedQty : .ofList (fixedDigits executedWord.toNat (5 : UInt8).toNat) = executedQty)
    (hquoteQty : .ofList (fixedDigits quoteWord.toNat (2 : UInt8).toNat) = cummulativeQuoteQty) :
    (soldTexts executedQty cummulativeQuoteQty).Fills decimalText (fun _ => some bitcoinInfo)
      (fun _ => some ⟨2, 1⟩) bitcoinInfo executed quote := by
  have hexact : (executed : ℚ) = executedWord.toNat * (10 : ℚ) ^ (-((5 : UInt8).toNat : ℤ)) :=
    eq_scaled hexecuted
  have hquoteExact : (quote : ℚ) = quoteWord.toNat * (10 : ℚ) ^ (-((2 : UInt8).toNat : ℤ)) :=
    eq_scaled hquote
  exact
    { symbol := ⟨⟨2, 1⟩, rfl, rfl⟩
      clientOrderId := Option.isSome_iff_exists.mpr ⟨56789, documented_decimalText.unsigned 56789⟩
      status := .inl rfl
      executedQty := hexact ▸ getDoubleInString_of_fixed hexecutedQty
      cummulativeQuoteQty := hquoteExact ▸ getDoubleInString_of_fixed hquoteQty
      executed_pos := Nat.cast_pos.mpr hpos
      executed_exact := ⟨executedWord, hexact⟩
      quote_exact := ⟨quoteWord, hquoteExact⟩ }

/-- One unit sold for one. -/
theorem fills_one : (soldTexts "1.00000" "1.00").Fills decimalText (fun _ => some bitcoinInfo)
    (fun _ => some ⟨2, 1⟩) bitcoinInfo (1 : ℕ) (1 : ℕ) :=
  fills_soldTexts 100000 100 (by decide) (by decide) (by decide) (by decide) (by decide)

/-- Two units sold for two hundred. -/
theorem fills_two : (soldTexts "2.00000" "200.00").Fills decimalText (fun _ => some bitcoinInfo)
    (fun _ => some ⟨2, 1⟩) bitcoinInfo (2 : ℕ) (200 : ℕ) :=
  fills_soldTexts 200000 20000 (by decide) (by decide) (by decide) (by decide) (by decide)

end CryptoBot.Requests

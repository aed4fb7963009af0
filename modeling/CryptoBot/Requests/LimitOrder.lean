/-
# Limit orders on the wire

An order leaves as texts in a query and comes back as texts in a reply.  On the way
out its integers are scaled down to decimals and printed with the precision of the
pair; on the way back the decimals are read, scaled up and cut to integers.  When
the exchange echoes a new order, the response is the order again.

The conversions between numbers and text are those of `fmt` and `simdjson`, and
parameters here.  `NumberText.Documented` is what their documentation says of them:
fixed notation with a number of decimals, and the numbers of JSON inside a string.
-/

import CryptoBot.Common.TradingPairs
import CryptoBot.Math.Decimal
import CryptoBot.Math.Json
import CryptoBot.Orders.BinanceParser
import CryptoBot.Orders.OrderManager
import CryptoBot.Requests.ArgsQuery

namespace CryptoBot.Requests

open CryptoBot.Common CryptoBot.Math CryptoBot.Orders

structure NumberText where
  /-- `fmt::format("{:.{}f}", value, precision)`. -/
  format : ℚ → UInt8 → String
  /-- `get_double_in_string` of `simdjson`. -/
  getDoubleInString : String → Option ℚ
  /-- `get_uint64_in_string`. -/
  getUint64InString : String → Option UInt64

structure NumberText.Documented (text : NumberText) : Prop where
  /-- A value with no more decimals than the precision is printed in full. -/
  format : ∀ (number : ℕ) (precision : UInt8),
    text.format (number * (10 : ℚ) ^ (-(precision.toNat : ℤ))) precision =
      .ofList (fixedDigits number precision.toNat)
  integer : ∀ whole, IsWhole whole →
    text.getDoubleInString (.ofList whole) = some (Nat.ofDigitChars 10 whole 0 : ℚ)
  decimal : ∀ whole fraction, IsWhole whole → fraction ≠ [] →
    (∀ char ∈ fraction, char.isDigit) →
      text.getDoubleInString (.ofList (whole ++ '.' :: fraction)) =
        some (decimalValue whole fraction)
  unsigned : ∀ number : UInt64, text.getUint64InString (toString number.toNat) = some number

/-- A printed decimal is read back. -/
theorem NumberText.Documented.getDoubleInString_format {text : NumberText}
    (h : text.Documented) (number : ℕ) (precision : UInt8) :
    text.getDoubleInString
        (text.format (number * (10 : ℚ) ^ (-(precision.toNat : ℤ))) precision) =
      some (number * (10 : ℚ) ^ (-(precision.toNat : ℤ))) := by
  rw [h.format, fixedDigits]
  split
  · rename_i hzero
    rw [h.integer _ (isWhole_toDigits number), Nat.ofDigitChars_ten_toDigits, hzero]
    simp
  · rename_i hpos
    have hpos : 0 < precision.toNat := Nat.pos_of_ne_zero hpos
    rw [h.decimal _ _ (isWhole_toDigits _) _ fun char hchar => isDigit_of_mem_padded hchar,
      decimalValue_fixed hpos]
    intro hempty
    have hlength : (padded precision.toNat (number % 10 ^ precision.toNat)).length =
        precision.toNat := length_padded (Nat.mod_lt _ (by positivity)) hpos
    rw [hempty, List.length_nil] at hlength
    omega

/-- `static_cast<uint64_t>` of a double that is in the range of the type. -/
def castWord (value : ℚ) : UInt64 := .ofNat ⌊value⌋.toNat

/-- Scaling down and up again. -/
theorem scaled_back (number precision : ℕ) :
    number * (10 : ℚ) ^ (-(precision : ℤ)) * (10 : ℚ) ^ precision = number := by
  rw [mul_assoc, zpow_neg, zpow_natCast, inv_mul_cancel₀ (by positivity), mul_one]

theorem castWord_scaled (word : UInt64) (precision : ℕ) :
    castWord (word.toNat * (10 : ℚ) ^ (-(precision : ℤ)) * (10 : ℚ) ^ precision) = word := by
  rw [scaled_back, castWord, Int.floor_natCast, Int.toNat_natCast, UInt64.ofNat_toNat]

/-! ## The order -/

inductive OrderType
  | limit | market | stopLoss | stopLossLimit | takeProfit | takeProfitLimit | limitMaker
  deriving DecidableEq, Repr

inductive TimeInForce
  | gtc | ioc | fok
  deriving DecidableEq, Repr

abbrev TradingPairHashMap := TradingPair → Option TradingPairInfo

/-- `pairs[tradingPair]`; a pair that is not registered gets an empty entry. -/
def TradingPairHashMap.at (pairs : TradingPairHashMap) (tradingPair : TradingPair) :
    TradingPairInfo :=
  (pairs tradingPair).getD ⟨0, 0, "", ""⟩

theorem TradingPairHashMap.at_of_some {pairs : TradingPairHashMap} {tradingPair : TradingPair}
    {info : TradingPairInfo} (h : pairs tradingPair = some info) : pairs.at tradingPair = info := by
  rw [TradingPairHashMap.at, h, Option.getD_some]

namespace ArgsOrder

variable (placement : Placement (String × String)) (storage : ArgsQuery)

def setSymbol (symbol : String) : ArgsQuery := storage.set placement "symbol" symbol

def setSide : Side → ArgsQuery
  | .kAsk => storage.set placement "side" "BUY"
  | .kBid => storage.set placement "side" "SELL"
  | _ => storage

def setType : OrderType → ArgsQuery
  | .limit => storage.set placement "type" "LIMIT"
  | .market => storage.set placement "type" "MARKET"
  | .stopLoss => storage.set placement "type" "STOP_LOSS"
  | .stopLossLimit => storage.set placement "type" "STOP_LOSS_LIMIT"
  | .takeProfit => storage.set placement "type" "TAKE_PROFIT"
  | .takeProfitLimit => storage.set placement "type" "TAKE_PROFIT_LIMIT"
  | .limitMaker => storage.set placement "type" "LIMIT_MAKER"

def setQuantity (text : NumberText) (quantity : ℚ) (qtyPrec : UInt8) : ArgsQuery :=
  storage.set placement "quantity" (text.format quantity qtyPrec)

def setPrice (text : NumberText) (price : ℚ) (pricePrec : UInt8) : ArgsQuery :=
  storage.set placement "price" (text.format price pricePrec)

def setTimeInForce : TimeInForce → ArgsQuery
  | .fok => storage.set placement "timeInForce" "FOK"
  | .gtc => storage.set placement "timeInForce" "GTC"
  | .ioc => storage.set placement "timeInForce" "IOC"

def setOrderId (orderId : OrderId) : ArgsQuery :=
  if orderId ≠ kOrderIdInvalid then
    storage.set placement "newClientOrderId" (toString orderId.toNat)
  else storage

end ArgsOrder

/-- `FamilyLimitOrder::ArgsOrder`. -/
def argsOrder (placement : Placement (String × String)) (text : NumberText)
    (pairs : TradingPairHashMap) (newOrder : RequestNewOrder) : ArgsQuery :=
  let info := pairs.at newOrder.tradingPair
  let storage := ArgsOrder.setSymbol placement .empty info.httpsQueryRequest
  let storage := ArgsOrder.setSide placement storage newOrder.side
  let storage := ArgsOrder.setType placement storage .limit
  let qtyPrec := (10 : ℚ) ^ (-(info.qtyPrecission.toNat : ℤ))
  let storage := ArgsOrder.setQuantity placement storage text (newOrder.qty.toNat * qtyPrec)
    info.qtyPrecission
  let pricePrec := (10 : ℚ) ^ (-(info.pricePrecission.toNat : ℤ))
  let storage := ArgsOrder.setPrice placement storage text (newOrder.price.toNat * pricePrec)
    info.pricePrecission
  let storage := ArgsOrder.setTimeInForce placement storage .gtc
  ArgsOrder.setOrderId placement storage newOrder.orderId

/-! ## The reply -/

/-- The strings of a reply, before they are converted. -/
structure LimitOrderTexts where
  symbol : Option String := none
  clientOrderId : Option String := none
  status : Option String := none
  price : Option String := none
  cummulativeQuoteQty : Option String := none
  side : Option String := none
  executedQty : Option String := none
  origQty : Option String := none

namespace LimitOrderTexts

variable (text : NumberText) (pairs : TradingPairHashMap)
  (pairsReverse : String → Option TradingPair) (texts : LimitOrderTexts)

/-- What the parser reads of the strings, with the precisions of the pair that the
symbol names. -/
def read : LimitOrderReply :=
  let info := pairs.at ((texts.symbol.bind pairsReverse).getD {})
  let executedQty := texts.executedQty.bind text.getDoubleInString
  let origQty := texts.origQty.bind text.getDoubleInString
  let scalePrice (price : ℚ) := castWord (price * (10 : ℚ) ^ info.pricePrecission.toNat)
  let scaleQty (qty : ℚ) := castWord (qty * (10 : ℚ) ^ info.qtyPrecission.toNat)
  { symbol := texts.symbol
    clientOrderId := texts.clientOrderId.bind text.getUint64InString
    status := texts.status
    price := (texts.price.bind text.getDoubleInString).map scalePrice
    cummulativeQuoteQty := (texts.cummulativeQuoteQty.bind text.getDoubleInString).map scalePrice
    side := texts.side
    executedQty := executedQty.map scaleQty
    leavesQty := executedQty.bind fun executed =>
      origQty.map fun orig => scaleQty (orig - executed) }

/-- `FamilyLimitOrder::ParserResponse::Parse`, from the strings of the reply. -/
def parse : MEClientResponse :=
  FamilyLimitOrder.parse pairsReverse (texts.read text pairs pairsReverse)

/-- The reply of an exchange that has accepted an order and filled nothing of it. -/
def echo (args : ArgsQuery) (executedQty : String) (cummulativeQuoteQty : Option String) :
    LimitOrderTexts where
  symbol := args.find "symbol"
  clientOrderId := args.find "newClientOrderId"
  status := some "NEW"
  price := args.find "price"
  cummulativeQuoteQty := cummulativeQuoteQty
  side := args.find "side"
  executedQty := some executedQty
  origQty := args.find "quantity"

end LimitOrderTexts

/-! ## The round trip -/

section RoundTrip

variable (placement : Placement (String × String)) (text : NumberText)
  {pairs : TradingPairHashMap} {order : RequestNewOrder} {info : TradingPairInfo}

/-- The texts of an order. -/
theorem find_argsOrder (hpair : pairs order.tradingPair = some info)
    (hside : order.side = .kAsk ∨ order.side = .kBid) (hid : order.orderId ≠ kOrderIdInvalid) :
    (argsOrder placement text pairs order).find "symbol" = some info.httpsQueryRequest ∧
      (argsOrder placement text pairs order).find "newClientOrderId" =
        some (toString order.orderId.toNat) ∧
      (argsOrder placement text pairs order).find "side" =
        some (if order.side = .kAsk then "BUY" else "SELL") ∧
      (argsOrder placement text pairs order).find "quantity" =
        some (text.format
          (order.qty.toNat * (10 : ℚ) ^ (-(info.qtyPrecission.toNat : ℤ))) info.qtyPrecission) ∧
      (argsOrder placement text pairs order).find "price" =
        some (text.format
          (order.price.toNat * (10 : ℚ) ^ (-(info.pricePrecission.toNat : ℤ)))
            info.pricePrecission) := by
  have hinfo := TradingPairHashMap.at_of_some hpair
  rcases hside with hside | hside <;>
    simp [argsOrder, hinfo, ArgsOrder.setSymbol, ArgsOrder.setSide, hside, ArgsOrder.setType,
      ArgsOrder.setQuantity, ArgsOrder.setPrice, ArgsOrder.setTimeInForce, ArgsOrder.setOrderId,
      hid]

/-- The numbers of the reply are those of the order. -/
theorem read_echo {pairsReverse : String → Option TradingPair} (executedQty : String)
    (cummulativeQuoteQty : Option String) (htext : text.Documented)
    (hpair : pairs order.tradingPair = some info)
    (hreverse : pairsReverse info.httpsQueryRequest = some order.tradingPair)
    (hside : order.side = .kAsk ∨ order.side = .kBid) (hid : order.orderId ≠ kOrderIdInvalid)
    (hexecuted : text.getDoubleInString executedQty = some 0) :
    (LimitOrderTexts.echo (argsOrder placement text pairs order) executedQty
        cummulativeQuoteQty).read text pairs pairsReverse =
      { symbol := some info.httpsQueryRequest
        clientOrderId := some order.orderId
        status := some "NEW"
        price := some order.price
        cummulativeQuoteQty :=
          ((LimitOrderTexts.echo (argsOrder placement text pairs order) executedQty
            cummulativeQuoteQty).read text pairs pairsReverse).cummulativeQuoteQty
        side := some (if order.side = .kAsk then "BUY" else "SELL")
        executedQty := some 0
        leavesQty := some order.qty } := by
  obtain ⟨hsymbol, horderId, hsideText, hquantity, hprice⟩ :=
    find_argsOrder placement text hpair hside hid
  have hinfo := TradingPairHashMap.at_of_some hpair
  have hzero : castWord 0 = 0 := rfl
  simp only [LimitOrderTexts.read, LimitOrderTexts.echo, hsymbol, horderId, hsideText, hquantity,
    hprice, Option.bind_some, hreverse, Option.getD_some, hinfo, hexecuted, htext.unsigned,
    htext.getDoubleInString_format, Option.map_some, castWord_scaled, zero_mul, hzero, sub_zero]

/-- The reply to an order is read as the order. -/
theorem parse_echo (placement : Placement (String × String)) (text : NumberText)
    (pairs : TradingPairHashMap) (pairsReverse : String → Option TradingPair)
    (order : RequestNewOrder) (info : TradingPairInfo) (executedQty : String)
    (cummulativeQuoteQty : Option String) (htext : text.Documented)
    (hpair : pairs order.tradingPair = some info)
    (hreverse : pairsReverse info.httpsQueryRequest = some order.tradingPair)
    (hside : order.side = .kAsk ∨ order.side = .kBid) (hid : order.orderId ≠ kOrderIdInvalid)
    (hexecuted : text.getDoubleInString executedQty = some 0) :
    (LimitOrderTexts.echo (argsOrder placement text pairs order) executedQty
        cummulativeQuoteQty).parse text pairs pairsReverse =
      { exchangeId := .kBinance
        type := .accepted
        tradingPair := order.tradingPair
        orderId := order.orderId
        side := order.side
        price := order.price
        execQty := 0
        leavesQty := order.qty } := by
  rw [LimitOrderTexts.parse, read_echo placement text executedQty cummulativeQuoteQty htext hpair
    hreverse hside hid hexecuted]
  rcases hside with hside | hside <;>
    simp [FamilyLimitOrder.parse, FamilyLimitOrder.finish, hreverse, hside]

end RoundTrip

/-- Printing to the nearest decimal, and reading numerals. -/
def decimalText : NumberText where
  format value precision :=
    .ofList (fixedDigits ⌊value * (10 : ℚ) ^ precision.toNat + 1 / 2⌋.toNat precision.toNat)
  getDoubleInString text := parseDecimal text.toList
  getUint64InString text :=
    let number := Nat.ofDigitChars 10 text.toList 0
    if IsWhole text.toList ∧ number < 2 ^ 64 then some (.ofNat number) else none

/-- The same for the numbers of a document: unsigned numerals and decimals. -/
def decimalReader : NumberReader where
  getUint64 := decimalText.getUint64InString
  getNumber token := (decimalText.getUint64InString token).map .unsignedInteger
  getDoubleInString := decimalText.getDoubleInString

theorem documented_decimalText : decimalText.Documented where
  format number precision := by
    have hfloor : ⌊(number : ℚ) + 1 / 2⌋ = number := by
      rw [Int.floor_natCast_add]
      norm_num
    simp only [decimalText]
    rw [scaled_back, hfloor, Int.toNat_natCast]
  integer whole hwhole := by
    simp only [decimalText, String.toList_ofList]
    exact parseDecimal_whole hwhole
  decimal whole fraction hwhole hnonempty hdigit := by
    simp only [decimalText, String.toList_ofList]
    exact parseDecimal_fraction hwhole hnonempty hdigit
  unsigned number := by
    simp only [decimalText, Nat.toString_eq_ofList_toDigits, String.toList_ofList,
      Nat.ofDigitChars_ten_toDigits]
    rw [if_pos ⟨isWhole_toDigits _, number.toNat_lt⟩, UInt64.ofNat_toNat]

/-- Fixed notation is read as the number it stands for. -/
theorem getDoubleInString_of_fixed {string : String} {number : ℕ} {precision : UInt8}
    (hstring : .ofList (fixedDigits number precision.toNat) = string) :
    decimalText.getDoubleInString string =
      some (number * (10 : ℚ) ^ (-(precision.toNat : ℤ))) := by
  rw [← hstring, ← documented_decimalText.format]
  exact documented_decimalText.getDoubleInString_format number precision

/-- Nothing, as it is printed with five decimals. -/
theorem getDoubleInString_zeros : decimalText.getDoubleInString "0.00000" = some 0 := by
  have hzeros : String.ofList (fixedDigits 0 (5 : UInt8).toNat) = "0.00000" := by decide
  rw [getDoubleInString_of_fixed hzeros, Nat.cast_zero, zero_mul]

/-- An order for 0.015 at 65000.10. -/
def bitcoinOrder : RequestNewOrder where
  exchangeId := .kBinance
  tradingPair := ⟨2, 1⟩
  orderId := 12345
  side := .kAsk
  price := 6500010
  qty := 1500

theorem parse_echo_bitcoinOrder :
    (LimitOrderTexts.echo
        (argsOrder .back decimalText (fun _ => some ⟨2, 5, "BTCUSDT", "BTCUSDT"⟩) bitcoinOrder)
        "0.00000" (some "0.00")).parse decimalText
          (fun _ => some ⟨2, 5, "BTCUSDT", "BTCUSDT"⟩) (fun _ => some ⟨2, 1⟩) =
      { exchangeId := .kBinance
        type := .accepted
        tradingPair := ⟨2, 1⟩
        orderId := 12345
        side := .kAsk
        price := 6500010
        execQty := 0
        leavesQty := 1500 } :=
  parse_echo .back decimalText _ _ bitcoinOrder ⟨2, 5, "BTCUSDT", "BTCUSDT"⟩ "0.00000" (some "0.00")
    documented_decimalText rfl rfl (.inl rfl) (by decide) getDoubleInString_zeros

end CryptoBot.Requests

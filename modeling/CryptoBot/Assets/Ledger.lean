/-
# The wallets of all exchanges

`ExchangeWallet` keeps a wallet for each exchange and sends every call to the
wallet of the exchange it names.  The ledger law says where the money of a
ticker is: on the balance, or in an open reservation.  A run changes the sum of
the two only by the reservations that responses drop and by the credits of
fills.

The law is about valid tickers.  The default entry that CANCELED inserts for an
unknown order belongs to the invalid ticker, so it never shows on this side.
-/

import CryptoBot.Assets.Cancellation

namespace CryptoBot.Assets

open CryptoBot.Common CryptoBot.Math CryptoBot.Orders

/-- What a reservation holds in a ticker. -/
def ReservedForTicker.inTicker (ticker : TickerId) (reserved : ReservedForTicker) : ℚ :=
  if reserved.reservedTicker = ticker then qtyD reserved.reservedQty else 0

theorem qtyD_nonneg (qty : Qty) : (0 : ℚ) ≤ qtyD qty := Nat.cast_nonneg _

theorem ReservedForTicker.inTicker_nonneg (ticker : TickerId) (reserved : ReservedForTicker) :
    0 ≤ reserved.inTicker ticker := by
  rw [inTicker]
  split
  · exact qtyD_nonneg _
  · exact le_rfl

theorem ReservedForTicker.inTicker_default {ticker : TickerId} (h : ticker ≠ kTickerIdInvalid) :
    ({} : ReservedForTicker).inTicker ticker = 0 := by
  simp [inTicker, h.symm]

namespace Wallet

/-- The open reservations in a ticker. -/
def openQty (wallet : Wallet) (ticker : TickerId) : ℚ :=
  entriesTotal (ReservedForTicker.inTicker ticker) wallet.reserves

/-- What the reservation of an order holds in a ticker. -/
def reservedQty (wallet : Wallet) (orderId : OrderId) (ticker : TickerId) : ℚ :=
  weightAt (ReservedForTicker.inTicker ticker) wallet.reserves orderId

/-- The reservation an operation drops. -/
def dropped (wallet : Wallet) (ticker : TickerId) : Operation → ℚ
  | .canReserve _ _ => 0
  | .reserve _ _ _ => 0
  | .update response =>
      match response.type with
      | .accepted | .cancelRejected | .filled => wallet.reservedQty response.orderId ticker
      | .canceled | .invalid => 0

/-- A reservation is only made for an order that has none. -/
def Fresh (wallet : Wallet) : Operation → Prop
  | .canReserve _ _ => True
  | .reserve orderId ticker qty => (wallet.reserve orderId ticker qty).2 = true →
      wallet.reserves.lookup orderId = none
  | .update _ => True

instance (wallet : Wallet) : DecidablePred wallet.Fresh
  | .canReserve _ _ => inferInstanceAs (Decidable True)
  | .reserve _ _ _ => inferInstanceAs (Decidable (_ → _))
  | .update _ => inferInstanceAs (Decidable True)

/-- Reservations are in listed tickers, and no balance is overdrawn. -/
structure Sound (wallet : Wallet) : Prop where
  backed : ∀ orderId reserved, wallet.reserves.lookup orderId = some reserved →
    reserved.reservedTicker ≠ kTickerIdInvalid → (wallet.assets reserved.reservedTicker).isSome
  nonneg : ∀ ticker, ticker ≠ kTickerIdInvalid → 0 ≤ wallet.balance ticker

end Wallet

/-- The quantity a response credits to a ticker. -/
def credited (ticker : TickerId) (response : MEClientResponse) : ℚ :=
  match response.type, response.side with
  | .filled, .kAsk => if response.tradingPair.first = ticker then qtyD response.execQty else 0
  | .filled, .kBid => if response.tradingPair.second = ticker then qtyD response.execQty else 0
  | _, _ => 0

/-- The quantity an operation credits to a ticker. -/
def Operation.credited (ticker : TickerId) : Operation → ℚ
  | .update response => Assets.credited ticker response
  | _ => 0

namespace Wallet

variable {wallet : Wallet} {ticker : TickerId}

/-! ## Reservations -/

theorem reservedQty_nonneg (orderId : OrderId) : 0 ≤ wallet.reservedQty orderId ticker := by
  rw [reservedQty, weightAt]
  cases wallet.reserves.lookup orderId with
  | none => exact le_rfl
  | some reserved => exact reserved.inTicker_nonneg ticker

theorem openQty_eraseReserve (orderId : OrderId) :
    (wallet.eraseReserve orderId).openQty ticker =
      wallet.openQty ticker - wallet.reservedQty orderId ticker :=
  entriesTotal_erase _ wallet.reserves orderId

/-- The entry that is read holds the reserved quantity; a default entry holds
nothing in a valid ticker. -/
theorem inTicker_reserved (hvalid : ticker ≠ kTickerIdInvalid) (orderId : OrderId) :
    (wallet.reserved orderId).2.inTicker ticker = wallet.reservedQty orderId ticker := by
  cases hlookup : wallet.reserves.lookup orderId with
  | none =>
      rw [wallet.reserved_of_none hlookup, ReservedForTicker.inTicker_default hvalid]
      simp [reservedQty, weightAt, hlookup]
  | some found =>
      rw [wallet.reserved_of_lookup hlookup]
      simp [reservedQty, weightAt, hlookup]

/-- Reading the entry of an order adds nothing to the open reservations. -/
theorem openQty_reserved (hvalid : ticker ≠ kTickerIdInvalid) (orderId : OrderId) :
    (wallet.reserved orderId).1.openQty ticker = wallet.openQty ticker := by
  cases hlookup : wallet.reserves.lookup orderId with
  | none =>
      rw [wallet.reserved_of_none hlookup, openQty, entriesTotal_insert,
        ReservedForTicker.inTicker_default hvalid]
      simp [openQty, weightAt, hlookup]
  | some found => rw [wallet.reserved_of_lookup hlookup]

theorem lookup_reserved (orderId : OrderId) :
    (wallet.reserved orderId).1.reserves.lookup orderId = some (wallet.reserved orderId).2 := by
  cases hlookup : wallet.reserves.lookup orderId with
  | none => simp [wallet.reserved_of_none hlookup]
  | some found => simp [wallet.reserved_of_lookup hlookup, hlookup]

theorem reservedQty_reserved (orderId : OrderId) :
    (wallet.reserved orderId).1.reservedQty orderId ticker =
      (wallet.reserved orderId).2.inTicker ticker := by
  simp [reservedQty, weightAt, lookup_reserved]

/-! ## Soundness -/

theorem Sound.of_assets {assets : TickerId → Option ℚ}
    (h : ∀ ticker, ticker ≠ kTickerIdInvalid → 0 ≤ (assets ticker).getD 0) :
    Sound { assets } where
  backed := by simp
  nonneg := h

/-- Fewer reservations over no fewer tickers are backed. -/
theorem backed_of_le (hsound : Sound wallet) {next : Wallet}
    (hlookup : ∀ orderId reserved, next.reserves.lookup orderId = some reserved →
      reserved.reservedTicker ≠ kTickerIdInvalid →
      wallet.reserves.lookup orderId = some reserved)
    (hassets : ∀ other, (wallet.assets other).isSome → (next.assets other).isSome)
    (orderId : OrderId) (reserved : ReservedForTicker)
    (hopen : next.reserves.lookup orderId = some reserved)
    (hticker : reserved.reservedTicker ≠ kTickerIdInvalid) :
    (next.assets reserved.reservedTicker).isSome :=
  hassets _ (hsound.backed orderId reserved (hlookup orderId reserved hopen hticker) hticker)

theorem lookup_of_lookup_eraseReserve {orderId other : OrderId} {reserved : ReservedForTicker}
    (h : (wallet.eraseReserve orderId).reserves.lookup other = some reserved) :
    wallet.reserves.lookup other = some reserved := by
  by_cases hother : other = orderId
  · subst hother
    simp [eraseReserve] at h
  · rwa [wallet.lookup_eraseReserve_of_ne hother] at h

theorem Sound.eraseReserve (hsound : Sound wallet) (orderId : OrderId) :
    Sound (wallet.eraseReserve orderId) where
  backed := backed_of_le hsound (fun _ _ h _ => lookup_of_lookup_eraseReserve h) fun _ h => h
  nonneg := hsound.nonneg

/-- One balance that grows, seen from any other. -/
theorem ite_balance_add (other : TickerId) (amount : ℚ) :
    (if ticker = other then wallet.balance other + amount else wallet.balance ticker) =
      wallet.balance ticker + if ticker = other then amount else 0 := by
  by_cases hticker : ticker = other
  · simp [hticker]
  · simp [hticker]

/-- A credit keeps the reservations and adds to one balance. -/
theorem balance_credit (other : TickerId) (executedQty : Qty) :
    (wallet.credit other executedQty).1.balance ticker =
      wallet.balance ticker + if ticker = other then qtyD executedQty else 0 := by
  rw [credit, addAt, balance_modifyAt (wallet.isSome_initTicker other), balance_initTicker,
    balance_initTicker, ite_balance_add]

theorem Sound.credit (hsound : Sound wallet) (other : TickerId) (executedQty : Qty) :
    Sound (wallet.credit other executedQty).1 := by
  constructor
  · apply backed_of_le hsound
    · intro orderId reserved hopen _
      simpa using hopen
    · intro listed hlisted
      exact isSome_credit hlisted other executedQty
  · intro valid hvalid
    rw [balance_credit]
    have hold := hsound.nonneg valid hvalid
    split
    · have hamount := qtyD_nonneg executedQty
      linarith
    · linarith

/-- The balance and the open reservations after a reservation was given back.
The ticker is listed, or it is the invalid one. -/
theorem giveBack_spec (hsound : Sound wallet) (hvalid : ticker ≠ kTickerIdInvalid)
    (orderId : OrderId) :
    (wallet.giveBack orderId).1.balance ticker =
        wallet.balance ticker + wallet.reservedQty orderId ticker ∧
      (wallet.giveBack orderId).1.openQty ticker =
        wallet.openQty ticker - wallet.reservedQty orderId ticker := by
  rw [← inTicker_reserved hvalid orderId]
  cases hassets : wallet.assets (wallet.reserved orderId).2.reservedTicker with
  | none =>
      have hunbacked : (wallet.reserved orderId).2.reservedTicker = kTickerIdInvalid := by
        cases hlookup : wallet.reserves.lookup orderId with
        | none => rw [wallet.reserved_of_none hlookup]
        | some found =>
            rw [wallet.reserved_of_lookup hlookup] at hassets ⊢
            by_contra hticker
            simpa [hassets] using hsound.backed orderId found hlookup hticker
      have hzero : (wallet.reserved orderId).2.inTicker ticker = 0 := by
        simp [ReservedForTicker.inTicker, hunbacked, hvalid.symm]
      rw [wallet.giveBack_of_none orderId hassets, hzero, openQty_reserved hvalid]
      simp [balance]
  | some amount =>
      obtain ⟨hreserves, hbalance⟩ := wallet.giveBack_of_isSome orderId (by simp [hassets])
      constructor
      · rw [hbalance, ite_balance_add, ReservedForTicker.inTicker]
        simp only [eq_comm]
      · calc (wallet.giveBack orderId).1.openQty ticker
            = ((wallet.reserved orderId).1.eraseReserve orderId).openQty ticker := by
              rw [openQty, hreserves]
              rfl
          _ = _ := by
              rw [openQty_eraseReserve, openQty_reserved hvalid, reservedQty_reserved]

theorem Sound.giveBack (hsound : Sound wallet) (orderId : OrderId) :
    Sound (wallet.giveBack orderId).1 := by
  constructor
  · apply backed_of_le hsound
    · intro other reserved hopen hticker
      by_cases hother : other = orderId
      · -- The entry of the order itself stays only when `at` threw.
        subst hother
        cases hassets : wallet.assets (wallet.reserved other).2.reservedTicker with
        | none =>
            rw [wallet.giveBack_of_none other hassets, lookup_reserved] at hopen
            cases hopen
            cases hlookup : wallet.reserves.lookup other with
            | none => simp [wallet.reserved_of_none hlookup] at hticker
            | some found => rw [wallet.reserved_of_lookup hlookup]
        | some amount =>
            rw [(wallet.giveBack_of_isSome other (by simp [hassets])).1,
              AList.lookup_erase] at hopen
            cases hopen
      · rwa [wallet.lookup_giveBack_of_ne hother] at hopen
    · intro listed hlisted
      exact isSome_giveBack hlisted orderId
  · intro valid hvalid
    rw [(giveBack_spec hsound hvalid orderId).1]
    exact add_nonneg (hsound.nonneg valid hvalid) (reservedQty_nonneg orderId)

/-! ## One operation -/

/-- The money of a ticker: its balance and its open reservations. -/
def holding (wallet : Wallet) (ticker : TickerId) : ℚ :=
  wallet.balance ticker + wallet.openQty ticker

theorem holding_credit (other : TickerId) (executedQty : Qty) :
    (wallet.credit other executedQty).1.holding ticker =
      wallet.holding ticker + if other = ticker then qtyD executedQty else 0 := by
  simp only [holding, openQty, balance_credit, reserves_credit, eq_comm]
  ring

theorem holding_eraseReserve (orderId : OrderId) :
    (wallet.eraseReserve orderId).holding ticker =
      wallet.holding ticker - wallet.reservedQty orderId ticker := by
  rw [holding, openQty_eraseReserve, balance_eraseReserve, holding, add_sub_assoc]

theorem holding_giveBack (hsound : Sound wallet) (hvalid : ticker ≠ kTickerIdInvalid)
    (orderId : OrderId) : (wallet.giveBack orderId).1.holding ticker = wallet.holding ticker := by
  obtain ⟨hbalance, hopen⟩ := giveBack_spec hsound hvalid orderId
  rw [holding, hbalance, hopen, holding]
  ring

/-- A response moves money between the balance and the reservations, but for
what it drops and credits. -/
theorem update_spec (hsound : Sound wallet) (hvalid : ticker ≠ kTickerIdInvalid)
    (response : MEClientResponse) :
    (wallet.update response).1.holding ticker = wallet.holding ticker +
      (credited ticker response - wallet.dropped ticker (.update response)) := by
  cases htype : response.type with
  | accepted =>
      simp [update, htype, credited, dropped, holding_eraseReserve, sub_eq_add_neg]
  | cancelRejected =>
      simp [update, htype, credited, dropped, holding_eraseReserve, sub_eq_add_neg]
  | canceled =>
      simp [update, htype, credited, dropped, holding_giveBack hsound hvalid]
  | filled =>
      cases hside : response.side <;>
        simp only [update, htype, hside, credited, dropped, holding_credit,
          holding_eraseReserve] <;> ring
  | invalid =>
      cases hlookup : wallet.reserves.lookup response.orderId with
      | none => simp [update, htype, credited, dropped, hlookup]
      | some found =>
          simp [update, htype, credited, dropped, hlookup, holding_giveBack hsound hvalid]

theorem Sound.update (hsound : Sound wallet) (response : MEClientResponse) :
    Sound (wallet.update response).1 := by
  rw [Wallet.update]
  split
  · exact hsound.eraseReserve _
  · exact hsound.eraseReserve _
  · exact hsound.giveBack _
  · have herased := hsound.eraseReserve response.orderId
    dsimp only
    split
    · exact herased.credit _ _
    · exact herased.credit _ _
    · exact herased
    · exact herased
  · split
    · exact hsound
    · exact hsound.giveBack _

theorem Sound.initTicker (hsound : Sound wallet) (other : TickerId) :
    Sound (wallet.initTicker other) where
  backed := by
    apply backed_of_le hsound
    · intro orderId reserved hopen _
      simpa using hopen
    · intro listed hlisted
      exact wallet.isSome_initTicker_of_isSome hlisted other
  nonneg := fun valid hvalid => by
    rw [balance_initTicker]
    exact hsound.nonneg valid hvalid

theorem Sound.reserve (hsound : Sound wallet) (orderId : OrderId) (other : TickerId) (qty : Qty) :
    Sound (wallet.reserve orderId other qty).1 := by
  rcases wallet.reserve_cases orderId other qty with
    hrefused | ⟨-, henough, hreserves, hbalance, hassets⟩
  · rw [hrefused]
    exact hsound.initTicker other
  · constructor
    · intro found reserved hopen hticker
      rw [hassets]
      by_cases hfound : found = orderId
      · subst hfound
        rw [hreserves, AList.lookup_insert] at hopen
        cases hopen
        exact wallet.isSome_initTicker other
      · rw [hreserves, AList.lookup_insert_ne hfound] at hopen
        exact wallet.isSome_initTicker_of_isSome (hsound.backed found reserved hopen hticker) other
    · intro valid hvalid
      rw [hbalance]
      split
      · linarith
      · exact hsound.nonneg valid hvalid

/-- A reservation that was made is taken off the balance. -/
theorem holding_reserve {orderId : OrderId} {other : TickerId} {qty : Qty}
    (hfresh : (wallet.reserve orderId other qty).2 = true →
      wallet.reserves.lookup orderId = none) :
    (wallet.reserve orderId other qty).1.holding ticker = wallet.holding ticker := by
  rcases wallet.reserve_cases orderId other qty with
    hrefused | ⟨hmade, -, hreserves, hbalance, -⟩
  · simp [hrefused, holding, openQty]
  · have hnone := hfresh hmade
    rw [holding, openQty, hreserves, entriesTotal_insert, hbalance]
    by_cases hticker : ticker = other
    · subst hticker
      simp only [weightAt, hnone, ReservedForTicker.inTicker, holding, openQty, if_true,
        Option.elim_none]
      ring
    · simp [weightAt, hnone, ReservedForTicker.inTicker, holding, openQty, hticker,
        Ne.symm hticker]

/-- The ledger of one operation. -/
theorem step_spec (hsound : Sound wallet) {operation : Operation}
    (hfresh : wallet.Fresh operation) :
    Sound (wallet.step operation).1 ∧ ∀ ticker, ticker ≠ kTickerIdInvalid →
      (wallet.step operation).1.holding ticker = wallet.holding ticker +
        (operation.credited ticker - wallet.dropped ticker operation) := by
  cases operation with
  | canReserve other qty =>
      refine ⟨hsound.initTicker other, fun ticker _ => ?_⟩
      simp [step, canReserve, holding, openQty, Operation.credited, dropped]
  | reserve orderId other qty =>
      refine ⟨hsound.reserve orderId other qty, fun ticker _ => ?_⟩
      simp [step, Operation.credited, dropped, holding_reserve hfresh]
  | update response =>
      exact ⟨hsound.update response, fun ticker hvalid => update_spec hsound hvalid response⟩

end Wallet

/-! ## All exchanges -/

structure ExchangeWallet where
  wallets : ExchangeId → Option Wallet := fun _ => none

/-- A call of `exchange::Wallet`. -/
inductive Call
  | canReserve (exchangeId : ExchangeId) (ticker : TickerId) (qty : Qty)
  | reserve (exchangeId : ExchangeId) (orderId : OrderId) (ticker : TickerId) (qty : Qty)
  | update (response : MEClientResponse)
  deriving DecidableEq, Repr

/-- The exchange a call names. -/
def Call.exchangeId : Call → ExchangeId
  | .canReserve exchangeId _ _ => exchangeId
  | .reserve exchangeId _ _ _ => exchangeId
  | .update response => response.exchangeId

/-- The operation a call makes on the wallet of its exchange. -/
def Call.operation : Call → Operation
  | .canReserve _ ticker qty => .canReserve ticker qty
  | .reserve _ orderId ticker qty => .reserve orderId ticker qty
  | .update response => .update response

namespace ExchangeWallet

variable (wallet : ExchangeWallet)

/-- The wallets as `InitWallets` leaves them, with the given balances. -/
def ofAssets (assets : ExchangeId → Option (TickerId → Option ℚ)) : ExchangeWallet :=
  ⟨fun exchangeId => (assets exchangeId).map fun assets => { assets }⟩

/-- A write to the wallet of an exchange. -/
def set (exchangeId : ExchangeId) (next : Wallet) : ExchangeWallet :=
  ⟨Function.update wallet.wallets exchangeId (some next)⟩

def update (response : MEClientResponse) : ExchangeWallet × Except Exception Unit :=
  if response.exchangeId = .kInvalid then (wallet, .ok ())
  else
    match wallet.wallets response.exchangeId with
    | none => (wallet, .ok ())
    | some current =>
        let (next, result) := current.update response
        (wallet.set response.exchangeId next, result)

def canReserve (exchangeId : ExchangeId) (ticker : TickerId) (qty : Qty) : ExchangeWallet × Bool :=
  match wallet.wallets exchangeId with
  | none => (wallet, false)
  | some current =>
      let (next, enough) := current.canReserve ticker qty
      (wallet.set exchangeId next, enough)

def reserve (exchangeId : ExchangeId) (orderId : OrderId) (ticker : TickerId) (qty : Qty) :
    ExchangeWallet × Bool :=
  match wallet.wallets exchangeId with
  | none => (wallet, false)
  | some current =>
      let (next, enough) := current.reserve orderId ticker qty
      (wallet.set exchangeId next, enough)

def step : Call → ExchangeWallet × List Outcome
  | .canReserve exchangeId ticker qty =>
      let (next, enough) := wallet.canReserve exchangeId ticker qty
      (next, [.returned enough])
  | .reserve exchangeId orderId ticker qty =>
      let (next, enough) := wallet.reserve exchangeId orderId ticker qty
      (next, [.returned enough])
  | .update response =>
      let (next, result) := wallet.update response
      (next, [.updated result])

/-- The runs of the wallets. -/
def machine : Machine ExchangeWallet Call Outcome := ⟨wallet, step⟩

def balance (exchangeId : ExchangeId) (ticker : TickerId) : ℚ :=
  (wallet.wallets exchangeId).elim 0 (·.balance ticker)

def openQty (exchangeId : ExchangeId) (ticker : TickerId) : ℚ :=
  (wallet.wallets exchangeId).elim 0 (·.openQty ticker)

/-- The open reservation of an order. -/
def reservation (exchangeId : ExchangeId) (orderId : OrderId) : Option ReservedForTicker :=
  (wallet.wallets exchangeId).bind (·.reserves.lookup orderId)

/-- A response without an exchange is ignored; any other call reaches the wallet
of its exchange. -/
def Reaches (exchangeId : ExchangeId) (call : Call) : Prop :=
  call.exchangeId = exchangeId ∧
    match call with
    | .update _ => exchangeId ≠ .kInvalid
    | _ => True

instance (exchangeId : ExchangeId) : DecidablePred (Reaches exchangeId)
  | .canReserve _ _ _ => inferInstanceAs (Decidable (_ ∧ True))
  | .reserve _ _ _ _ => inferInstanceAs (Decidable (_ ∧ True))
  | .update _ => inferInstanceAs (Decidable (_ ∧ _ ≠ _))

/-- The reservations of an exchange in a ticker that a call drops. -/
def dropped (exchangeId : ExchangeId) (ticker : TickerId) (wallet : ExchangeWallet)
    (call : Call) : ℚ :=
  if Reaches exchangeId call then
    (wallet.wallets exchangeId).elim 0 (·.dropped ticker call.operation)
  else 0

/-- The quantity a call credits to a ticker of an exchange. -/
def credited (exchangeId : ExchangeId) (ticker : TickerId) (wallet : ExchangeWallet)
    (call : Call) : ℚ :=
  if Reaches exchangeId call then
    (wallet.wallets exchangeId).elim 0 fun _ => call.operation.credited ticker
  else 0

/-- A reservation is only made for an order that has none on its exchange. -/
def Fresh : Call → Prop
  | .canReserve _ _ _ => True
  | .reserve exchangeId orderId ticker qty =>
      (wallet.reserve exchangeId orderId ticker qty).2 = true →
        wallet.reservation exchangeId orderId = none
  | .update _ => True

instance : DecidablePred wallet.Fresh
  | .canReserve _ _ _ => inferInstanceAs (Decidable True)
  | .reserve _ _ _ _ => inferInstanceAs (Decidable (_ → _))
  | .update _ => inferInstanceAs (Decidable True)

variable {wallet}

/-- What a call does to the wallet of an exchange: nothing, or its operation. -/
theorem step_wallets (exchangeId : ExchangeId) (call : Call) :
    (wallet.step call).1.wallets exchangeId =
      if Reaches exchangeId call then
        (wallet.wallets exchangeId).map fun current => (current.step call.operation).1
      else wallet.wallets exchangeId := by
  by_cases hother : call.exchangeId = exchangeId
  · subst hother
    cases call with
    | canReserve named ticker qty =>
        cases hwallet : wallet.wallets named <;>
          simp [step, canReserve, Reaches, Call.exchangeId, Call.operation, hwallet, set,
            Wallet.step]
    | reserve named orderId ticker qty =>
        cases hwallet : wallet.wallets named <;>
          simp [step, reserve, Reaches, Call.exchangeId, Call.operation, hwallet, set,
            Wallet.step]
    | update response =>
        by_cases hinvalid : response.exchangeId = .kInvalid
        · simp [step, update, Reaches, Call.exchangeId, hinvalid]
        · cases hwallet : wallet.wallets response.exchangeId <;>
            simp [step, update, Reaches, Call.exchangeId, Call.operation, hinvalid, hwallet, set,
              Wallet.step]
  · have hframe (next : Wallet) :
        (wallet.set call.exchangeId next).wallets exchangeId = wallet.wallets exchangeId :=
      Function.update_of_ne (Ne.symm hother) _ _
    rw [if_neg fun hreaches : Reaches exchangeId call => hother hreaches.1]
    cases call with
    | canReserve named ticker qty =>
        simp only [step, canReserve]
        split
        · rfl
        · exact hframe _
    | reserve named orderId ticker qty =>
        simp only [step, reserve]
        split
        · rfl
        · exact hframe _
    | update response =>
        simp only [step, update]
        split
        · rfl
        · split
          · rfl
          · exact hframe _

/-- A call changes no wallet of another exchange. -/
theorem step_wallets_of_ne {exchangeId : ExchangeId} {call : Call}
    (h : call.exchangeId ≠ exchangeId) :
    (wallet.step call).1.wallets exchangeId = wallet.wallets exchangeId := by
  rw [step_wallets, if_neg fun hreaches : Reaches exchangeId call => h hreaches.1]

/-- Every wallet is sound. -/
def Sound (wallet : ExchangeWallet) : Prop :=
  ∀ exchangeId current, wallet.wallets exchangeId = some current → current.Sound

/-- The money of a ticker on an exchange. -/
def holding (exchangeId : ExchangeId) (ticker : TickerId) (wallet : ExchangeWallet) : ℚ :=
  wallet.balance exchangeId ticker + wallet.openQty exchangeId ticker

theorem fresh_operation {exchangeId : ExchangeId} {current : Wallet} {call : Call}
    (hwallet : wallet.wallets exchangeId = some current) (hreaches : Reaches exchangeId call)
    (hfresh : wallet.Fresh call) : current.Fresh call.operation := by
  obtain ⟨rfl, -⟩ := hreaches
  cases call with
  | canReserve named ticker qty => trivial
  | reserve named orderId ticker qty =>
      intro hmade
      have hnamed : wallet.wallets named = some current := hwallet
      have hnone := hfresh (by simpa [ExchangeWallet.reserve, hnamed] using hmade)
      simpa [reservation, hnamed] using hnone
  | update response => trivial

theorem Sound.step (hsound : Sound wallet) {call : Call} (hfresh : wallet.Fresh call) :
    Sound (wallet.step call).1 := by
  intro exchangeId next hnext
  rw [step_wallets] at hnext
  split at hnext
  · rename_i hreaches
    obtain ⟨current, hcurrent, rfl⟩ := Option.map_eq_some_iff.mp hnext
    exact (Wallet.step_spec (hsound exchangeId current hcurrent)
      (fresh_operation hcurrent hreaches hfresh)).1
  · exact hsound exchangeId next hnext

theorem holding_step (hsound : Sound wallet) {call : Call} (hfresh : wallet.Fresh call)
    (exchangeId : ExchangeId) {ticker : TickerId} (hvalid : ticker ≠ kTickerIdInvalid) :
    holding exchangeId ticker (wallet.step call).1 = holding exchangeId ticker wallet +
      (credited exchangeId ticker wallet call - dropped exchangeId ticker wallet call) := by
  simp only [holding, balance, openQty, step_wallets, credited, dropped]
  by_cases hreaches : Reaches exchangeId call
  · simp only [if_pos hreaches]
    cases hwallet : wallet.wallets exchangeId with
    | none => simp
    | some current =>
        exact (Wallet.step_spec (hsound exchangeId current hwallet)
          (fresh_operation hwallet hreaches hfresh)).2 ticker hvalid
  · simp [hreaches]

theorem Sound.ofAssets {assets : ExchangeId → Option (TickerId → Option ℚ)}
    (h : ∀ exchangeId ticker, ticker ≠ kTickerIdInvalid →
      0 ≤ (ofAssets assets).balance exchangeId ticker) : Sound (ofAssets assets) := by
  intro exchangeId current hcurrent
  obtain ⟨found, hfound, rfl⟩ := Option.map_eq_some_iff.mp hcurrent
  apply Wallet.Sound.of_assets
  intro ticker hvalid
  simpa [ExchangeWallet.ofAssets, balance, Wallet.balance, hfound] using h exchangeId ticker hvalid

theorem holding_ofAssets (assets : ExchangeId → Option (TickerId → Option ℚ))
    (exchangeId : ExchangeId) (ticker : TickerId) :
    holding exchangeId ticker (ofAssets assets) = (ofAssets assets).balance exchangeId ticker := by
  cases hassets : assets exchangeId <;>
    simp [holding, openQty, ofAssets, hassets, Wallet.openQty]

theorem Sound.balance_nonneg (hsound : Sound wallet) (exchangeId : ExchangeId) {ticker : TickerId}
    (hvalid : ticker ≠ kTickerIdInvalid) : 0 ≤ wallet.balance exchangeId ticker := by
  rw [balance]
  cases hwallet : wallet.wallets exchangeId with
  | none => exact le_rfl
  | some current => exact (hsound exchangeId current hwallet).nonneg ticker hvalid

/-- A refused reservation lists the ticker with a zero balance, at most. -/
theorem reserve_refused {exchangeId : ExchangeId} {orderId : OrderId} {ticker : TickerId}
    {qty : Qty} (h : (wallet.reserve exchangeId orderId ticker qty).2 = false)
    (other : ExchangeId) :
    (∀ otherTicker, (wallet.reserve exchangeId orderId ticker qty).1.balance other otherTicker =
        wallet.balance other otherTicker) ∧
      ∀ otherId, (wallet.reserve exchangeId orderId ticker qty).1.reservation other otherId =
        wallet.reservation other otherId := by
  cases hwallet : wallet.wallets exchangeId with
  | none => simp [reserve, hwallet]
  | some current =>
      rcases current.reserve_cases orderId ticker qty with hrefused | ⟨hmade, -⟩
      · by_cases hother : other = exchangeId
        · subst hother
          simp [reserve, hwallet, hrefused, balance, reservation, set]
        · simp [reserve, hwallet, balance, reservation, set, Function.update_of_ne hother]
      · simp [reserve, hwallet, hmade] at h

/-- The ledger of a whole run, from any non-negative balances. -/
theorem ledger_run (assets : ExchangeId → Option (TickerId → Option ℚ))
    (hassets : ∀ exchangeId ticker, ticker ≠ kTickerIdInvalid →
      0 ≤ (ofAssets assets).balance exchangeId ticker)
    (calls : List Call)
    (hfresh : EveryStep (fun before call => ((ofAssets assets).machine.run before).Fresh call)
      calls) :
    let runs := (ofAssets assets).machine
    let current := runs.run calls
    (∀ exchangeId ticker, ticker ≠ kTickerIdInvalid →
      0 ≤ current.balance exchangeId ticker ∧
        current.balance exchangeId ticker + current.openQty exchangeId ticker =
          (ofAssets assets).balance exchangeId ticker -
            runs.tally (dropped exchangeId ticker) calls +
            runs.tally (credited exchangeId ticker) calls) ∧
      (∀ exchangeId orderId ticker qty, (current.reserve exchangeId orderId ticker qty).2 = false →
        ∀ other,
          (∀ otherTicker,
            (current.reserve exchangeId orderId ticker qty).1.balance other otherTicker =
              current.balance other otherTicker) ∧
          ∀ otherId, (current.reserve exchangeId orderId ticker qty).1.reservation other otherId =
            current.reservation other otherId) ∧
      ∀ call exchangeId, call.exchangeId ≠ exchangeId →
        (current.step call).1.wallets exchangeId = current.wallets exchangeId := by
  intro runs current
  refine ⟨?_, ?_, ?_⟩
  · intro exchangeId ticker hvalid
    obtain ⟨hsound, hholding⟩ := runs.value_eq_add_tally
      (fun wallet call => wallet.Fresh call) Sound (holding exchangeId ticker)
      (fun wallet call => credited exchangeId ticker wallet call -
        dropped exchangeId ticker wallet call)
      (Sound.ofAssets hassets) (fun _ _ hsound hcall => hsound.step hcall)
      (fun _ _ hsound hcall => holding_step hsound hcall exchangeId hvalid) hfresh
    refine ⟨hsound.balance_nonneg exchangeId hvalid, ?_⟩
    rw [runs.tally_sub] at hholding
    calc current.balance exchangeId ticker + current.openQty exchangeId ticker
        = holding exchangeId ticker (runs.run calls) := rfl
      _ = (ofAssets assets).balance exchangeId ticker +
            (runs.tally (credited exchangeId ticker) calls -
              runs.tally (dropped exchangeId ticker) calls) := by
          rw [hholding]
          congr 1
          exact holding_ofAssets assets exchangeId ticker
      _ = _ := by ring
  · intro exchangeId orderId ticker qty hrefused other
    exact reserve_refused hrefused other
  · intro call exchangeId hother
    exact step_wallets_of_ne hother

/-- One exchange with 200 of one ticker. -/
def binanceAssets : ExchangeId → Option (TickerId → Option ℚ) :=
  Function.update (fun _ => none) .kBinance (some Wallet.funded.assets)

/-- Two orders: the first is filled, the second cancelled after an unknown one. -/
def twoOrders : List Call :=
  [.reserve .kBinance 1 1 100, .reserve .kBinance 2 1 50,
    .update { Wallet.answer .canceled with orderId := 7 },
    .update { Wallet.answer .filled with execQty := 3 },
    .update { Wallet.answer .canceled with orderId := 2 }]

theorem ledger_twoOrders :
    let current := (ofAssets binanceAssets).machine.run twoOrders
    current.balance .kBinance 1 = 100 ∧ current.balance .kBinance 1 +
        current.openQty .kBinance 1 = (ofAssets binanceAssets).balance .kBinance 1 -
          (ofAssets binanceAssets).machine.tally (dropped .kBinance 1) twoOrders +
          (ofAssets binanceAssets).machine.tally (credited .kBinance 1) twoOrders := by
  have hassets (exchangeId : ExchangeId) (ticker : TickerId) (_ : ticker ≠ kTickerIdInvalid) :
      0 ≤ (ofAssets binanceAssets).balance exchangeId ticker := by
    cases exchangeId with
    | kBinance =>
        by_cases hticker : ticker = 1 <;>
          simp [ofAssets, binanceAssets, balance, Wallet.balance, Wallet.funded, hticker]
    | kBybit => simp [ofAssets, binanceAssets, balance]
    | kMexc => simp [ofAssets, binanceAssets, balance]
    | kInvalid => simp [ofAssets, binanceAssets, balance]
  have hledger := ledger_run binanceAssets hassets twoOrders (by decide +kernel)
  refine ⟨by decide +kernel, (hledger.1 .kBinance 1 (by decide)).2⟩

end ExchangeWallet

end CryptoBot.Assets

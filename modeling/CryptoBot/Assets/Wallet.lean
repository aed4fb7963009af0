/-
# The wallet of one exchange

`Wallet` is a map from tickers to balances with a table of reservations, one
for each order id.  A reservation is taken off the balance when it is made.
The responses of the exchange close it: some drop it, some give it back, and a
fill drops it and credits what was bought.

Balances are doubles in the source.  Their type is a parameter: `Float` is what
the machine computes, and the rationals, the default, are the exact reading.
`at` throws for an absent ticker; an operation that throws keeps what it wrote
before, so it returns the wallet together with the exception.

`Wallet::Update` ends in a branch that deallocates a response whose type is none
of the enumerators.  No code builds one, and the types here are the enumerators.
-/

import Mathlib.Algebra.Order.Field.Rat
import Mathlib.Tactic.Linarith
import Mathlib.Tactic.Ring
import CryptoBot.Math.Ledger
import CryptoBot.Orders.ClientResponse

namespace CryptoBot.Assets

open CryptoBot.Common CryptoBot.Math CryptoBot.Orders

/-- A quantity converted to a balance. -/
def qtyD {D : Type} [NatCast D] (qty : Qty) : D := qty.toNat

structure ReservedForTicker where
  reservedTicker : TickerId := kTickerIdInvalid
  reservedQty : Qty := kQtyInvalid
  deriving DecidableEq, Repr

inductive Exception
  | outOfRange
  deriving DecidableEq, Repr

structure Wallet (D : Type := ℚ) where
  assets : TickerId → Option D := fun _ => none
  reserves : AList fun _ : OrderId => ReservedForTicker := ∅

namespace Wallet

section Operations

variable {D : Type} [OfNat D 0] [Add D] [Sub D] [NatCast D] [LE D] [DecidableLE D]
  (wallet : Wallet D)

/-- An absent ticker counts as zero. -/
def balance (ticker : TickerId) : D := (wallet.assets ticker).getD 0

def initTicker (ticker : TickerId) : Wallet D :=
  if (wallet.assets ticker).isSome then wallet
  else { wallet with assets := Function.update wallet.assets ticker (some 0) }

/-- An assignment to `at(ticker)`. -/
def modifyAt (ticker : TickerId) (change : D → D) : Wallet D × Except Exception Unit :=
  match wallet.assets ticker with
  | some balance =>
      ({ wallet with assets := Function.update wallet.assets ticker (some (change balance)) },
        .ok ())
  | none => (wallet, .error .outOfRange)

/-- `at(ticker) += amount`. -/
def addAt (ticker : TickerId) (amount : D) : Wallet D × Except Exception Unit :=
  wallet.modifyAt ticker (· + amount)

/-- `at(ticker) -= amount`. -/
def subtractAt (ticker : TickerId) (amount : D) : Wallet D × Except Exception Unit :=
  wallet.modifyAt ticker (· - amount)

def canReserve (ticker : TickerId) (qty : Qty) : Wallet D × Bool :=
  let wallet := wallet.initTicker ticker
  (wallet, decide (qtyD qty ≤ wallet.balance ticker))

def reserve (orderId : OrderId) (ticker : TickerId) (qty : Qty) : Wallet D × Bool :=
  let (wallet, enough) := wallet.canReserve ticker qty
  if !enough then (wallet, false)
  else
    let wallet := { wallet with reserves := wallet.reserves.insert orderId ⟨ticker, qty⟩ }
    ((wallet.subtractAt ticker (qtyD qty)).1, true)

/-- `reserves_.erase(order_id)`. -/
def eraseReserve (orderId : OrderId) : Wallet D :=
  { wallet with reserves := wallet.reserves.erase orderId }

/-- `reserves_[order_id]`, which inserts a default entry for an unknown id. -/
def reserved (orderId : OrderId) : Wallet D × ReservedForTicker :=
  match wallet.reserves.lookup orderId with
  | some reserved => (wallet, reserved)
  | none => ({ wallet with reserves := wallet.reserves.insert orderId {} }, {})

/-- The block that CANCELED and INVALID share.  The entry is erased only if
`at` did not throw. -/
def giveBack (orderId : OrderId) : Wallet D × Except Exception Unit :=
  let (wallet, localReserved) := wallet.reserved orderId
  match wallet.addAt localReserved.reservedTicker (qtyD localReserved.reservedQty) with
  | (wallet, .ok ()) => (wallet.eraseReserve orderId, .ok ())
  | (wallet, .error exception) => (wallet, .error exception)

/-- The credit of a fill. -/
def credit (ticker : TickerId) (executedQty : Qty) : Wallet D × Except Exception Unit :=
  (wallet.initTicker ticker).addAt ticker (qtyD executedQty)

/-- `Wallet::Update`. -/
def update (response : MEClientResponse) : Wallet D × Except Exception Unit :=
  match response.type with
  | .accepted => (wallet.eraseReserve response.orderId, .ok ())
  | .cancelRejected => (wallet.eraseReserve response.orderId, .ok ())
  | .canceled => wallet.giveBack response.orderId
  | .filled =>
      let wallet := wallet.eraseReserve response.orderId
      match response.side with
      | .kAsk => wallet.credit response.tradingPair.first response.execQty
      | .kBid => wallet.credit response.tradingPair.second response.execQty
      | .kInvalid | .kMax => (wallet, .ok ())
  | .invalid =>
      if (wallet.reserves.lookup response.orderId).isNone then (wallet, .ok ())
      else wallet.giveBack response.orderId

end Operations

section Laws

variable {D : Type} (wallet : Wallet D)

/-! ## Maps -/

@[simp]
theorem reserves_modifyAt (ticker : TickerId) (change : D → D) :
    (wallet.modifyAt ticker change).1.reserves = wallet.reserves := by
  rw [modifyAt]
  split <;> rfl

@[simp]
theorem isSome_modifyAt (ticker other : TickerId) (change : D → D) :
    ((wallet.modifyAt ticker change).1.assets other).isSome = (wallet.assets other).isSome := by
  rw [modifyAt]
  split
  · rename_i balance hpresent
    by_cases hother : other = ticker
    · simp [hother, hpresent]
    · simp [Function.update_of_ne hother]
  · rfl

variable {wallet} in
theorem modifyAt_of_isSome {ticker : TickerId} (h : (wallet.assets ticker).isSome)
    (change : D → D) : (wallet.modifyAt ticker change).2 = .ok () := by
  obtain ⟨balance, hbalance⟩ := Option.isSome_iff_exists.mp h
  simp [modifyAt, hbalance]

variable {wallet} in
/-- `at` throws before it writes. -/
theorem modifyAt_of_none {ticker : TickerId} (h : wallet.assets ticker = none)
    (change : D → D) : wallet.modifyAt ticker change = (wallet, .error .outOfRange) := by
  simp [modifyAt, h]

@[simp]
theorem assets_reserved (orderId : OrderId) :
    (wallet.reserved orderId).1.assets = wallet.assets := by
  rw [reserved]
  split <;> rfl

theorem reserved_of_lookup {orderId : OrderId} {found : ReservedForTicker}
    (h : wallet.reserves.lookup orderId = some found) :
    wallet.reserved orderId = (wallet, found) := by
  simp [reserved, h]

theorem reserved_of_none {orderId : OrderId} (h : wallet.reserves.lookup orderId = none) :
    wallet.reserved orderId =
      ({ wallet with reserves := wallet.reserves.insert orderId {} }, {}) := by
  simp [reserved, h]

theorem lookup_reserved_of_ne {orderId other : OrderId} (h : other ≠ orderId) :
    (wallet.reserved orderId).1.reserves.lookup other = wallet.reserves.lookup other := by
  rw [reserved]
  split
  · rfl
  · exact AList.lookup_insert_ne h

theorem lookup_eraseReserve_of_ne {orderId other : OrderId} (h : other ≠ orderId) :
    (wallet.eraseReserve orderId).reserves.lookup other = wallet.reserves.lookup other :=
  AList.lookup_erase_ne h

variable [OfNat D 0]

/-! ## Balances -/

@[simp]
theorem reserves_initTicker (ticker : TickerId) :
    (wallet.initTicker ticker).reserves = wallet.reserves := by
  rw [initTicker]
  split <;> rfl

theorem isSome_initTicker (ticker : TickerId) :
    ((wallet.initTicker ticker).assets ticker).isSome := by
  rw [initTicker]
  split
  · assumption
  · simp

theorem isSome_initTicker_of_isSome {other : TickerId} (h : (wallet.assets other).isSome)
    (ticker : TickerId) : ((wallet.initTicker ticker).assets other).isSome := by
  rw [initTicker]
  split
  · exact h
  · by_cases hother : other = ticker
    · simp [hother]
    · simpa [Function.update_of_ne hother] using h

/-- A ticker that is initialised goes from absent to zero. -/
@[simp]
theorem balance_initTicker (ticker other : TickerId) :
    (wallet.initTicker ticker).balance other = wallet.balance other := by
  rw [initTicker]
  split
  · rfl
  · rename_i habsent
    by_cases hother : other = ticker
    · subst hother
      simp_all [balance]
    · simp [balance, Function.update_of_ne hother]

variable {wallet} in
theorem balance_modifyAt {ticker : TickerId} (h : (wallet.assets ticker).isSome)
    (change : D → D) (other : TickerId) : (wallet.modifyAt ticker change).1.balance other =
      if other = ticker then change (wallet.balance ticker) else wallet.balance other := by
  obtain ⟨balance, hbalance⟩ := Option.isSome_iff_exists.mp h
  by_cases hother : other = ticker
  · simp [modifyAt, Wallet.balance, hbalance, hother]
  · simp [modifyAt, Wallet.balance, hbalance, hother]

@[simp]
theorem balance_eraseReserve (orderId : OrderId) (ticker : TickerId) :
    (wallet.eraseReserve orderId).balance ticker = wallet.balance ticker := rfl

/-! ## What the responses do -/

variable [Add D] [NatCast D]

/-- An open reservation in a listed ticker goes back to its balance. -/
theorem giveBack_of_isSome (orderId : OrderId)
    (h : (wallet.assets (wallet.reserved orderId).2.reservedTicker).isSome) :
    (wallet.giveBack orderId).1.reserves = (wallet.reserved orderId).1.reserves.erase orderId ∧
      ∀ other, (wallet.giveBack orderId).1.balance other =
        if other = (wallet.reserved orderId).2.reservedTicker then
          wallet.balance (wallet.reserved orderId).2.reservedTicker +
            qtyD (wallet.reserved orderId).2.reservedQty
        else wallet.balance other := by
  set touched := (wallet.reserved orderId).1 with htouched
  set localReserved := (wallet.reserved orderId).2 with hlocal
  have hpresent : (touched.assets localReserved.reservedTicker).isSome := by
    simpa [htouched] using h
  have hgiveBack : (wallet.giveBack orderId).1 =
      ((touched.addAt localReserved.reservedTicker (qtyD localReserved.reservedQty)).1).eraseReserve
        orderId := by
    have hok := modifyAt_of_isSome hpresent (· + qtyD localReserved.reservedQty)
    simp only [giveBack, addAt, ← htouched, ← hlocal]
    split
    · rename_i next heq
      rw [heq]
    · rename_i next exception heq
      simp [heq] at hok
  rw [hgiveBack]
  have hbalance (other : TickerId) : touched.balance other = wallet.balance other := by
    simp [balance, htouched]
  constructor
  · simp [addAt, eraseReserve]
  · intro other
    rw [balance_eraseReserve, addAt, balance_modifyAt hpresent, hbalance, hbalance]

omit [OfNat D 0] in
/-- An absent ticker leaves the entry that was read, or inserted, in the table. -/
theorem giveBack_of_none (orderId : OrderId)
    (h : wallet.assets (wallet.reserved orderId).2.reservedTicker = none) :
    wallet.giveBack orderId = ((wallet.reserved orderId).1, .error .outOfRange) := by
  have habsent : (wallet.reserved orderId).1.assets (wallet.reserved orderId).2.reservedTicker =
      none := by
    simpa using h
  simp [giveBack, addAt, modifyAt_of_none habsent]

theorem lookup_giveBack_of_ne {orderId other : OrderId} (h : other ≠ orderId) :
    (wallet.giveBack orderId).1.reserves.lookup other = wallet.reserves.lookup other := by
  rw [← wallet.lookup_reserved_of_ne h]
  cases hassets : wallet.assets (wallet.reserved orderId).2.reservedTicker with
  | none => rw [wallet.giveBack_of_none orderId hassets]
  | some amount =>
      rw [(wallet.giveBack_of_isSome orderId (by simp [hassets])).1, AList.lookup_erase_ne h]

/-! ## When an operation throws -/

omit [OfNat D 0] in
theorem giveBack_result (orderId : OrderId) : (wallet.giveBack orderId).2 = .ok () ↔
    wallet.assets (wallet.reserved orderId).2.reservedTicker ≠ none := by
  cases hassets : wallet.assets (wallet.reserved orderId).2.reservedTicker with
  | none => simp [wallet.giveBack_of_none orderId hassets]
  | some amount =>
      have hpresent : ((wallet.reserved orderId).1.assets
          (wallet.reserved orderId).2.reservedTicker).isSome := by
        simp [hassets]
      have hok := modifyAt_of_isSome hpresent (· + qtyD (wallet.reserved orderId).2.reservedQty)
      simp only [giveBack, addAt]
      split
      · simp
      · rename_i heq
        simp [heq] at hok

theorem credit_result (ticker : TickerId) (executedQty : Qty) :
    (wallet.credit ticker executedQty).2 = .ok () :=
  modifyAt_of_isSome (wallet.isSome_initTicker ticker) _

/-- Only CANCELED, and INVALID for an open reservation, can throw. -/
theorem update_result (response : MEClientResponse) : (wallet.update response).2 = .ok () ↔
    ¬ ((response.type = .canceled ∨
        response.type = .invalid ∧ (wallet.reserves.lookup response.orderId).isSome) ∧
      wallet.assets (wallet.reserved response.orderId).2.reservedTicker = none) := by
  cases htype : response.type with
  | accepted => simp [update, htype]
  | cancelRejected => simp [update, htype]
  | canceled => simp [update, htype, giveBack_result]
  | filled => cases hside : response.side <;> simp [update, htype, hside, credit_result]
  | invalid =>
      cases hlookup : wallet.reserves.lookup response.orderId <;>
        simp [update, htype, hlookup, giveBack_result]

/-! ## Frame: other orders and listed tickers -/

@[simp]
theorem reserves_credit (ticker : TickerId) (executedQty : Qty) :
    (wallet.credit ticker executedQty).1.reserves = wallet.reserves := by
  simp [credit, addAt]

/-- A response touches only the reservation of its order. -/
theorem lookup_update_of_ne {response : MEClientResponse} {other : OrderId}
    (h : other ≠ response.orderId) :
    (wallet.update response).1.reserves.lookup other = wallet.reserves.lookup other := by
  rw [update]
  split
  · exact wallet.lookup_eraseReserve_of_ne h
  · exact wallet.lookup_eraseReserve_of_ne h
  · exact wallet.lookup_giveBack_of_ne h
  · dsimp only
    split <;> simp only [reserves_credit] <;> exact wallet.lookup_eraseReserve_of_ne h
  · split
    · rfl
    · exact wallet.lookup_giveBack_of_ne h

section Listed

variable {wallet} {ticker : TickerId} (hlisted : (wallet.assets ticker).isSome)
include hlisted

omit [OfNat D 0] in
theorem isSome_giveBack (orderId : OrderId) :
    ((wallet.giveBack orderId).1.assets ticker).isSome := by
  have hkept := (wallet.reserved orderId).1.isSome_modifyAt
    (wallet.reserved orderId).2.reservedTicker ticker
    (· + qtyD (wallet.reserved orderId).2.reservedQty)
  rw [assets_reserved, hlisted] at hkept
  simp only [giveBack, addAt]
  split <;> rename_i heq <;> simpa [heq, eraseReserve] using hkept

theorem isSome_credit (credited : TickerId) (executedQty : Qty) :
    ((wallet.credit credited executedQty).1.assets ticker).isSome := by
  rw [credit, addAt, isSome_modifyAt]
  exact wallet.isSome_initTicker_of_isSome hlisted credited

/-- A listed ticker stays listed. -/
theorem isSome_update (response : MEClientResponse) :
    ((wallet.update response).1.assets ticker).isSome := by
  rw [update]
  split
  · exact hlisted
  · exact hlisted
  · exact isSome_giveBack hlisted _
  · dsimp only
    have herased : ((wallet.eraseReserve response.orderId).assets ticker).isSome := hlisted
    split
    · exact isSome_credit herased _ _
    · exact isSome_credit herased _ _
    · exact herased
    · exact herased
  · split
    · exact hlisted
    · exact isSome_giveBack hlisted _

end Listed

end Laws

/-! ## What a reservation does -/

section Reserve

variable {D : Type} [OfNat D 0] [Sub D] [NatCast D] [LE D] [DecidableLE D] (wallet : Wallet D)

/-- A reservation is refused, or it is written and taken off the balance. -/
theorem reserve_cases (orderId : OrderId) (ticker : TickerId) (qty : Qty) :
    wallet.reserve orderId ticker qty = (wallet.initTicker ticker, false) ∨
      (wallet.reserve orderId ticker qty).2 = true ∧ qtyD qty ≤ wallet.balance ticker ∧
        (wallet.reserve orderId ticker qty).1.reserves =
          wallet.reserves.insert orderId ⟨ticker, qty⟩ ∧
        (∀ other, (wallet.reserve orderId ticker qty).1.balance other =
          if other = ticker then wallet.balance ticker - qtyD qty else wallet.balance other) ∧
        ∀ other, ((wallet.reserve orderId ticker qty).1.assets other).isSome =
          ((wallet.initTicker ticker).assets other).isSome := by
  by_cases henough : qtyD qty ≤ wallet.balance ticker
  · right
    set written : Wallet D :=
      { wallet.initTicker ticker with
        reserves := (wallet.initTicker ticker).reserves.insert orderId ⟨ticker, qty⟩ } with hwritten
    have hreserve : wallet.reserve orderId ticker qty =
        ((written.subtractAt ticker (qtyD qty)).1, true) := by
      simp [reserve, canReserve, henough, hwritten]
    have hpresent : (written.assets ticker).isSome := wallet.isSome_initTicker ticker
    rw [hreserve]
    refine ⟨rfl, henough, by simp [subtractAt, hwritten], ?_, ?_⟩
    · intro other
      have hinit := wallet.balance_initTicker ticker
      rw [subtractAt, balance_modifyAt hpresent, ← hinit ticker, ← hinit other]
      rfl
    · intro other
      exact written.isSome_modifyAt ticker other _
  · left
    simp [reserve, canReserve, henough]

theorem lookup_reserve_of_ne {orderId other : OrderId} (h : other ≠ orderId) (ticker : TickerId)
    (qty : Qty) : (wallet.reserve orderId ticker qty).1.reserves.lookup other =
      wallet.reserves.lookup other := by
  rcases wallet.reserve_cases orderId ticker qty with hrefused | ⟨-, -, hreserves, -, -⟩
  · simp [hrefused]
  · rw [hreserves, AList.lookup_insert_ne h]

variable {wallet} in
theorem isSome_reserve {ticker : TickerId} (hlisted : (wallet.assets ticker).isSome)
    (orderId : OrderId) (reservedTicker : TickerId) (qty : Qty) :
    ((wallet.reserve orderId reservedTicker qty).1.assets ticker).isSome := by
  have hinit := wallet.isSome_initTicker_of_isSome hlisted reservedTicker
  rcases wallet.reserve_cases orderId reservedTicker qty with hrefused | ⟨-, -, -, -, hassets⟩
  · rw [hrefused]
    exact hinit
  · rw [hassets]
    exact hinit

end Reserve

end Wallet

end CryptoBot.Assets

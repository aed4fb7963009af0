/-
# Cancelled orders

What the operations of one order do to the balances, while the operations of
other orders run in between.  The net effect of an order is the tally of the
balance changes of its own operations, in the values of the doubles.

A cancelled order has no net effect as long as its reservation is in the table
when CANCELED arrives.  ACCEPTED and CANCEL_REJECTED erase the reservation; the
CANCELED that follows then reads the default entry, which names no valid ticker.

Balances are doubles, so a balance that is too large for a quantity takes it off
rounded, and gives it back rounded.  The law is about the orders whose two
operations are exact, as all are whose balances are whole numbers up to two to
the 53rd.
-/

import CryptoBot.Assets.Wallet
import CryptoBot.Math.Rounding

namespace CryptoBot.Assets

open CryptoBot.Common CryptoBot.Math CryptoBot.Math.Doubles CryptoBot.Orders

inductive Operation
  | canReserve (ticker : TickerId) (qty : Qty)
  | reserve (orderId : OrderId) (ticker : TickerId) (qty : Qty)
  | update (response : MEClientResponse)
  deriving DecidableEq, Repr

/-- What a call hands back to its caller. -/
inductive Outcome
  | returned (value : Bool)
  | updated (result : Except Exception Unit)

namespace Operation

/-- The order an operation is about. -/
def orderId : Operation → Option OrderId
  | .canReserve _ _ => none
  | .reserve orderId _ _ => some orderId
  | .update response => some response.orderId

/-- A response that neither ends the order nor fills it. -/
def Acknowledges : Operation → Prop
  | .update response => response.type = .accepted ∨ response.type = .cancelRejected
  | _ => False

instance : DecidablePred Acknowledges
  | .canReserve _ _ => inferInstanceAs (Decidable False)
  | .reserve _ _ _ => inferInstanceAs (Decidable False)
  | .update _ => inferInstanceAs (Decidable (_ ∨ _))

end Operation

namespace Wallet

section Runs

variable {D : Type} [OfNat D 0] [Add D] [Sub D] [NatCast D] [LE D] [DecidableLE D]

def step (wallet : Wallet D) : Operation → Wallet D × List Outcome
  | .canReserve ticker qty =>
      let (next, enough) := wallet.canReserve ticker qty
      (next, [.returned enough])
  | .reserve orderId ticker qty =>
      let (next, enough) := wallet.reserve orderId ticker qty
      (next, [.returned enough])
  | .update response =>
      let (next, result) := wallet.update response
      (next, [.updated result])

/-- The runs of a wallet. -/
def machine (wallet : Wallet D) : Machine (Wallet D) Operation Outcome := ⟨wallet, step⟩

/-! ## Steps -/

theorem isSome_step {wallet : Wallet D} {ticker : TickerId} (h : (wallet.assets ticker).isSome)
    (operation : Operation) : ((wallet.step operation).1.assets ticker).isSome := by
  cases operation with
  | canReserve checked qty => exact wallet.isSome_initTicker_of_isSome h checked
  | reserve orderId reservedTicker qty => exact isSome_reserve h orderId reservedTicker qty
  | update response => exact isSome_update h response

theorem lookup_step_of_ne (wallet : Wallet D) {operation : Operation} {orderId : OrderId}
    (h : operation.orderId ≠ some orderId) :
    (wallet.step operation).1.reserves.lookup orderId = wallet.reserves.lookup orderId := by
  cases operation with
  | canReserve ticker qty => simp [step, canReserve]
  | reserve other ticker qty =>
      exact wallet.lookup_reserve_of_ne (fun heq => h (by simp [Operation.orderId, heq])) ticker qty
  | update response =>
      exact wallet.lookup_update_of_ne fun heq => h (by simp [Operation.orderId, heq])

/-- An acknowledgement erases the reservation of its order and changes no
balance. -/
theorem step_of_acknowledges (wallet : Wallet D) {operation : Operation} {orderId : OrderId}
    (hid : operation.orderId = some orderId) (h : operation.Acknowledges) :
    (wallet.step operation).1 = wallet.eraseReserve orderId := by
  cases operation with
  | canReserve ticker qty => exact h.elim
  | reserve other ticker qty => exact h.elim
  | update response =>
      obtain rfl : response.orderId = orderId := by simpa [Operation.orderId] using hid
      rcases h with haccepted | hrejected
      · simp [step, update, haccepted]
      · simp [step, update, hrejected]

/-! ## From the reservation to the cancel -/

/-- The reservation is in the table until the first acknowledgement erases it. -/
structure Pending (orderId : OrderId) (ticker : TickerId) (qty : Qty) (acknowledged : Prop)
    (wallet : Wallet D) : Prop where
  listed : (wallet.assets ticker).isSome
  held : ¬ acknowledged → wallet.reserves.lookup orderId = some ⟨ticker, qty⟩
  erased : acknowledged → wallet.reserves.lookup orderId = none

variable {wallet : Wallet D} {orderId : OrderId} {ticker : TickerId} {qty : Qty}

omit [Add D] in
theorem pending_reserve (hreserved : (wallet.reserve orderId ticker qty).2 = true) :
    Pending orderId ticker qty False (wallet.reserve orderId ticker qty).1 := by
  rcases wallet.reserve_cases orderId ticker qty with hrefused | ⟨-, -, hreserves, -, hassets⟩
  · simp [hrefused] at hreserved
  · refine ⟨?_, ?_, False.elim⟩
    · rw [hassets]
      exact wallet.isSome_initTicker ticker
    · intro _
      rw [hreserves, AList.lookup_insert]

theorem Pending.step {acknowledged : Prop} (h : Pending orderId ticker qty acknowledged wallet)
    {operation : Operation} (hown : operation.orderId = some orderId → operation.Acknowledges) :
    Pending orderId ticker qty (acknowledged ∨ operation.orderId = some orderId)
      (wallet.step operation).1 := by
  refine ⟨isSome_step h.listed operation, ?_, ?_⟩
  · intro hfresh
    rw [not_or] at hfresh
    rw [wallet.lookup_step_of_ne hfresh.2]
    exact h.held hfresh.1
  · intro hseen
    by_cases hid : operation.orderId = some orderId
    · rw [wallet.step_of_acknowledges hid (hown hid)]
      exact AList.lookup_erase orderId wallet.reserves
    · rw [wallet.lookup_step_of_ne hid]
      exact h.erased (hseen.resolve_right hid)

/-- Up to the cancel the reservation is there unless it was acknowledged. -/
theorem pending_run (hreserved : (wallet.reserve orderId ticker qty).2 = true)
    {operations : List Operation} (hown : ∀ operation ∈ operations,
      operation.orderId = some orderId → operation.Acknowledges) :
    Pending orderId ticker qty (∃ operation ∈ operations, operation.orderId = some orderId)
        (wallet.machine.run (.reserve orderId ticker qty :: operations)) := by
  -- The induction is on the operations handled since the reservation.
  induction operations using List.reverseRecOn with
  | nil =>
      simpa [Machine.run, Machine.runFrom, machine, step] using pending_reserve hreserved
  | append_singleton operations operation ih =>
      have hpending := ih fun earlier hmem => hown earlier (by simp [hmem])
      have hseen : (∃ handled ∈ operations ++ [operation], handled.orderId = some orderId) ↔
          (∃ handled ∈ operations, handled.orderId = some orderId) ∨
            operation.orderId = some orderId := by
        simp [or_and_right, exists_or]
      rw [← List.cons_append, Machine.run_concat, hseen]
      exact hpending.step (hown operation (by simp))

/-! ## The cancel -/

omit [Sub D] [LE D] [DecidableLE D] in
theorem update_canceled {canceled : MEClientResponse} (htype : canceled.type = .canceled) :
    wallet.update canceled = wallet.giveBack canceled.orderId := by
  simp [update, htype]

omit [Sub D] [LE D] [DecidableLE D] in
/-- A reservation in the table is given back. -/
theorem balance_giveBack_of_lookup (hlisted : (wallet.assets ticker).isSome)
    (hheld : wallet.reserves.lookup orderId = some ⟨ticker, qty⟩) (other : TickerId) :
    (wallet.giveBack orderId).1.balance other =
      if other = ticker then wallet.balance ticker + qtyD qty else wallet.balance other := by
  have hreserved := wallet.reserved_of_lookup hheld
  have hback := (wallet.giveBack_of_isSome orderId (by simpa [hreserved])).2 other
  simpa only [hreserved] using hback

omit [Sub D] [LE D] [DecidableLE D] in
/-- An unknown order credits the default entry, if its ticker is listed. -/
theorem balance_giveBack_of_none (hnone : wallet.reserves.lookup orderId = none)
    (other : TickerId) :
    (wallet.giveBack orderId).1.balance other =
      if other = kTickerIdInvalid ∧ (wallet.assets kTickerIdInvalid).isSome then
        wallet.balance kTickerIdInvalid + qtyD kQtyInvalid
      else wallet.balance other := by
  have hreserved := wallet.reserved_of_none hnone
  cases hassets : wallet.assets kTickerIdInvalid with
  | none =>
      have hraise := wallet.giveBack_of_none orderId (by simpa [hreserved])
      simp [hraise, balance]
  | some amount =>
      have hback := (wallet.giveBack_of_isSome orderId (by simp [hreserved, hassets])).2 other
      simpa [hreserved] using hback

end Runs

/-! ## Values -/

section Values

variable {wallet : Wallet Float} {orderId : OrderId} {ticker : TickerId} {qty : Qty}

/-- The change of a balance by an operation of the order, and nothing for an
operation of another order. -/
def effect (orderId : OrderId) (ticker : TickerId) (wallet : Wallet Float)
    (operation : Operation) : ℚ :=
  if operation.orderId = some orderId then
    value ((wallet.step operation).1.balance ticker) - value (wallet.balance ticker)
  else 0

/-- The net effect of an order on a balance. -/
def netEffect (wallet : Wallet Float) (orderId : OrderId) (ticker : TickerId)
    (operations : List Operation) : ℚ :=
  wallet.machine.tally (effect orderId ticker) operations

/-- The value of a quantity that was converted to a balance. -/
def qtyValue (qty : Qty) : ℚ := value (qtyD qty)

/-- A double holds what is left when the quantity is taken off the balance. -/
def TakesExactly (wallet : Wallet Float) (ticker : TickerId) (qty : Qty) : Prop :=
  (wallet.balance ticker).isFinite ∧ Representable (value (wallet.balance ticker) - qtyValue qty)

/-- If the ticker of the reservation is listed, a double holds its balance with the reserved
quantity.  The reservation is the default one for an order that has none. -/
def GivesExactly (wallet : Wallet Float) (orderId : OrderId) : Prop :=
  let reserved := (wallet.reserved orderId).2
  (wallet.assets reserved.reservedTicker).isSome →
    (wallet.balance reserved.reservedTicker).isFinite ∧
      Representable (value (wallet.balance reserved.reservedTicker) + qtyValue reserved.reservedQty)

theorem isFinite_qtyD (qty : Qty) : (qtyD qty : Float).isFinite := isFinite_natCast qty.toNat_lt

theorem qtyValue_eq_zero_iff : qtyValue qty = 0 ↔ qty = 0 := by
  rw [qtyValue, qtyD, value_natCast_eq_zero_iff qty.toNat_lt, ← UInt64.toNat_inj]
  rfl

/-- Whole numbers are taken off exactly. -/
theorem takesExactly_of_whole {amount : ℕ} (hbalance : wallet.balance ticker = amount)
    (hamount : amount ≤ 2 ^ 53) (hqty : qty.toNat ≤ 2 ^ 53) : wallet.TakesExactly ticker qty := by
  have hqtyValue : qtyValue qty = qty.toNat := value_natCast_of_le hqty
  have hwhole := representable_of_natAbs_le (n := amount - qty.toNat) (by omega)
  push_cast at hwhole
  rw [TakesExactly, hbalance, value_natCast_of_le hamount, hqtyValue]
  exact ⟨isFinite_natCast (by omega), hwhole⟩

theorem givesExactly_of_whole {amount : ℕ} (hheld : wallet.reserves.lookup orderId =
      some ⟨ticker, qty⟩) (hbalance : wallet.balance ticker = amount)
    (hsum : amount + qty.toNat ≤ 2 ^ 53) : wallet.GivesExactly orderId := by
  intro _
  have hqtyValue : qtyValue qty = qty.toNat := value_natCast_of_le (by omega)
  have hwhole := representable_of_natAbs_le (n := amount + qty.toNat) (by omega)
  push_cast at hwhole
  simp only [wallet.reserved_of_lookup hheld]
  rw [hbalance, value_natCast_of_le (by omega), hqtyValue]
  exact ⟨isFinite_natCast (by omega), hwhole⟩

/-! ## The effects -/

theorem effect_of_acknowledges (wallet : Wallet Float) {operation : Operation} (other : TickerId)
    (hown : operation.orderId = some orderId → operation.Acknowledges) :
    effect orderId other wallet operation = 0 := by
  by_cases hid : operation.orderId = some orderId
  · simp [effect, hid, wallet.step_of_acknowledges hid (hown hid)]
  · simp [effect, hid]

theorem effect_reserve (hreserved : (wallet.reserve orderId ticker qty).2 = true)
    (hexact : wallet.TakesExactly ticker qty) (other : TickerId) :
    effect orderId other wallet (.reserve orderId ticker qty) =
      if other = ticker then -qtyValue qty else 0 := by
  rcases wallet.reserve_cases orderId ticker qty with hrefused | ⟨-, -, -, hbalance, -⟩
  · simp [hrefused] at hreserved
  · simp only [effect, Operation.orderId, if_true, step, hbalance]
    split
    · rename_i hother
      subst hother
      rw [value_sub hexact.1 (isFinite_qtyD qty) hexact.2, sub_sub_cancel_left, qtyValue]
    · exact sub_self _

/-- Up to the cancel the order has taken its quantity off its ticker. -/
theorem netEffect_reserve (hreserved : (wallet.reserve orderId ticker qty).2 = true)
    (hexact : wallet.TakesExactly ticker qty) {operations : List Operation}
    (hown : ∀ operation ∈ operations,
      operation.orderId = some orderId → operation.Acknowledges) (other : TickerId) :
    wallet.netEffect orderId other (.reserve orderId ticker qty :: operations) =
      if other = ticker then -qtyValue qty else 0 := by
  induction operations using List.reverseRecOn with
  | nil =>
      rw [← effect_reserve hreserved hexact]
      simp [netEffect, Machine.tally, Machine.tallyFrom, machine]
  | append_singleton operations operation ih =>
      rw [← List.cons_append, netEffect, Machine.tally_concat,
        effect_of_acknowledges _ other (hown operation (by simp)), add_zero]
      exact ih fun earlier hmem => hown earlier (by simp [hmem])

/-- The change CANCELED makes to a balance. -/
theorem effect_canceled {acknowledged : Prop}
    (hpending : Pending orderId ticker qty acknowledged wallet)
    (hexact : wallet.GivesExactly orderId) {canceled : MEClientResponse}
    (hid : canceled.orderId = orderId) (htype : canceled.type = .canceled) (other : TickerId) :
    (¬ acknowledged → effect orderId other wallet (.update canceled) =
        if other = ticker then qtyValue qty else 0) ∧
      (acknowledged → effect orderId other wallet (.update canceled) =
        if other = kTickerIdInvalid ∧ (wallet.assets kTickerIdInvalid).isSome then
          qtyValue kQtyInvalid else 0) := by
  subst hid
  have heffect : effect canceled.orderId other wallet (.update canceled) =
      value ((wallet.giveBack canceled.orderId).1.balance other) -
        value (wallet.balance other) := by
    rw [← update_canceled htype]
    simp only [effect, Operation.orderId, if_true, step]
  rw [heffect]
  constructor
  · intro hfresh
    have hheld := hpending.held hfresh
    rw [GivesExactly, wallet.reserved_of_lookup hheld] at hexact
    obtain ⟨hfinite, hsum⟩ := hexact hpending.listed
    rw [balance_giveBack_of_lookup hpending.listed hheld]
    split
    · rename_i hother
      subst hother
      rw [value_add hfinite (isFinite_qtyD qty) hsum, add_sub_cancel_left, qtyValue]
    · exact sub_self _
  · intro hseen
    have hnone := hpending.erased hseen
    rw [GivesExactly, wallet.reserved_of_none hnone] at hexact
    rw [balance_giveBack_of_none hnone]
    split
    · rename_i hdefault
      obtain ⟨hfinite, hsum⟩ := hexact hdefault.2
      rw [hdefault.1, value_add hfinite (isFinite_qtyD _) hsum, add_sub_cancel_left, qtyValue]
    · exact sub_self _

/-- The default entry makes up for a reservation that is lost only if there was
nothing to lose, or if the reservation was worth as much. -/
theorem default_makes_up_iff {listed : Option Float}
    (hlisted : ticker = kTickerIdInvalid → listed.isSome) :
    (∀ other : TickerId, (if other = ticker then -qtyValue qty else 0) +
        (if other = kTickerIdInvalid ∧ listed.isSome then qtyValue kQtyInvalid else 0) = 0) ↔
      (qty = 0 ∧ listed = none) ∨
        (ticker = kTickerIdInvalid ∧ qtyValue qty = qtyValue kQtyInvalid) := by
  have hmax : qtyValue kQtyInvalid ≠ 0 := by
    rw [ne_eq, qtyValue_eq_zero_iff]
    decide
  cases listed with
  | none =>
      constructor
      · intro hzero
        have hticker := hzero ticker
        simp only [if_true, Option.isSome_none, Bool.false_eq_true, and_false, if_false,
          add_zero, neg_eq_zero] at hticker
        exact .inl ⟨qtyValue_eq_zero_iff.mp hticker, rfl⟩
      · rintro (⟨hqty, -⟩ | ⟨hticker, -⟩) other
        · simp [qtyValue_eq_zero_iff.mpr hqty]
        · simpa using hlisted hticker
  | some amount =>
      constructor
      · intro hzero
        have hdefault := hzero kTickerIdInvalid
        simp only [Option.isSome_some, and_self, if_true] at hdefault
        by_cases hticker : kTickerIdInvalid = ticker
        · rw [if_pos hticker] at hdefault
          exact .inr ⟨hticker.symm, by linarith⟩
        · rw [if_neg hticker, zero_add] at hdefault
          exact (hmax hdefault).elim
      · rintro (⟨-, habsent⟩ | ⟨hticker, hqty⟩) other
        · simp at habsent
        · by_cases hother : other = kTickerIdInvalid <;> simp [hticker, hqty, hother]

/-- A cancelled order whose reservation and cancel are exact leaves every balance as it was
if and only if no acknowledgement came before the cancel, up to the two reservations that the
default entry cannot tell from its own: nothing at all while the invalid ticker is not listed,
and a quantity of the invalid ticker that is worth the invalid quantity. -/
theorem netEffect_canceled_eq_zero_iff (wallet : Wallet Float) (orderId : OrderId)
    (ticker : TickerId) (qty : Qty) (hreserved : (wallet.reserve orderId ticker qty).2 = true)
    (operations : List Operation) (hown : ∀ operation ∈ operations,
      operation.orderId = some orderId → operation.Acknowledges)
    (canceled : MEClientResponse) (hid : canceled.orderId = orderId)
    (htype : canceled.type = .canceled) (htakes : wallet.TakesExactly ticker qty)
    (hgives : (wallet.machine.run
      (.reserve orderId ticker qty :: operations)).GivesExactly orderId) :
    (∀ other, wallet.netEffect orderId other
        (.reserve orderId ticker qty :: operations ++ [.update canceled]) = 0) ↔
      (∀ operation ∈ operations, operation.orderId ≠ some orderId) ∨
        (qty = 0 ∧ (wallet.machine.run (.reserve orderId ticker qty :: operations)).assets
          kTickerIdInvalid = none) ∨
        (ticker = kTickerIdInvalid ∧ qtyValue qty = qtyValue kQtyInvalid) := by
  have hpending := pending_run hreserved hown
  have hbefore := netEffect_reserve hreserved htakes hown
  set before := wallet.machine.run (.reserve orderId ticker qty :: operations) with hrun
  have hnet (other : TickerId) : wallet.netEffect orderId other
      (.reserve orderId ticker qty :: operations ++ [.update canceled]) =
        (if other = ticker then -qtyValue qty else 0) +
          effect orderId other before (.update canceled) := by
    rw [netEffect, Machine.tally_concat, ← hrun]
    rw [← hbefore other, netEffect]
  by_cases hseen : ∃ operation ∈ operations, operation.orderId = some orderId
  · have hnot : ¬ ∀ operation ∈ operations, operation.orderId ≠ some orderId := by
      push Not
      exact hseen
    simp only [hnet, (effect_canceled hpending hgives hid htype _).2 hseen, hnot, false_or]
    -- The ticker of the reservation is listed since `reserve`.
    apply default_makes_up_iff
    rintro rfl
    exact hpending.listed
  · have hall : ∀ operation ∈ operations, operation.orderId ≠ some orderId := by
      push Not at hseen
      exact hseen
    simp only [hnet, (effect_canceled hpending hgives hid htype _).1 hseen]
    refine iff_of_true (fun other => ?_) (.inl hall)
    by_cases hother : other = ticker <;> simp [hother]

end Values

/-- A wallet that holds 200 of one ticker. -/
def funded {D : Type} [NatCast D] : Wallet D :=
  { assets := Function.update (fun _ => none) 1 (some (200 : ℕ)) }

/-- A response to the first order. -/
def answer (type : ClientResponseType) : MEClientResponse :=
  { exchangeId := .kBinance, type, tradingPair := ⟨2, 1⟩, orderId := 1, side := .kAsk }

/-- A second order is reserved and filled before the first one is cancelled. -/
theorem netEffect_funded :
    ((funded : Wallet Float).reserve 1 1 100).2 = true ∧
      ∀ other, (funded : Wallet Float).netEffect 1 other
        [.reserve 1 1 100, .reserve 2 1 50, .update { answer .filled with orderId := 2 },
          .update (answer .canceled)] = 0 := by
  have hreserved : ((funded : Wallet Float).reserve 1 1 100).2 = true := by decide +kernel
  have hfunded : (funded : Wallet Float).balance 1 = (200 : ℕ) := by decide +kernel
  have hbefore : ((funded : Wallet Float).machine.run [.reserve 1 1 100, .reserve 2 1 50,
      .update { answer .filled with orderId := 2 }]).balance 1 = (50 : ℕ) := by decide +kernel
  have hheld : ((funded : Wallet Float).machine.run [.reserve 1 1 100, .reserve 2 1 50,
      .update { answer .filled with orderId := 2 }]).reserves.lookup 1 = some ⟨1, 100⟩ := by
    decide +kernel
  refine ⟨hreserved, ?_⟩
  exact (netEffect_canceled_eq_zero_iff funded 1 1 100 hreserved
    [.reserve 2 1 50, .update { answer .filled with orderId := 2 }] (by decide)
    (answer .canceled) rfl rfl (takesExactly_of_whole hfunded (by decide) (by decide))
    (givesExactly_of_whole hheld hbefore (by decide))).mpr (.inl (by decide))

/-- The order was accepted before it was cancelled: its 100 are gone. -/
theorem netEffect_accepted_ne_zero :
    ((funded : Wallet Float).reserve 1 1 100).2 = true ∧
      (funded : Wallet Float).netEffect 1 1 [.reserve 1 1 100, .update (answer .accepted),
        .update (answer .canceled)] = -100 := by
  decide +kernel

/-- A balance above two to the 53rd loses two by a reservation of one that is given back. -/
example :
    ({ assets := Function.update (fun _ => none) 1 (some (2 ^ 53 + 2 : ℕ)) } :
      Wallet Float).netEffect 1 1 [.reserve 1 1 1, .update (answer .canceled)] = -2 := by
  decide +kernel

end Wallet

end CryptoBot.Assets

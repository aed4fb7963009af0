/-
# Responses to orders without a reservation

The branches of `Wallet::Update` treat a missing reservation differently.
ACCEPTED and CANCEL_REJECTED erase a key that is not there, INVALID checks the
table first, and CANCELED reads `reserves_[order_id]`, which inserts the default
entry.  The default entry names the invalid ticker: `at` throws when that ticker
is not listed, with the default entry left in the table, and credits it with the
invalid quantity when it is.

Along a run without such a CANCELED every reservation is in a listed ticker, so
no response throws.
-/

import CryptoBot.Assets.Cancellation

namespace CryptoBot.Assets

open CryptoBot.Common CryptoBot.Math CryptoBot.Orders

namespace Wallet

/-- `Update` returns, and a response that is no fill of an order without a
reservation changes nothing. -/
structure ServesResponse (wallet : Wallet) (response : MEClientResponse) : Prop where
  returns : (wallet.update response).2 = .ok ()
  unchanged : wallet.reserves.lookup response.orderId = none →
    response.type ∈ [.accepted, .canceled, .cancelRejected, .invalid] →
      (wallet.update response).1.assets = wallet.assets ∧
        (wallet.update response).1.reserves = wallet.reserves

/-- What a step has to meet: calls other than `Update` promise nothing here. -/
def Serves (wallet : Wallet) : Operation → Prop
  | .update response => wallet.ServesResponse response
  | .canReserve _ _ | .reserve _ _ _ => True

/-- A CANCELED for an order without a reservation. -/
def CancelsUnreserved (wallet : Wallet) : Operation → Prop
  | .update response =>
      response.type = .canceled ∧ wallet.reserves.lookup response.orderId = none
  | .canReserve _ _ | .reserve _ _ _ => False

instance (wallet : Wallet) : DecidablePred wallet.CancelsUnreserved
  | .canReserve _ _ => inferInstanceAs (Decidable False)
  | .reserve _ _ _ => inferInstanceAs (Decidable False)
  | .update _ => inferInstanceAs (Decidable (_ ∧ _))

/-- Every reservation is in a listed ticker. -/
def ReservesListed (wallet : Wallet) : Prop :=
  ∀ orderId reserved, wallet.reserves.lookup orderId = some reserved →
    (wallet.assets reserved.reservedTicker).isSome

variable {wallet : Wallet}

/-! ## One response -/

/-- Erasing a key that is not in the table. -/
theorem eraseReserve_of_none {orderId : OrderId} (h : wallet.reserves.lookup orderId = none) :
    wallet.eraseReserve orderId = wallet := by
  have habsent : orderId ∉ wallet.reserves := by
    rwa [← AList.lookup_eq_none]
  have herase : wallet.reserves.erase orderId = wallet.reserves := by
    apply AList.ext
    exact List.kerase_of_notMem_keys habsent
  simp [eraseReserve, herase]

/-- CANCELED is the one type that changes the wallet for an unknown order. -/
theorem update_of_lookup_none {response : MEClientResponse}
    (hnone : wallet.reserves.lookup response.orderId = none)
    (htype : response.type ∈ [.accepted, .canceled, .cancelRejected, .invalid])
    (hcanceled : response.type ≠ .canceled) : (wallet.update response).1 = wallet := by
  cases hcase : response.type with
  | accepted => simpa [update, hcase] using eraseReserve_of_none hnone
  | cancelRejected => simpa [update, hcase] using eraseReserve_of_none hnone
  | canceled => exact (hcanceled hcase).elim
  | filled => simp [hcase] at htype
  | invalid => simp [update, hcase, hnone]

/-- A reservation in a listed ticker can be given back. -/
theorem ReservesListed.update_returns (hlisted : wallet.ReservesListed)
    {response : MEClientResponse} (hreserved : response.type = .canceled →
      wallet.reserves.lookup response.orderId ≠ none) :
    (wallet.update response).2 = .ok () := by
  rw [update_result]
  rintro ⟨htype, habsent⟩
  have hopen : (wallet.reserves.lookup response.orderId).isSome := by
    rcases htype with hcanceled | ⟨-, hopen⟩
    · exact Option.ne_none_iff_isSome.mp (hreserved hcanceled)
    · exact hopen
  obtain ⟨reserved, hlookup⟩ := Option.isSome_iff_exists.mp hopen
  have hpresent := hlisted response.orderId reserved hlookup
  rw [wallet.reserved_of_lookup hlookup] at habsent
  simp [habsent] at hpresent

theorem qtyD_eq_zero {amount : Qty} : (qtyD amount : ℚ) = 0 ↔ amount = 0 := by
  rw [qtyD, Nat.cast_eq_zero, ← UInt64.toNat_inj]
  rfl

/-- A CANCELED without a reservation throws, or it credits the invalid ticker. -/
theorem not_serves_of_cancelsUnreserved {operation : Operation}
    (h : wallet.CancelsUnreserved operation) : ¬ wallet.Serves operation := by
  cases operation with
  | canReserve ticker qty => exact h.elim
  | reserve orderId ticker qty => exact h.elim
  | update response =>
      obtain ⟨htype, hnone⟩ := h
      intro hserves
      have hsame := (hserves.unchanged hnone (by simp [htype])).1
      have hlisted : wallet.assets kTickerIdInvalid ≠ none := by
        intro habsent
        refine (wallet.update_result response).mp hserves.returns ⟨.inl htype, ?_⟩
        simpa [wallet.reserved_of_none hnone] using habsent
      have hcredit := balance_giveBack_of_none hnone kTickerIdInvalid
      rw [update_canceled htype] at hsame
      rw [if_pos ⟨rfl, Option.ne_none_iff_isSome.mp hlisted⟩, balance, hsame, ← balance] at hcredit
      have hmax : (qtyD kQtyInvalid : ℚ) ≠ 0 := by
        rw [ne_eq, qtyD_eq_zero]
        decide
      exact hmax (by linarith)

theorem ReservesListed.serves (hlisted : wallet.ReservesListed) {operation : Operation}
    (h : ¬ wallet.CancelsUnreserved operation) : wallet.Serves operation := by
  cases operation with
  | canReserve ticker qty => trivial
  | reserve orderId ticker qty => trivial
  | update response =>
      have hreserved : response.type = .canceled →
          wallet.reserves.lookup response.orderId ≠ none := by
        intro htype hnone
        exact h ⟨htype, hnone⟩
      exact
        { returns := hlisted.update_returns hreserved
          unchanged := by
            intro hnone htype
            have hsame := update_of_lookup_none hnone htype fun hcanceled =>
              hreserved hcanceled hnone
            simp [hsame] }

/-! ## Reservations stay in listed tickers -/

theorem lookup_of_lookup_giveBack {orderId : OrderId} {reserved : ReservedForTicker}
    (hopen : wallet.reserves.lookup orderId ≠ none)
    (h : (wallet.giveBack orderId).1.reserves.lookup orderId = some reserved) :
    wallet.reserves.lookup orderId = some reserved := by
  obtain ⟨found, hfound⟩ := Option.ne_none_iff_exists'.mp hopen
  have hreserved := wallet.reserved_of_lookup hfound
  cases hassets : wallet.assets found.reservedTicker with
  | none =>
      rw [wallet.giveBack_of_none orderId (by simpa [hreserved] using hassets), hreserved] at h
      exact h
  | some amount =>
      rw [(wallet.giveBack_of_isSome orderId (by simp [hreserved, hassets])).1,
        AList.lookup_erase] at h
      cases h

/-- Only a CANCELED without a reservation writes to the table. -/
theorem lookup_of_lookup_update {response : MEClientResponse} (hreserved : response.type =
      .canceled → wallet.reserves.lookup response.orderId ≠ none)
    {orderId : OrderId} {reserved : ReservedForTicker}
    (h : (wallet.update response).1.reserves.lookup orderId = some reserved) :
    wallet.reserves.lookup orderId = some reserved := by
  by_cases hother : orderId = response.orderId
  · subst hother
    cases htype : response.type with
    | accepted => simp [update, htype, eraseReserve] at h
    | cancelRejected => simp [update, htype, eraseReserve] at h
    | canceled =>
        rw [update_canceled htype] at h
        exact lookup_of_lookup_giveBack (hreserved htype) h
    | filled =>
        cases hside : response.side <;> simp [update, htype, hside, eraseReserve] at h
    | invalid =>
        cases hlookup : wallet.reserves.lookup response.orderId with
        | none => simp [update, htype, hlookup] at h
        | some found =>
            rw [← hlookup]
            refine lookup_of_lookup_giveBack (by simp [hlookup]) ?_
            simpa [update, htype, hlookup] using h
  · rwa [wallet.lookup_update_of_ne hother] at h

theorem ReservesListed.reserve (hlisted : wallet.ReservesListed) (orderId : OrderId)
    (ticker : TickerId) (qty : Qty) : (wallet.reserve orderId ticker qty).1.ReservesListed := by
  intro found reserved hlookup
  by_cases hfound : found = orderId
  · subst hfound
    rcases wallet.reserve_cases found ticker qty with hrefused | ⟨-, -, hreserves, -, hassets⟩
    · rw [hrefused, reserves_initTicker] at hlookup
      exact isSome_reserve (hlisted found reserved hlookup) found ticker qty
    · rw [hreserves, AList.lookup_insert] at hlookup
      cases hlookup
      rw [hassets]
      exact wallet.isSome_initTicker ticker
  · rw [wallet.lookup_reserve_of_ne hfound] at hlookup
    exact isSome_reserve (hlisted found reserved hlookup) orderId ticker qty

theorem ReservesListed.step (hlisted : wallet.ReservesListed) {operation : Operation}
    (h : ¬ wallet.CancelsUnreserved operation) : (wallet.step operation).1.ReservesListed := by
  cases operation with
  | canReserve ticker qty =>
      intro orderId reserved hlookup
      refine isSome_step (hlisted orderId reserved ?_) (.canReserve ticker qty)
      simpa [Wallet.step, canReserve] using hlookup
  | reserve orderId ticker qty => exact hlisted.reserve orderId ticker qty
  | update response =>
      intro orderId reserved hlookup
      refine isSome_update (hlisted orderId reserved ?_) response
      refine lookup_of_lookup_update (fun htype hnone => h ⟨htype, hnone⟩) hlookup

/-! ## Runs -/

/-- The reservations of a run that starts without any. -/
theorem reservesListed_run (assets : TickerId → Option ℚ) {operations : List Operation}
    (h : EveryStep (fun before operation =>
      ¬ ((machine { assets }).run before).CancelsUnreserved operation) operations) :
    ((machine { assets }).run operations).ReservesListed := by
  apply (machine { assets }).invariant_of_everyStep
    (fun wallet _ operation => ¬ wallet.CancelsUnreserved operation)
    (fun wallet _ => wallet.ReservesListed) ?_ ?_ h
  · intro orderId reserved hlookup
    simp [machine] at hlookup
  · intro wallet _ operation hlisted hcondition
    exact hlisted.step hcondition

/-- In a run from any balances and no reservations, every `Update` returns and
leaves the wallet as it is for an order without a reservation if and only if no
CANCELED is for an order without a reservation. -/
theorem serves_iff_not_cancelsUnreserved (assets : TickerId → Option ℚ)
    (operations : List Operation) :
    EveryStep (fun before operation =>
        ((machine { assets }).run before).Serves operation) operations ↔
      EveryStep (fun before operation =>
        ¬ ((machine { assets }).run before).CancelsUnreserved operation) operations := by
  constructor
  · intro hserves before operation after heq hcancels
    exact not_serves_of_cancelsUnreserved hcancels (hserves before operation after heq)
  · intro hcondition
    refine hcondition.of_forall_before ?_
    intro before operation hbefore hlast
    exact (reservesListed_run assets hbefore).serves hlast

/-- An order is accepted, which erases its reservation, and cancelled: `at`
throws, and the default entry stays in the table. -/
theorem not_serves_accepted_canceled :
    ¬ EveryStep (fun before operation => (funded.machine.run before).Serves operation)
      [.reserve 1 1 100, .update (answer .accepted), .update (answer .canceled)] := by
  intro hserves
  have hlast := hserves [.reserve 1 1 100, .update (answer .accepted)] (.update (answer .canceled))
    [] rfl
  have hraise : ((funded.machine.run [.reserve 1 1 100, .update (answer .accepted)]).update
      (answer .canceled)).2 ≠ .ok () := by
    decide +kernel
  exact hraise hlast.returns

end Wallet

end CryptoBot.Assets

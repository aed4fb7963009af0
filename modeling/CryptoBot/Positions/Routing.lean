/-
# Routing to the position keepers

`exchange::PositionKeeper` holds a map from exchanges to pointers to keepers and hands
every call to the keeper of its exchange.  The calls that write look the exchange up
before they follow the pointer.  `GetPositionInfo` does not: it indexes the map, which
inserts a null pointer for an exchange that is not there, and follows it.

An entry of the map is missing, null or an address, and two exchanges may share an
address.  So the frame is stated for the cells of memory: a call for an exchange and a
pair changes the info of the pair in the keeper of the exchange, and no other cell.
-/

import CryptoBot.Math.Machine
import CryptoBot.Positions.PositionKeeper

namespace CryptoBot.Positions

open CryptoBot.Book CryptoBot.Common CryptoBot.Math CryptoBot.Orders

def PositionKeeper.updateBBO (keeper : PositionKeeper) (tradingPair : TradingPair) (bbo : BBO) :
    PositionKeeper :=
  ⟨Function.update keeper.tickerPosition tradingPair
    ((keeper.tickerPosition tradingPair).updateBBO bbo)⟩

/-- `exchange::PositionKeeper` with the keepers its map points to. -/
structure RoutedKeepers where
  /-- No entry, a null pointer or an address. -/
  position : ExchangeId → Option (Option ℕ)
  memory : ℕ → PositionKeeper

namespace RoutedKeepers

/-- Every exchange that is registered has a keeper. -/
def init (registered : ExchangeId → Option ℕ) (memory : ℕ → PositionKeeper) : RoutedKeepers where
  position exchangeId := (registered exchangeId).map some
  memory

variable (keepers : RoutedKeepers)

/-- `position_[exchange_id]`; a missing entry is inserted. -/
def index (exchangeId : ExchangeId) : RoutedKeepers × Option ℕ :=
  match keepers.position exchangeId with
  | some pointer => (keepers, pointer)
  | none =>
    ({ keepers with position := Function.update keepers.position exchangeId (some none) }, none)

/-- `position_[exchange_id]->method(...)`, with nothing for a null pointer. -/
def callKeeper (exchangeId : ExchangeId) (method : PositionKeeper → PositionKeeper) :
    Option RoutedKeepers :=
  let (keepers, pointer) := keepers.index exchangeId
  pointer.map fun address =>
    { keepers with
      memory := Function.update keepers.memory address (method (keepers.memory address)) }

def addFill : Option MEClientResponse → Option RoutedKeepers
  | none => some keepers
  | some response =>
    if response.exchangeId = .kInvalid then some keepers
    else if (keepers.position response.exchangeId).isNone then some keepers
    else keepers.callKeeper response.exchangeId (·.addFill response)

def updateBBO (exchangeId : ExchangeId) (tradingPair : TradingPair) :
    Option BBO → Option RoutedKeepers
  | none => some keepers
  | some bbo =>
    if exchangeId = .kInvalid then some keepers
    else if (keepers.position exchangeId).isNone then some keepers
    else keepers.callKeeper exchangeId (·.updateBBO tradingPair bbo)

/-- The info is returned by reference, and a new one is zeroed. -/
def getPositionInfo (exchangeId : ExchangeId) : Option RoutedKeepers :=
  if exchangeId = .kInvalid then some keepers else keepers.callKeeper exchangeId id

end RoutedKeepers

inductive KeeperCall
  | addFill (response : Option MEClientResponse)
  | updateBBO (exchangeId : ExchangeId) (tradingPair : TradingPair) (bbo : Option BBO)
  | getPositionInfo (exchangeId : ExchangeId) (tradingPair : TradingPair)

namespace KeeperCall

/-- The exchange and the pair a call is for; a missing response is for none. -/
def target : KeeperCall → Option (ExchangeId × TradingPair)
  | addFill none => none
  | addFill (some response) => some (response.exchangeId, response.tradingPair)
  | updateBBO exchangeId tradingPair _ => some (exchangeId, tradingPair)
  | getPositionInfo exchangeId tradingPair => some (exchangeId, tradingPair)

end KeeperCall

namespace RoutedKeepers

variable (keepers : RoutedKeepers)

def step : KeeperCall → Option RoutedKeepers
  | .addFill response => keepers.addFill response
  | .updateBBO exchangeId tradingPair bbo => keepers.updateBBO exchangeId tradingPair bbo
  | .getPositionInfo exchangeId _ => keepers.getPositionInfo exchangeId

/-- The keepers after the calls, unless a null pointer was followed. -/
def run (calls : List KeeperCall) : Option RoutedKeepers := calls.foldlM step keepers

theorem run_concat (calls : List KeeperCall) (call : KeeperCall) :
    keepers.run (calls ++ [call]) = (keepers.run calls).bind fun keepers => keepers.step call := by
  simp [run, List.foldlM_append]

/-- The addresses the map holds are those of the registered exchanges. -/
def Registers (registered : ExchangeId → Option ℕ) : Prop :=
  ∀ exchangeId, keepers.position exchangeId = (registered exchangeId).map some

end RoutedKeepers

/-! ## The law of a call -/

variable (registered : ExchangeId → Option ℕ)

/-- The exchanges stay the same, a call that no keeper takes changes nothing, and any
other changes one cell. -/
structure Routes (keepers : RoutedKeepers) (call : KeeperCall) (next : RoutedKeepers) : Prop where
  exchanges : next.Registers registered
  unrouted : (∀ exchangeId tradingPair, call.target = some (exchangeId, tradingPair) →
    exchangeId = .kInvalid ∨ registered exchangeId = none) → next = keepers
  frame : ∀ address tradingPair,
    (∀ exchangeId, call.target = some (exchangeId, tradingPair) →
      registered exchangeId ≠ some address) →
    (next.memory address).tickerPosition tradingPair =
      (keepers.memory address).tickerPosition tradingPair

/-- An info is asked for only where there is a keeper, or of the invalid exchange. -/
def KeeperCall.Safe : KeeperCall → Prop
  | getPositionInfo exchangeId _ => exchangeId = .kInvalid ∨ (registered exchangeId).isSome
  | _ => True

namespace RoutedKeepers

variable {registered} {keepers : RoutedKeepers} {exchangeId : ExchangeId}
  {tradingPair : TradingPair} {call : KeeperCall}

theorem routes_self (h : keepers.Registers registered) : Routes registered keepers call keepers :=
  ⟨h, fun _ => rfl, fun _ _ _ => rfl⟩

theorem callKeeper_of_some {address : ℕ} (h : keepers.Registers registered)
    (hregistered : registered exchangeId = some address)
    (method : PositionKeeper → PositionKeeper) :
    keepers.callKeeper exchangeId method = some { keepers with
      memory := Function.update keepers.memory address (method (keepers.memory address)) } := by
  have hposition := h exchangeId
  rw [hregistered, Option.map_some] at hposition
  simp only [callKeeper, index, hposition, Option.map_some]

/-- A method that changes the info of the pair of the call, at most. -/
theorem routes_callKeeper {address : ℕ} (h : keepers.Registers registered)
    (hvalid : exchangeId ≠ .kInvalid) (hregistered : registered exchangeId = some address)
    (htarget : call.target = some (exchangeId, tradingPair))
    {method : PositionKeeper → PositionKeeper}
    (hmethod : ∀ keeper other, other ≠ tradingPair →
      (method keeper).tickerPosition other = keeper.tickerPosition other) :
    ∃ next, keepers.callKeeper exchangeId method = some next ∧
      Routes registered keepers call next := by
  refine ⟨_, callKeeper_of_some h hregistered method, h, fun hunrouted => ?_, ?_⟩
  · rcases hunrouted exchangeId tradingPair htarget with hinvalid | hnone
    · exact absurd hinvalid hvalid
    · simp [hregistered] at hnone
  · intro cell other hcell
    dsimp only
    by_cases haddress : cell = address
    · subst haddress
      rw [Function.update_self]
      apply hmethod
      rintro rfl
      exact hcell exchangeId htarget hregistered
    · rw [Function.update_of_ne haddress]

theorem tickerPosition_addFill_of_ne {response : MEClientResponse} (keeper : PositionKeeper)
    (other : TradingPair) (h : other ≠ response.tradingPair) :
    (keeper.addFill response).tickerPosition other = keeper.tickerPosition other :=
  Function.update_of_ne h _ _

theorem tickerPosition_updateBBO_of_ne {bbo : BBO} (keeper : PositionKeeper) (other : TradingPair)
    (h : other ≠ tradingPair) :
    (keeper.updateBBO tradingPair bbo).tickerPosition other = keeper.tickerPosition other :=
  Function.update_of_ne h _ _

theorem isNone_position_iff (h : keepers.Registers registered) :
    (keepers.position exchangeId).isNone ↔ registered exchangeId = none := by
  rw [h exchangeId]
  cases registered exchangeId <;> simp

/-- A safe call is routed. -/
theorem exists_step_routes (h : keepers.Registers registered) (hsafe : call.Safe registered) :
    ∃ next, keepers.step call = some next ∧ Routes registered keepers call next := by
  cases call with
  | addFill response =>
    cases response with
    | none => exact ⟨keepers, rfl, routes_self h⟩
    | some response =>
      by_cases hinvalid : response.exchangeId = .kInvalid
      · exact ⟨keepers, if_pos hinvalid, routes_self h⟩
      · cases hregistered : registered response.exchangeId with
        | none =>
          have hnone := (isNone_position_iff h).mpr hregistered
          exact ⟨keepers, by simp [step, addFill, hinvalid, hnone], routes_self h⟩
        | some address =>
          have hsome : ¬ (keepers.position response.exchangeId).isNone := by
            rw [isNone_position_iff h, hregistered]
            simp
          simp only [step, addFill, if_neg hinvalid, if_neg hsome]
          exact routes_callKeeper h hinvalid hregistered rfl tickerPosition_addFill_of_ne
  | updateBBO exchangeId tradingPair bbo =>
    cases bbo with
    | none => exact ⟨keepers, rfl, routes_self h⟩
    | some bbo =>
      by_cases hinvalid : exchangeId = .kInvalid
      · exact ⟨keepers, if_pos hinvalid, routes_self h⟩
      · cases hregistered : registered exchangeId with
        | none =>
          have hnone := (isNone_position_iff h).mpr hregistered
          exact ⟨keepers, by simp [step, updateBBO, hinvalid, hnone], routes_self h⟩
        | some address =>
          have hsome : ¬ (keepers.position exchangeId).isNone := by
            rw [isNone_position_iff h, hregistered]
            simp
          simp only [step, updateBBO, if_neg hinvalid, if_neg hsome]
          exact routes_callKeeper h hinvalid hregistered rfl tickerPosition_updateBBO_of_ne
  | getPositionInfo exchangeId tradingPair =>
    by_cases hinvalid : exchangeId = .kInvalid
    · exact ⟨keepers, if_pos hinvalid, routes_self h⟩
    · obtain ⟨address, hregistered⟩ := Option.isSome_iff_exists.mp (hsafe.resolve_left hinvalid)
      simp only [step, getPositionInfo, if_neg hinvalid]
      exact routes_callKeeper h hinvalid hregistered rfl fun _ _ _ => rfl

/-- Any other call follows a null pointer. -/
theorem step_of_not_safe (h : keepers.Registers registered) (hsafe : ¬ call.Safe registered) :
    keepers.step call = none := by
  cases call with
  | addFill response => exact absurd trivial hsafe
  | updateBBO exchangeId tradingPair bbo => exact absurd trivial hsafe
  | getPositionInfo exchangeId tradingPair =>
    obtain ⟨hinvalid, hnone⟩ := not_or.mp hsafe
    rw [Option.not_isSome_iff_eq_none] at hnone
    have hposition := h exchangeId
    rw [hnone, Option.map_none] at hposition
    simp [step, getPositionInfo, hinvalid, callKeeper, index, hposition]

end RoutedKeepers

/-! ## Runs -/

/-- At every call the keepers are there, no null pointer is followed and the call is
routed. -/
def RoutesEveryCall (memory : ℕ → PositionKeeper) (calls : List KeeperCall) : Prop :=
  EveryStep (fun before call => ∃ keepers next,
    (RoutedKeepers.init registered memory).run before = some keepers ∧
      keepers.step call = some next ∧ Routes registered keepers call next) calls

variable {registered} {memory : ℕ → PositionKeeper} {calls : List KeeperCall}

theorem exists_run_of_routes (h : RoutesEveryCall registered memory calls) :
    ∃ keepers, (RoutedKeepers.init registered memory).run calls = some keepers ∧
      keepers.Registers registered := by
  rcases List.eq_nil_or_concat' calls with rfl | ⟨before, call, rfl⟩
  · exact ⟨_, rfl, fun _ => rfl⟩
  · obtain ⟨keepers, next, hrun, hstep, hroutes⟩ := (EveryStep.concat_iff.mp h).2
    exact ⟨next, by rw [RoutedKeepers.run_concat, hrun, Option.bind_some, hstep],
      hroutes.exchanges⟩

/-- Every call is routed exactly when no info is asked of an exchange that is neither
registered nor invalid. -/
theorem routesEveryCall_iff (registered : ExchangeId → Option ℕ) (memory : ℕ → PositionKeeper)
    (calls : List KeeperCall) :
    RoutesEveryCall registered memory calls ↔ ∀ call ∈ calls, call.Safe registered := by
  induction calls using List.reverseRecOn with
  | nil => exact iff_of_true EveryStep.nil (by simp)
  | append_singleton calls call ih =>
    have hforall : (∀ other ∈ calls ++ [call], other.Safe registered) ↔
        (∀ other ∈ calls, other.Safe registered) ∧ call.Safe registered := by
      simp [or_imp, forall_and]
    rw [hforall, ← ih, RoutesEveryCall, EveryStep.concat_iff, ← RoutesEveryCall]
    refine and_congr_right fun hbefore => ?_
    obtain ⟨keepers, hrun, hregisters⟩ := exists_run_of_routes hbefore
    constructor
    · rintro ⟨_, next, hrun', hstep, -⟩
      by_contra hsafe
      rw [hrun] at hrun'
      rw [← Option.some.inj hrun', RoutedKeepers.step_of_not_safe hregisters hsafe] at hstep
      simp at hstep
    · intro hsafe
      obtain ⟨next, hstep, hroutes⟩ := RoutedKeepers.exists_step_routes hregisters hsafe
      exact ⟨keepers, next, hrun, hstep, hroutes⟩

/-- An info is asked of Bybit when only Binance is registered. -/
theorem not_routesEveryCall_bybit :
    ¬ RoutesEveryCall (fun exchangeId => if exchangeId = .kBinance then some 0 else none)
      (fun _ => {}) [.getPositionInfo .kBybit ⟨2, 1⟩] := by
  intro h
  obtain ⟨keepers, next, hrun, hstep, -⟩ := h [] _ [] rfl
  rw [← Option.some.inj hrun] at hstep
  simp [RoutedKeepers.step, RoutedKeepers.getPositionInfo, RoutedKeepers.callKeeper,
    RoutedKeepers.index, RoutedKeepers.init] at hstep

/-! ## Keepers by value -/

namespace RoutedKeepers

/-- The keepers of the exchanges, without the pointers. -/
def values (keepers : RoutedKeepers) : ExchangePositionKeeper where
  position exchangeId := (keepers.position exchangeId).join.map keepers.memory

/-- Where no two exchanges share a keeper, a fill is what it is for keepers by value. -/
theorem values_addFill {keepers : RoutedKeepers} (h : keepers.Registers registered)
    (hdistinct : ∀ first second address, registered first = some address →
      registered second = some address → first = second) (response : Option MEClientResponse) :
    (keepers.addFill response).map values = some (keepers.values.addFill response) := by
  cases response with
  | none => rfl
  | some response =>
    by_cases hinvalid : response.exchangeId = .kInvalid
    · simp [addFill, ExchangePositionKeeper.addFill, hinvalid]
    · cases hregistered : registered response.exchangeId with
      | none =>
        have hposition := h response.exchangeId
        rw [hregistered, Option.map_none] at hposition
        simp [addFill, ExchangePositionKeeper.addFill, hinvalid, hposition, values]
      | some address =>
        have hposition := h response.exchangeId
        rw [hregistered, Option.map_some] at hposition
        simp only [addFill, if_neg hinvalid, hposition, Option.isNone_some, Bool.false_eq_true,
          if_false, callKeeper_of_some h hregistered, Option.map_some,
          ExchangePositionKeeper.addFill, values, Option.join_some]
        congr 2
        funext exchangeId
        by_cases hexchange : exchangeId = response.exchangeId
        · subst hexchange
          simp [hposition]
        · rw [Function.update_of_ne hexchange, h exchangeId]
          cases hother : registered exchangeId with
          | none => rfl
          | some other =>
            have hne : other ≠ address := by
              rintro rfl
              exact hexchange (hdistinct _ _ _ hother hregistered)
            simp [Function.update_of_ne hne]

end RoutedKeepers

end CryptoBot.Positions

/-
# The lifetime of a response on the bus

A response lives in a block of a `MemPool`.  The bus wraps it in an event that
counts its subscribers; each handler releases its reference, and the last one
returns the block.  This module follows the accesses to the block over every
order in which the handlers of one event run.

`OrderManager::OnOrderResponse` returns the block itself, so with a known pair
the block is returned a second time by the last release.  A wallet update that
throws never releases its reference at all.
-/

import Mathlib.Data.List.Perm.Subperm
import CryptoBot.Assets.Ledger
import CryptoBot.Common.MemPool
import CryptoBot.Orders.OrderManager
import CryptoBot.Positions.PositionKeeper

namespace CryptoBot.Bus

open CryptoBot.Common CryptoBot.Math CryptoBot.Orders CryptoBot.Assets CryptoBot.Positions

/-- What happens to the block.  A fault is a failed assertion, a read through a
null pointer or an exception that leaves a handler: each ends the program. -/
inductive Access
  | read | returned | fault
  deriving DecidableEq, Repr

/-- `Deallocate` of the response's pool. -/
def deallocate (pool : MemPool MEClientResponse) (index : Nat) :
    MemPool MEClientResponse × List Access :=
  match pool.deallocate index with
  | .ok pool => (pool, [.returned])
  | .error _ => (pool, [.fault])

theorem deallocate_of_used {pool : MemPool MEClientResponse} {index : Nat}
    {response : MEClientResponse} (hused : pool.store[index]? = some ⟨response, false⟩) :
    deallocate pool index =
      ({ pool with store := pool.store.set index ⟨response, true⟩ }, [.returned]) := by
  rw [deallocate, MemPool.deallocate_of_used hused rfl]

theorem deallocate_of_free {pool : MemPool MEClientResponse} {index : Nat}
    {response : MEClientResponse} (hfree : pool.store[index]? = some ⟨response, true⟩) :
    deallocate pool index = (pool, [.fault]) := by
  have hnone (block : ObjectBlock MEClientResponse) (hblock : pool.store[index]? = some block) :
      block.isFree := by
    rw [hfree] at hblock
    cases hblock
    rfl
  obtain ⟨abort, herror⟩ := MemPool.exists_error_of_not_used hnone
  rw [deallocate, herror]

inductive Component
  | orderManager | wallet | positionKeeper
  deriving DecidableEq, Repr

/-- The event, the pool its response lives in and the subscribers.  The pointer
of the event is the index of the block, and null after the last release. -/
structure World where
  pool : MemPool MEClientResponse
  response : Option Nat
  refCount : Int
  orderManager : OrderManager
  wallet : ExchangeWallet
  keepers : ExchangePositionKeeper

namespace World

variable (world : World)

/-- The block the event points to, with its index. -/
def block : Option (Nat × ObjectBlock MEClientResponse) :=
  world.response.bind fun index => (world.pool.store[index]?).map fun block => (index, block)

/-- `Event::Release`, with `BusEventResponse::Deallocate` for the last one. -/
def release : World × List Access :=
  let next := { world with refCount := world.refCount - 1 }
  if world.refCount = 1 then
    match world.response with
    | none => (next, [.fault])
    | some index =>
        let (pool, accesses) := deallocate world.pool index
        ({ next with pool, response := none }, accesses)
  else (next, [])

/-- `AsyncHandleEvent`: the position keeper logs the response, then the handler
is posted. -/
def accept (component : Component) : World × List Access :=
  match component with
  | .positionKeeper => (world, if world.block.isSome then [.read] else [.fault])
  | .orderManager | .wallet => (world, [])

/-- The posted handler of `OrderManagerComponent`. -/
def handleOrderManager (index : Nat) (response : MEClientResponse) : World × List Access :=
  if (world.orderManager.tickerSideOrder response.tradingPair).isNone then
    let (next, released) := world.release
    (next, .read :: released)
  else
    let (pool, deallocated) := deallocate world.pool index
    let next := { world with
      orderManager := world.orderManager.onOrderResponse response
      pool }
    let (next, released) := next.release
    (next, .read :: deallocated ++ released)

/-- The posted handler of `WalletComponent`. -/
def handleWallet (response : MEClientResponse) : World × List Access :=
  match world.wallet.update response with
  | (wallet, .error _) => ({ world with wallet }, [.read, .fault])
  | (wallet, .ok ()) =>
      let (next, released) := { world with wallet }.release
      (next, .read :: released)

/-- The posted handler of `PositionKeeperComponent`. -/
def handlePositionKeeper (response : MEClientResponse) : World × List Access :=
  let next := { world with keepers := world.keepers.handleResponse (some ⟨some response⟩) }
  let (next, released) := next.release
  (next, .read :: released)

def handle (component : Component) : World × List Access :=
  match world.block with
  | none => (world, [.fault])
  | some (index, block) =>
      match component with
      | .orderManager => world.handleOrderManager index block.object
      | .wallet => world.handleWallet block.object
      | .positionKeeper => world.handlePositionKeeper block.object

end World

inductive Action
  | accept (component : Component)
  | handle (component : Component)
  deriving DecidableEq, Repr

def World.step (world : World) : Action → World × List Access
  | .accept component => world.accept component
  | .handle component => world.handle component

/-- The runs of the handlers of one event. -/
def World.machine (world : World) : Machine World Action Access := ⟨world, World.step⟩

def Action.offer : Action → Option Component
  | .accept component => some component
  | .handle _ => none

def Action.handler : Action → Option Component
  | .accept _ => none
  | .handle component => some component

/-- The components that were offered the event. -/
def accepted (actions : List Action) : List Component := actions.filterMap Action.offer

/-- The components whose handler has run. -/
def handled (actions : List Action) : List Component := actions.filterMap Action.handler

/-- Every subscriber is offered the event once and handles it once, after the
offer. -/
structure Schedule (subscribers : List Component) (actions : List Action) : Prop where
  accepted : (accepted actions).Perm subscribers
  handled : (handled actions).Perm subscribers
  ordered : ∀ before ∈ actions.inits, (Bus.handled before).Subperm (Bus.accepted before)

/-- The world before the first handler: the block is in use, and each subscriber
holds one reference. -/
structure Published (subscribers : List Component) (index : Nat) (response : MEClientResponse)
    (world : World) : Prop where
  nodup : subscribers.Nodup
  pointer : world.response = some index
  inUse : world.pool.store[index]? = some ⟨response, false⟩
  references : world.refCount = subscribers.length

/-- The block is read, then returned once, and nothing follows. -/
def Proper (accesses : List Access) : Prop :=
  ∃ reads, accesses = List.replicate reads .read ++ [.returned]

/-- The wallet gives back a reservation whose ticker it does not list. -/
def WalletThrows (wallet : ExchangeWallet) (response : MEClientResponse) : Prop :=
  response.exchangeId ≠ .kInvalid ∧
    ∃ current, wallet.wallets response.exchangeId = some current ∧
      (response.type = .canceled ∨
        response.type = .invalid ∧ (current.reserves.lookup response.orderId).isSome) ∧
      current.assets (current.reserved response.orderId).2.reservedTicker = none

/-! ## When the wallet throws -/

theorem walletThrows_iff (wallet : ExchangeWallet) (response : MEClientResponse) :
    (wallet.update response).2 = .ok () ↔ ¬ WalletThrows wallet response := by
  by_cases hinvalid : response.exchangeId = .kInvalid
  · simp [ExchangeWallet.update, WalletThrows, hinvalid]
  · cases hwallet : wallet.wallets response.exchangeId with
    | none => simp [ExchangeWallet.update, WalletThrows, hinvalid, hwallet]
    | some current =>
        simpa [ExchangeWallet.update, WalletThrows, hinvalid, hwallet] using
          current.update_result response

/-! ## One handler -/

/-- The block is in use and `remaining` references are held. -/
structure Held (index : Nat) (response : MEClientResponse) (remaining : Nat) (world : World) :
    Prop where
  pointer : world.response = some index
  inUse : world.pool.store[index]? = some ⟨response, false⟩
  references : world.refCount = remaining

/-- The handler of this component breaks the lifetime. -/
def Offends (world : World) (response : MEClientResponse) : Component → Prop
  | .orderManager => (world.orderManager.tickerSideOrder response.tradingPair).isSome
  | .wallet => WalletThrows world.wallet response
  | .positionKeeper => False

variable {index remaining : Nat} {response : MEClientResponse} {world : World}

theorem Held.block_eq (h : Held index response remaining world) :
    world.block = some (index, ⟨response, false⟩) := by
  simp [World.block, h.pointer, h.inUse]

theorem Held.deallocate_eq (h : Held index response remaining world) :
    (deallocate world.pool index).2 = [.returned] := by
  rw [deallocate_of_used h.inUse]

/-- A release of one of several references only counts down. -/
theorem Held.release_eq (h : Held index response (remaining + 1) world) (hmore : 0 < remaining) :
    world.release.2 = [] ∧ Held index response remaining world.release.1 ∧
      world.release.1.orderManager = world.orderManager ∧
      world.release.1.wallet = world.wallet := by
  have hone : ¬ world.refCount = 1 := by
    have hcount := h.references
    push_cast at hcount
    omega
  rw [World.release, if_neg hone]
  refine ⟨rfl, ⟨h.pointer, h.inUse, ?_⟩, rfl, rfl⟩
  have hcount := h.references
  push_cast at hcount
  dsimp only
  omega

/-- The last release returns the block. -/
theorem Held.release_last (h : Held index response 1 world) : world.release.2 = [.returned] := by
  have hone : world.refCount = 1 := h.references
  simp only [World.release, if_pos hone, h.pointer]
  exact h.deallocate_eq

/-- The handler of a component that does not offend reads the response and
releases its reference. -/
theorem Held.handle_eq (h : Held index response remaining world) {component : Component}
    (hfine : ¬ Offends world response component) :
    ∃ next : World, Held index response remaining next ∧
      next.orderManager = world.orderManager ∧
      (component ≠ .wallet → next.wallet = world.wallet) ∧
      world.handle component = (next.release.1, .read :: next.release.2) := by
  simp only [World.handle, h.block_eq]
  cases component with
  | orderManager =>
      have hunknown : (world.orderManager.tickerSideOrder response.tradingPair).isNone := by
        simpa [Offends] using hfine
      refine ⟨world, h, rfl, fun _ => rfl, ?_⟩
      simp [World.handleOrderManager, hunknown]
  | wallet =>
      have hok := (walletThrows_iff world.wallet response).mpr hfine
      refine ⟨{ world with wallet := (world.wallet.update response).1 },
        ⟨h.pointer, h.inUse, h.references⟩, rfl, fun hne => (hne rfl).elim, ?_⟩
      simp only [World.handleWallet]
      split
      · rename_i heq
        simp [heq] at hok
      · rename_i heq
        simp [heq]
  | positionKeeper =>
      refine ⟨{ world with keepers := world.keepers.handleResponse (some ⟨some response⟩) },
        ⟨h.pointer, h.inUse, h.references⟩, rfl, fun _ => rfl, ?_⟩
      simp [World.handlePositionKeeper]

/-- Every handler leaves a mark in the accesses. -/
theorem handle_ne_nil (world : World) (component : Component) :
    (world.handle component).2 ≠ [] := by
  rw [World.handle]
  split
  · exact List.cons_ne_nil _ _
  · cases component with
    | orderManager =>
        simp only [World.handleOrderManager]
        split <;> exact List.cons_ne_nil _ _
    | wallet =>
        simp only [World.handleWallet]
        split <;> exact List.cons_ne_nil _ _
    | positionKeeper => exact List.cons_ne_nil _ _

/-! ## Runs -/

@[simp]
theorem handled_append (first second : List Action) :
    handled (first ++ second) = handled first ++ handled second :=
  List.filterMap_append ..

@[simp]
theorem accepted_append (first second : List Action) :
    accepted (first ++ second) = accepted first ++ accepted second :=
  List.filterMap_append ..

theorem handled_concat_handle (actions : List Action) (component : Component) :
    handled (actions ++ [Action.handle component]) = handled actions ++ [component] := by
  simp [handled, Action.handler]

theorem not_mem_of_nodup_concat {ran : List Component} {component : Component}
    (h : (ran ++ [component]).Nodup) : component ∉ ran := fun hmem =>
  (List.nodup_append.mp h).2.2 _ hmem _ (by simp) rfl

theorem outputsFrom_ne_nil (initial world : World) {actions : List Action}
    (h : handled actions ≠ []) : initial.machine.outputsFrom world actions ≠ [] := by
  induction actions generalizing world with
  | nil => exact (h rfl).elim
  | cons action rest ih =>
      rw [Machine.outputsFrom_cons]
      cases action with
      | accept component =>
          exact List.append_ne_nil_of_right_ne_nil _ (ih _ h)
      | handle component =>
          exact List.append_ne_nil_of_left_ne_nil (handle_ne_nil world component) _

/-- The handlers that ran did not offend: the block was only read, `remaining`
references are held, and what decides an offence of the others is unchanged. -/
structure Reading (initial : World) (index : Nat) (response : MEClientResponse) (remaining : Nat)
    (ran : List Component) (world : World) (accesses : List Access) : Prop where
  held : Held index response remaining world
  orders : world.orderManager = initial.orderManager
  wallet : .wallet ∉ ran → world.wallet = initial.wallet
  reads : ∃ reads, accesses = List.replicate reads .read

namespace Reading

variable {initial : World} {ran : List Component} {accesses : List Access} {component : Component}

/-- Whether a handler offends is decided before the first handler runs. -/
theorem offends_iff (h : Reading initial index response remaining ran world accesses)
    (hnew : component ∉ ran) :
    Offends world response component ↔ Offends initial response component := by
  cases component with
  | orderManager => simp [Offends, h.orders]
  | wallet => simp [Offends, h.wallet hnew]
  | positionKeeper => rfl

theorem accept (h : Reading initial index response remaining ran world accesses) :
    Reading initial index response remaining ran (world.accept component).1
      (accesses ++ (world.accept component).2) := by
  obtain ⟨reads, hreads⟩ := h.reads
  cases component with
  | orderManager => exact ⟨h.held, h.orders, h.wallet, reads, by simp [World.accept, hreads]⟩
  | wallet => exact ⟨h.held, h.orders, h.wallet, reads, by simp [World.accept, hreads]⟩
  | positionKeeper =>
      refine ⟨h.held, h.orders, h.wallet, reads + 1, ?_⟩
      simp [World.accept, h.held.block_eq, hreads, List.replicate_succ']

/-- The handler of a component that does not offend, and that is not the last
one. -/
theorem handle (h : Reading initial index response (remaining + 1) ran world accesses)
    (hmore : 0 < remaining) (hnew : component ∉ ran)
    (hfine : ¬ Offends initial response component) :
    Reading initial index response remaining (ran ++ [component]) (world.handle component).1
      (accesses ++ (world.handle component).2) := by
  obtain ⟨next, hnext, horders, hwallet, hhandle⟩ :=
    h.held.handle_eq (mt (h.offends_iff hnew).mp hfine)
  obtain ⟨hsilent, hreleased, hreleasedOrders, hreleasedWallet⟩ := hnext.release_eq hmore
  obtain ⟨reads, hreads⟩ := h.reads
  rw [hhandle, hsilent]
  refine ⟨hreleased, ?_, ?_, reads + 1, ?_⟩
  · rw [hreleasedOrders, horders, h.orders]
  · intro hfirst
    have hother : component ≠ .wallet := fun heq => hfirst (by simp [heq])
    rw [hreleasedWallet, hwallet hother]
    exact h.wallet fun hmem => hfirst (by simp [hmem])
  · rw [hreads, List.replicate_succ']

end Reading

/-- Up to the last handler, and as long as nobody offends, the block is only
read. -/
theorem reading_run {subscribers : List Component}
    (hpublished : Published subscribers index response world) {actions : List Action}
    (hfine : ∀ component ∈ handled actions, ¬ Offends world response component)
    (hnodup : (handled actions).Nodup) (hmore : (handled actions).length < subscribers.length) :
    Reading world index response (subscribers.length - (handled actions).length)
      (handled actions) (world.machine.run actions) (world.machine.outputs actions) := by
  induction actions using List.reverseRecOn with
  | nil =>
      exact ⟨⟨hpublished.pointer, hpublished.inUse, hpublished.references⟩, rfl, fun _ => rfl,
        0, rfl⟩
  | append_singleton actions action ih =>
      rw [Machine.run_concat, Machine.outputs_concat]
      cases action with
      | accept component =>
          have hsame : handled (actions ++ [Action.accept component]) = handled actions := by
            simp [handled, Action.handler]
          rw [hsame] at hfine hnodup hmore ⊢
          exact (ih hfine hnodup hmore).accept
      | handle component =>
          rw [handled_concat_handle] at hfine hnodup hmore ⊢
          rw [List.length_append, List.length_singleton] at hmore ⊢
          have hearlier := ih (fun earlier hmem => hfine earlier (by simp [hmem]))
            (List.Nodup.of_append_left hnodup) (by omega)
          have hcount : subscribers.length - (handled actions).length =
              subscribers.length - ((handled actions).length + 1) + 1 := by
            omega
          rw [hcount] at hearlier
          exact hearlier.handle (by omega) (not_mem_of_nodup_concat hnodup)
            (hfine component (by simp))

/-! ## Proper traces -/

theorem Proper.no_fault {accesses : List Access} (h : Proper accesses) : .fault ∉ accesses := by
  obtain ⟨reads, rfl⟩ := h
  simp [List.mem_replicate]

/-- Nothing follows the return. -/
theorem Proper.eq_nil {before after : List Access} (h : Proper (before ++ .returned :: after)) :
    after = [] := by
  obtain ⟨reads, hreads⟩ := h
  rcases List.eq_nil_or_concat after with rfl | ⟨middle, last, rfl⟩
  · rfl
  · have hsplit : (before ++ .returned :: middle) ++ [last] =
        List.replicate reads .read ++ [.returned] := by
      simpa using hreads
    have hmem : Access.returned ∈ List.replicate reads Access.read := by
      rw [← (List.append_inj' hsplit rfl).1]
      simp
    simp [List.mem_replicate] at hmem

variable {subscribers : List Component} {actions : List Action}

/-- Without an offending subscriber the last release returns the block. -/
theorem proper_of_fine (hpublished : Published subscribers index response world)
    (hschedule : Schedule subscribers actions) (hsome : subscribers ≠ [])
    (hfine : ∀ component ∈ subscribers, ¬ Offends world response component) :
    Proper (world.machine.outputs actions) := by
  have hnodup : (handled actions).Nodup := hschedule.handled.nodup_iff.mpr hpublished.nodup
  have hlength := hschedule.handled.length_eq
  have hpositive : 0 < subscribers.length := List.length_pos_iff.mpr hsome
  rcases List.eq_nil_or_concat actions with rfl | ⟨before, last, rfl⟩
  · simp only [handled, List.filterMap_nil, List.length_nil] at hlength
    omega
  · rw [List.concat_eq_append] at *
    cases last with
    | accept component =>
        -- Every handler ran before the last offer, so one ran without an offer.
        have hordered := hschedule.ordered before (by simp [List.mem_inits])
        have hoffers := hschedule.accepted.length_eq
        have hle := hordered.length_le
        simp only [handled_append, accepted_append, List.length_append] at hlength hoffers
        simp only [handled, accepted, List.filterMap_cons, Action.handler, Action.offer,
          List.filterMap_nil, List.length_nil, List.length_singleton] at hlength hoffers hle
        omega
    | handle component =>
        have hmember (other : Component) (hmem : other ∈ handled before ++ [component]) :
            other ∈ subscribers := hschedule.handled.subset (by rwa [handled_concat_handle])
        rw [handled_concat_handle] at hnodup hlength
        rw [List.length_append, List.length_singleton] at hlength
        have hearlier (other : Component) (hmem : other ∈ handled before) :
            ¬ Offends world response other := hfine other (hmember other (by simp [hmem]))
        have hmore : (handled before).length < subscribers.length := by omega
        have hreading := reading_run hpublished hearlier (List.Nodup.of_append_left hnodup) hmore
        obtain ⟨reads, houtputs⟩ := hreading.reads
        have hlast : ¬ Offends (world.machine.run before) response component := by
          rw [hreading.offends_iff (not_mem_of_nodup_concat hnodup)]
          exact hfine component (hmember component (by simp))
        obtain ⟨next, hnext, -, -, hhandle⟩ := hreading.held.handle_eq hlast
        have hone : subscribers.length - (handled before).length = 1 := by omega
        rw [hone] at hnext
        have hemitted : world.machine.emitted before (.handle component) = [.read, .returned] := by
          refine (congrArg Prod.snd hhandle).trans ?_
          rw [hnext.release_last]
        refine ⟨reads + 1, ?_⟩
        rw [Machine.outputs_concat, houtputs, hemitted, List.replicate_succ']
        simp

/-- An order manager that knows the pair returns the block, and the last release
fails on it. -/
theorem handle_orderManager (h : Held index response remaining world)
    (hknown : (world.orderManager.tickerSideOrder response.tradingPair).isSome) :
    ∃ rest, (world.handle .orderManager).2 = .read :: .returned :: rest ∧
      (remaining = 1 → rest = [.fault]) := by
  have hnotNone : ¬ (world.orderManager.tickerSideOrder response.tradingPair).isNone := by
    intro hnone
    simp [Option.isNone_iff_eq_none.mp hnone] at hknown
  have hindex : index < world.pool.store.length := (List.getElem?_eq_some_iff.mp h.inUse).1
  have hfreed : (deallocate world.pool index).1.store[index]? = some ⟨response, true⟩ := by
    rw [deallocate_of_used h.inUse]
    exact List.getElem?_set_self hindex
  simp only [World.handle, h.block_eq, World.handleOrderManager, if_neg hnotNone, h.deallocate_eq]
  refine ⟨_, rfl, ?_⟩
  intro hone
  have hcount : world.refCount = 1 := by
    rw [h.references, hone]
    rfl
  simp only [World.release, hcount, if_true, h.pointer]
  rw [deallocate_of_free hfreed]
  rfl

theorem handle_wallet (h : Held index response remaining world)
    (hthrows : WalletThrows world.wallet response) :
    (world.handle .wallet).2 = [.read, .fault] := by
  have hresult : (world.wallet.update response).2 ≠ .ok () := fun hok =>
    (walletThrows_iff world.wallet response).mp hok hthrows
  simp only [World.handle, h.block_eq, World.handleWallet]
  split
  · rfl
  · rename_i heq
    exact (hresult (by rw [heq])).elim

/-- The first handler with a property that some handler of the run has. -/
theorem exists_first_handler (P : Component → Prop) {actions : List Action} {component : Component}
    (hmem : component ∈ handled actions) (hP : P component) :
    ∃ before first after, actions = before ++ Action.handle first :: after ∧ P first ∧
      ∀ other ∈ handled before, ¬ P other := by
  induction actions with
  | nil => simp [handled] at hmem
  | cons action rest ih =>
      cases action with
      | accept offered =>
          obtain ⟨before, first, after, hsplit, hfirst, hearlier⟩ := ih hmem
          exact ⟨.accept offered :: before, first, after, by simp [hsplit], hfirst, hearlier⟩
      | handle current =>
          by_cases hcurrent : P current
          · exact ⟨[], current, rest, rfl, hcurrent, by simp [handled]⟩
          · have hrest : component ∈ handled rest := by
              rcases List.mem_cons.mp hmem with rfl | hrest
              · exact (hcurrent hP).elim
              · exact hrest
            obtain ⟨before, first, after, hsplit, hfirst, hearlier⟩ := ih hrest
            refine ⟨.handle current :: before, first, after, by simp [hsplit], hfirst, ?_⟩
            intro other hother
            rcases List.mem_cons.mp hother with rfl | hother
            · exact hcurrent
            · exact hearlier other hother

/-- An offending subscriber breaks the lifetime in every order of the handlers. -/
theorem not_proper_of_offends (hpublished : Published subscribers index response world)
    (hschedule : Schedule subscribers actions) {component : Component}
    (hmem : component ∈ subscribers) (hoffends : Offends world response component) :
    ¬ Proper (world.machine.outputs actions) := by
  intro hproper
  obtain ⟨before, offender, after, rfl, hoffender, hearlier⟩ :=
    exists_first_handler (Offends world response) (hschedule.handled.symm.subset hmem) hoffends
  have hsplit : handled (before ++ Action.handle offender :: after) =
      handled before ++ offender :: handled after := by
    simp [handled, Action.handler]
  have hnodup : (handled before ++ offender :: handled after).Nodup := by
    rw [← hsplit]
    exact hschedule.handled.nodup_iff.mpr hpublished.nodup
  have hnodupFirst : (handled before ++ [offender]).Nodup := by
    apply List.Nodup.sublist _ hnodup
    simp
  have hlength : (handled before).length + (1 + (handled after).length) = subscribers.length := by
    rw [← hschedule.handled.length_eq, hsplit]
    simp only [List.length_append, List.length_cons]
    omega
  have hmore : (handled before).length < subscribers.length := by omega
  have hreading := reading_run hpublished hearlier (List.Nodup.of_append_left hnodup) hmore
  have hstate : Offends (world.machine.run before) response offender :=
    (hreading.offends_iff (not_mem_of_nodup_concat hnodupFirst)).mpr hoffender
  rw [Machine.outputs_append, Machine.outputsFrom_cons] at hproper
  cases offender with
  | orderManager =>
      obtain ⟨rest, hrest, hlast⟩ := handle_orderManager hreading.held hstate
      have hemitted : (world.machine.step (world.machine.run before)
          (.handle .orderManager)).2 = .read :: .returned :: rest := hrest
      rw [hemitted] at hproper
      have hshape : Proper ((world.machine.outputs before ++ [.read]) ++ .returned ::
          (rest ++ world.machine.outputsFrom (world.machine.step
            (world.machine.run before) (.handle .orderManager)).1 after)) := by
        simpa using hproper
      obtain ⟨hrestNil, hafter⟩ := List.append_eq_nil_iff.mp hshape.eq_nil
      by_cases hnone : handled after = []
      · -- The order manager is the last handler: its own release fails.
        have hone : subscribers.length - (handled before).length = 1 := by
          rw [hnone] at hlength
          simp only [List.length_nil] at hlength
          omega
        rw [hlast hone] at hrestNil
        cases hrestNil
      · exact outputsFrom_ne_nil world _ hnone hafter
  | wallet =>
      have hemitted : (world.machine.step (world.machine.run before) (.handle .wallet)).2 =
          [.read, .fault] := handle_wallet hreading.held hstate
      apply hproper.no_fault
      rw [hemitted]
      simp
  | positionKeeper => exact hoffender

/-- The block is read and then returned once, by the last handler, if and only
if somebody subscribed, the order manager is not subscribed or does not know the
pair, and the wallet is not subscribed or does not throw. -/
theorem lifetime_iff (subscribers : List Component) (index : Nat) (response : MEClientResponse)
    (world : World) (hpublished : Published subscribers index response world)
    (actions : List Action) (hschedule : Schedule subscribers actions) :
    Proper (world.machine.outputs actions) ↔
      subscribers ≠ [] ∧
        (.orderManager ∈ subscribers →
          world.orderManager.tickerSideOrder response.tradingPair = none) ∧
        (.wallet ∈ subscribers → ¬ WalletThrows world.wallet response) := by
  constructor
  · intro hproper
    have hfine (component : Component) (hmem : component ∈ subscribers) :
        ¬ Offends world response component := fun hoffends =>
      not_proper_of_offends hpublished hschedule hmem hoffends hproper
    refine ⟨?_, ?_, fun hmem => hfine .wallet hmem⟩
    · rintro rfl
      have hnone : actions = [] := by
        cases actions with
        | nil => rfl
        | cons action rest =>
            have hoffers := hschedule.accepted.length_eq
            have hhandlers := hschedule.handled.length_eq
            cases action <;>
              simp [accepted, handled, Action.offer, Action.handler] at hoffers hhandlers
      rw [hnone] at hproper
      obtain ⟨reads, hreads⟩ := hproper
      simp [Machine.outputs, Machine.outputsFrom, Machine.traceFrom] at hreads
    · intro hmem
      simpa [Offends] using hfine .orderManager hmem
  · rintro ⟨hsome, horders, hwallet⟩
    refine proper_of_fine hpublished hschedule hsome fun component hmem => ?_
    cases component with
    | orderManager => simp [Offends, horders hmem]
    | wallet => exact hwallet hmem
    | positionKeeper => exact id

/-- A fill of one unit. -/
def fill : MEClientResponse :=
  { exchangeId := .kBinance, type := .filled, tradingPair := ⟨2, 1⟩, orderId := 1, side := .kAsk,
    price := 100, execQty := 1, leavesQty := 0 }

/-- The fill is published to the given number of subscribers. -/
def published (orderManager : OrderManager) (subscribers : Nat) : World where
  pool := { store := [⟨fill, false⟩] }
  response := some 0
  refCount := subscribers
  orderManager
  wallet := {}
  keepers := binanceKeeper

/-- The order manager before its first order. -/
theorem lifetime_unused :
    let subscribers := [Component.positionKeeper, .wallet, .orderManager]
    let actions : List Action := [.accept .wallet, .accept .orderManager, .handle .orderManager,
      .accept .positionKeeper, .handle .wallet, .handle .positionKeeper]
    Published subscribers 0 fill (published {} 3) ∧
      Proper ((published {} 3).machine.outputs actions) := by
  have hpublished : Published [.positionKeeper, .wallet, .orderManager] 0 fill (published {} 3) :=
    ⟨by decide, rfl, rfl, rfl⟩
  refine ⟨hpublished, ?_⟩
  refine (lifetime_iff [.positionKeeper, .wallet, .orderManager] 0 fill (published {} 3)
    hpublished _ ⟨by decide, by decide, by decide⟩).mpr ⟨nofun, fun _ => rfl, fun _ => ?_⟩
  rintro ⟨-, current, hcurrent, -⟩
  cases hcurrent

/-- The order manager has sent the order: the block is read after it was
returned, and the last release fails. -/
theorem lifetime_broken :
    let orderManager := (OrderManager.newOrder {} .kBinance ⟨2, 1⟩ 100 .kAsk 1).1
    let actions : List Action := [.accept .orderManager, .accept .wallet, .handle .orderManager,
      .handle .wallet]
    Published [.orderManager, .wallet] 0 fill (published orderManager 2) ∧
      Schedule [.orderManager, .wallet] actions ∧
      (published orderManager 2).machine.outputs actions = [.read, .returned, .read, .fault] := by
  refine ⟨⟨by decide, rfl, rfl, rfl⟩, ⟨by decide, by decide, by decide⟩, ?_⟩
  decide

end CryptoBot.Bus

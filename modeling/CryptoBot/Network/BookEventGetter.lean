/-
# Reconnection of the book event getter

`BookEventGetter3` keeps one active session.  What resets it is a close callback
of the session itself, and the `LockFreeCallbackManager` of a session takes one
callback only: a request whose pair has a close callback of its own gets there
first, and a request without a response callback registers nothing although it
acquired the session.  Nor does a closed session leave the pool: its status stays
`Ready`, so it may be acquired again.

The active session is open throughout a run exactly if no closed session is
acquired and every active session that closes has served a request, the first of
which had no close callback of its own.
-/

import CryptoBot.Math.Machine
import CryptoBot.Common.Types

namespace CryptoBot.Network

open CryptoBot.Common CryptoBot.Math

universe ur uc un

abbrev CallbackID := UInt64

/-- The callbacks in the order `InvokeAll` finds them, the latest first; nothing
here unregisters one. -/
structure LockFreeCallbackManager (N : Type un) where
  nodes : List N := []
  nextId : CallbackID := 0
  registrationAllowed : Bool := true

namespace LockFreeCallbackManager

variable {N : Type un} (manager : LockFreeCallbackManager N)

/-- The id is -1 if the registration is refused. -/
def registerCallback (node : N) : LockFreeCallbackManager N × CallbackID :=
  if manager.registrationAllowed then
    (⟨node :: manager.nodes, manager.nextId + 1, false⟩, manager.nextId)
  else (manager, -1)

end LockFreeCallbackManager

/-- A callback of the user, or the one that resets the active session. -/
inductive OnCloseSession (C : Type uc)
  | user (callback : C)
  | defaultCBOnCloseSession
  deriving DecidableEq, Repr

/-- The fields of `WssSession3` that the getter uses. -/
structure BookSession (R : Type ur) (C : Type uc) where
  isExpired : Bool := false
  cbOnResponseManager : LockFreeCallbackManager (R × TradingPair) := {}
  cbOnCloseSessionManager : LockFreeCallbackManager (OnCloseSession C) := {}

/-- The getter with the sessions of its pool.  `awaiableConnections` are the
sessions that became ready.  `served` is a ghost: for each request that was
passed to a session, the close callback of its pair. -/
structure BookEventGetter3 (R : Type ur) (C : Type uc) where
  callbackMap : TradingPair → Option R := fun _ => none
  callbackOnCloseSessionMap : TradingPair → Option C := fun _ => none
  activeSession : Option Nat := none
  sessions : Nat → BookSession R C := fun _ => {}
  awaiableConnections : List Nat := []
  served : Nat → List (Option C) := fun _ => []

namespace BookEventGetter3

variable {R : Type ur} {C : Type uc}

/-- A registered callback may be null.  `acquired` is what `AcquireConnection`
returns if it is called. -/
inductive Event (R : Type ur) (C : Type uc)
  | registerCallback (tradingPair : TradingPair) (callback : Option R)
  | registerCallbackOnCloseSession (tradingPair : TradingPair) (callback : Option C)
  | ready (session : Nat)
  | handleBookEvent (tradingPair : TradingPair) (acquired : Nat)
  | closeSessionFast (session : Nat)

/-- A request passed to `AsyncWrite` of a session, and whether that is closed. -/
structure Report where
  session : Nat
  isExpired : Bool
  deriving DecidableEq, Repr

variable (getter : BookEventGetter3 R C)

def modify (session : Nat) (change : BookSession R C → BookSession R C) : BookEventGetter3 R C :=
  { getter with
    sessions := Function.update getter.sessions session (change (getter.sessions session)) }

def registerCallbackOnSession (callback : R) (tradingPair : TradingPair) :
    BookEventGetter3 R C :=
  match getter.activeSession with
  | some session => getter.modify session fun fields =>
      { fields with
        cbOnResponseManager :=
          (fields.cbOnResponseManager.registerCallback (callback, tradingPair)).1 }
  | none => getter

/-- `RegisterCallbackOnSessionClose` and `RegisterDefaultCallbackOnSessionClose`. -/
def registerCallbackOnSessionClose (callback : OnCloseSession C) : BookEventGetter3 R C :=
  match getter.activeSession with
  | some session => getter.modify session fun fields =>
      { fields with
        cbOnCloseSessionManager := (fields.cbOnCloseSessionManager.registerCallback callback).1 }
  | none => getter

/-- The request is noted for the active session. -/
def noteServed (callback : Option C) : BookEventGetter3 R C :=
  match getter.activeSession with
  | some session =>
      { getter with
        served := Function.update getter.served session (getter.served session ++ [callback]) }
  | none => getter

def registerCallbacksForTradingPair (tradingPair : TradingPair) : BookEventGetter3 R C × Bool :=
  match getter.callbackMap tradingPair with
  | none => (getter, false)
  | some callback =>
      let registered := getter.registerCallbackOnSession callback tradingPair
      let closing :=
        match getter.callbackOnCloseSessionMap tradingPair with
        | some callback => registered.registerCallbackOnSessionClose (.user callback)
        | none => registered
      ((closing.registerCallbackOnSessionClose .defaultCBOnCloseSession).noteServed
        (getter.callbackOnCloseSessionMap tradingPair), true)

def sendAsyncRequest : List Report :=
  getter.activeSession.toList.map fun session => ⟨session, (getter.sessions session).isExpired⟩

/-- The rest of `HandleBookEvent`, once there is an active session. -/
def sendRequest (tradingPair : TradingPair) : BookEventGetter3 R C × List Report :=
  match getter.registerCallbacksForTradingPair tradingPair with
  | (next, true) => (next, next.sendAsyncRequest)
  | (next, false) => (next, [])

/-- `AcquireConnection` blocks until a session is ready; a session that was
closed is ready as well. -/
def handleBookEvent (tradingPair : TradingPair) (acquired : Nat) :
    BookEventGetter3 R C × List Report :=
  match getter.activeSession with
  | some _ => getter.sendRequest tradingPair
  | none =>
      if acquired ∈ getter.awaiableConnections then
        { getter with activeSession := some acquired }.sendRequest tradingPair
      else (getter, [])

/-- A callback of the user does not reach into the getter. -/
def invoke (callback : OnCloseSession C) : BookEventGetter3 R C :=
  match callback with
  | .user _ => getter
  | .defaultCBOnCloseSession => { getter with activeSession := none }

def closeSessionFast (session : Nat) : BookEventGetter3 R C :=
  (getter.sessions session).cbOnCloseSessionManager.nodes.foldl invoke
    (getter.modify session fun fields => { fields with isExpired := true })

/-- A session closes once, after it was ready. -/
def step : Event R C → BookEventGetter3 R C × List Report
  | .registerCallback tradingPair callback =>
      ({ getter with
          callbackMap := Function.update getter.callbackMap tradingPair callback }, [])
  | .registerCallbackOnCloseSession tradingPair callback =>
      ({ getter with
          callbackOnCloseSessionMap :=
            Function.update getter.callbackOnCloseSessionMap tradingPair callback }, [])
  | .ready session =>
      ({ getter with awaiableConnections := getter.awaiableConnections ++ [session] }, [])
  | .handleBookEvent tradingPair acquired => getter.handleBookEvent tradingPair acquired
  | .closeSessionFast session =>
      if session ∈ getter.awaiableConnections ∧ (getter.sessions session).isExpired = false then
        (getter.closeSessionFast session, [])
      else (getter, [])

/-- The active session is open. -/
def Connected : Prop :=
  ∀ session, getter.activeSession = some session → (getter.sessions session).isExpired = false

/-- The step acquires no closed session and closes the active session only if the
first request it served had no close callback of its own. -/
def Renewing : Event R C → Prop
  | .handleBookEvent _ acquired => getter.activeSession = none →
      acquired ∈ getter.awaiableConnections → (getter.sessions acquired).isExpired = false
  | .closeSessionFast session => getter.activeSession = some session →
      session ∈ getter.awaiableConnections → (getter.sessions session).isExpired = false →
        (getter.served session).head? = some none
  | _ => True

end BookEventGetter3

/-- The runs of a getter. -/
def bookEventGetter (R : Type ur) (C : Type uc) :
    Machine (BookEventGetter3 R C) (BookEventGetter3.Event R C) BookEventGetter3.Report :=
  ⟨{}, BookEventGetter3.step⟩

/-! ## The close callback of a session -/

/-- What a request registers first. -/
def OnCloseSession.ofFound {C : Type uc} : Option C → OnCloseSession C
  | some callback => .user callback
  | none => .defaultCBOnCloseSession

namespace LockFreeCallbackManager

variable {C : Type uc}

/-- The registrations of one request. -/
def registerAll (manager : LockFreeCallbackManager (OnCloseSession C)) (found : Option C) :
    LockFreeCallbackManager (OnCloseSession C) :=
  ((match found with
    | some callback => (manager.registerCallback (.user callback)).1
    | none => manager).registerCallback .defaultCBOnCloseSession).1

/-- The manager holds what the first of these requests registered. -/
structure Holds (manager : LockFreeCallbackManager (OnCloseSession C))
    (served : List (Option C)) : Prop where
  nodes : manager.nodes = served.head?.toList.map OnCloseSession.ofFound
  allowed : manager.registrationAllowed = served.isEmpty

theorem Holds.registerAll {manager : LockFreeCallbackManager (OnCloseSession C)}
    {served : List (Option C)} (h : manager.Holds served) (found : Option C) :
    (manager.registerAll found).Holds (served ++ [found]) := by
  obtain ⟨hnodes, hallowed⟩ := h
  cases served with
  | nil =>
      simp only [List.head?_nil, Option.toList_none, List.map_nil] at hnodes
      simp only [List.isEmpty_nil] at hallowed
      cases found with
      | none =>
          constructor <;>
            simp [LockFreeCallbackManager.registerAll, registerCallback, hnodes, hallowed,
              OnCloseSession.ofFound]
      | some callback =>
          constructor <;>
            simp [LockFreeCallbackManager.registerAll, registerCallback, hnodes, hallowed,
              OnCloseSession.ofFound]
  | cons first rest =>
      simp only [List.isEmpty_cons] at hallowed
      have hsame : manager.registerAll found = manager := by
        cases found <;> simp [LockFreeCallbackManager.registerAll, registerCallback, hallowed]
      rw [hsame]
      exact ⟨by simpa using hnodes, by simp [hallowed]⟩

end LockFreeCallbackManager

namespace BookEventGetter3

variable {R : Type ur} {C : Type uc} {getter : BookEventGetter3 R C}

/-- What a request with a response callback does to the active session. -/
theorem registerCallbacksForTradingPair_eq {session : Nat} {tradingPair : TradingPair}
    {callback : R} (hactive : getter.activeSession = some session)
    (hcallback : getter.callbackMap tradingPair = some callback) :
    getter.registerCallbacksForTradingPair tradingPair =
      ({ getter.modify session fun fields =>
          { fields with
            cbOnResponseManager :=
              (fields.cbOnResponseManager.registerCallback (callback, tradingPair)).1
            cbOnCloseSessionManager := fields.cbOnCloseSessionManager.registerAll
              (getter.callbackOnCloseSessionMap tradingPair) } with
          served := Function.update getter.served session
            (getter.served session ++ [getter.callbackOnCloseSessionMap tradingPair]) }, true) := by
  cases hfound : getter.callbackOnCloseSessionMap tradingPair with
  | none =>
      simp [registerCallbacksForTradingPair, hcallback, hfound, registerCallbackOnSession,
        registerCallbackOnSessionClose, noteServed, modify, hactive,
        LockFreeCallbackManager.registerAll]
  | some close =>
      simp [registerCallbacksForTradingPair, hcallback, hfound, registerCallbackOnSession,
        registerCallbackOnSessionClose, noteServed, modify, hactive,
        LockFreeCallbackManager.registerAll]

/-- The active session is open, a session that is open holds the callback of its
first request, and only the active one served any. -/
structure Tied (getter : BookEventGetter3 R C) : Prop where
  active : ∀ session, getter.activeSession = some session →
    session ∈ getter.awaiableConnections ∧ (getter.sessions session).isExpired = false
  holds : ∀ session, (getter.sessions session).isExpired = false →
    (getter.sessions session).cbOnCloseSessionManager.Holds (getter.served session)
  unused : ∀ session, (getter.sessions session).isExpired = false →
    getter.activeSession ≠ some session → getter.served session = []

namespace Tied

theorem init : Tied ({} : BookEventGetter3 R C) where
  active := by simp
  holds _ _ := ⟨rfl, rfl⟩
  unused := by simp

theorem connected (h : Tied getter) : getter.Connected := fun session hactive =>
  (h.active session hactive).2

/-- A request on the active session. -/
theorem sendRequest (h : Tied getter) {session : Nat}
    (hactive : getter.activeSession = some session) (tradingPair : TradingPair) :
    Tied (getter.sendRequest tradingPair).1 ∧
      ∀ report ∈ (getter.sendRequest tradingPair).2, report.isExpired = false := by
  have hopen := (h.active session hactive).2
  cases hcallback : getter.callbackMap tradingPair with
  | none =>
      simp only [BookEventGetter3.sendRequest, registerCallbacksForTradingPair, hcallback]
      exact ⟨h, by simp⟩
  | some callback =>
      simp only [BookEventGetter3.sendRequest,
        registerCallbacksForTradingPair_eq hactive hcallback]
      refine ⟨⟨?_, ?_, ?_⟩, ?_⟩
      · intro other hother
        obtain ⟨hready, hother⟩ := h.active other hother
        refine ⟨hready, ?_⟩
        by_cases heq : other = session
        · simp [modify, heq, hopen]
        · simp [modify, Function.update_of_ne heq, hother]
      · intro other hother
        by_cases heq : other = session
        · subst heq
          simpa [modify] using (h.holds other hopen).registerAll _
        · simp only [modify, Function.update_of_ne heq] at hother ⊢
          exact h.holds other hother
      · intro other hother hinactive
        have heq : other ≠ session := by
          rintro rfl
          exact hinactive hactive
        simp only [modify, Function.update_of_ne heq] at hother ⊢
        exact h.unused other hother hinactive
      · simp [sendAsyncRequest, modify, hactive, hopen]

theorem handleBookEvent (h : Tied getter) (tradingPair : TradingPair) {acquired : Nat}
    (hopen : getter.activeSession = none → acquired ∈ getter.awaiableConnections →
      (getter.sessions acquired).isExpired = false) :
    Tied (getter.handleBookEvent tradingPair acquired).1 ∧
      ∀ report ∈ (getter.handleBookEvent tradingPair acquired).2, report.isExpired = false := by
  rw [BookEventGetter3.handleBookEvent]
  split
  · rename_i session hactive
    exact h.sendRequest hactive tradingPair
  · rename_i hactive
    split
    · rename_i hready
      have hacquired : Tied { getter with activeSession := some acquired } := by
        refine ⟨?_, h.holds, ?_⟩
        · intro session hsession
          cases hsession
          exact ⟨hready, hopen hactive hready⟩
        · intro session hsession _
          exact h.unused session hsession (by simp [hactive])
      exact hacquired.sendRequest rfl tradingPair
    · exact ⟨h, by simp⟩

/-- Closing a session that resets the getter, or one that is not active. -/
theorem closeSessionFast (h : Tied getter) {session : Nat}
    (hopen : (getter.sessions session).isExpired = false)
    (hfirst : getter.activeSession = some session →
      (getter.served session).head? = some none) : Tied (getter.closeSessionFast session) := by
  have hnodes := (h.holds session hopen).nodes
  have hholds {active : Option Nat} : ∀ other,
      (({ getter.modify session fun fields => { fields with isExpired := true } with
        activeSession := active } : BookEventGetter3 R C).sessions other).isExpired = false →
      other ≠ session ∧ (getter.sessions other).isExpired = false := by
    intro other hother
    by_cases heq : other = session
    · simp [modify, heq] at hother
    · simp only [modify, Function.update_of_ne heq] at hother
      exact ⟨heq, hother⟩
  by_cases hactive : getter.activeSession = some session
  · rw [hfirst hactive] at hnodes
    have hclosed : getter.closeSessionFast session =
        { getter.modify session fun fields => { fields with isExpired := true } with
          activeSession := none } := by
      simp [BookEventGetter3.closeSessionFast, hnodes, OnCloseSession.ofFound, invoke]
    rw [hclosed]
    refine ⟨by simp, ?_, ?_⟩
    · intro other hother
      obtain ⟨heq, hother⟩ := hholds other hother
      simp only [modify, Function.update_of_ne heq]
      exact h.holds other hother
    · intro other hother _
      obtain ⟨heq, hother⟩ := hholds other hother
      exact h.unused other hother (by simp [hactive, Ne.symm heq])
  · rw [h.unused session hopen hactive] at hnodes
    have hclosed : getter.closeSessionFast session =
        { getter.modify session fun fields => { fields with isExpired := true } with
          activeSession := getter.activeSession } := by
      simp [BookEventGetter3.closeSessionFast, hnodes, modify]
    rw [hclosed]
    refine ⟨?_, ?_, ?_⟩
    · intro other hother
      have heq : other ≠ session := by
        rintro rfl
        exact hactive hother
      simp only [modify, Function.update_of_ne heq]
      exact h.active other hother
    · intro other hother
      obtain ⟨heq, hother⟩ := hholds other hother
      simp only [modify, Function.update_of_ne heq]
      exact h.holds other hother
    · intro other hother hinactive
      obtain ⟨-, hother⟩ := hholds other hother
      exact h.unused other hother hinactive

/-- A renewing step keeps the active session open and writes only to it. -/
theorem step (h : Tied getter) (event : Event R C) (hrenewing : getter.Renewing event) :
    Tied (getter.step event).1 ∧
      ∀ report ∈ (getter.step event).2, report.isExpired = false := by
  cases event with
  | registerCallback tradingPair callback =>
      exact ⟨⟨h.active, h.holds, h.unused⟩, by simp [BookEventGetter3.step]⟩
  | registerCallbackOnCloseSession tradingPair callback =>
      exact ⟨⟨h.active, h.holds, h.unused⟩, by simp [BookEventGetter3.step]⟩
  | ready session =>
      refine ⟨⟨?_, h.holds, h.unused⟩, by simp [BookEventGetter3.step]⟩
      intro other hother
      obtain ⟨hready, hopen⟩ := h.active other hother
      exact ⟨List.mem_append_left _ hready, hopen⟩
  | handleBookEvent tradingPair acquired => exact h.handleBookEvent tradingPair hrenewing
  | closeSessionFast session =>
      simp only [BookEventGetter3.step]
      split
      · rename_i hclose
        refine ⟨h.closeSessionFast hclose.2 fun hactive => ?_, by simp⟩
        exact hrenewing hactive hclose.1 hclose.2
      · exact ⟨h, by simp⟩

theorem run {events : List (Event R C)}
    (hrenewing : EveryStep (fun before event =>
      ((bookEventGetter R C).run before).Renewing event) events) :
    Tied ((bookEventGetter R C).run events) ∧
      ∀ report ∈ (bookEventGetter R C).outputs events, report.isExpired = false :=
  (bookEventGetter R C).outputs_of_everyStep Renewing Tied (fun report => report.isExpired = false)
    init (fun _ event h => h.step event) hrenewing

/-- A closed session that is acquired stays active. -/
theorem not_connected_of_acquired {tradingPair : TradingPair} {acquired : Nat}
    (hactive : getter.activeSession = none) (hready : acquired ∈ getter.awaiableConnections)
    (hclosed : (getter.sessions acquired).isExpired = true) :
    ¬ (getter.handleBookEvent tradingPair acquired).1.Connected := by
  intro hconnected
  have hopen := hconnected acquired
  cases hcallback : getter.callbackMap tradingPair with
  | none =>
      simp [BookEventGetter3.handleBookEvent, hactive, hready, BookEventGetter3.sendRequest,
        registerCallbacksForTradingPair, hcallback, hclosed] at hopen
  | some callback =>
      have hnext : ({ getter with activeSession := some acquired } :
          BookEventGetter3 R C).registerCallbacksForTradingPair tradingPair = _ :=
        registerCallbacksForTradingPair_eq rfl hcallback
      simp [BookEventGetter3.handleBookEvent, hactive, hready, BookEventGetter3.sendRequest,
        hnext, modify, hclosed] at hopen

/-- Without the reset the closed session stays active. -/
theorem not_connected_of_closed (h : Tied getter) {session : Nat}
    (hactive : getter.activeSession = some session)
    (hopen : (getter.sessions session).isExpired = false)
    (hfirst : (getter.served session).head? ≠ some none) :
    ¬ (getter.closeSessionFast session).Connected := by
  intro hconnected
  have hnodes := (h.holds session hopen).nodes
  have hstill := hconnected session
  cases hhead : (getter.served session).head? with
  | none =>
      simp [BookEventGetter3.closeSessionFast, hnodes, hhead, modify, hactive] at hstill
  | some found =>
      cases found with
      | none => exact hfirst hhead
      | some callback =>
          simp [BookEventGetter3.closeSessionFast, hnodes, hhead, OnCloseSession.ofFound, invoke,
            modify, hactive] at hstill

/-- Any other step leaves a closed session active. -/
theorem not_connected (h : Tied getter) {event : Event R C}
    (hrenewing : ¬ getter.Renewing event) : ¬ (getter.step event).1.Connected := by
  cases event with
  | registerCallback tradingPair callback => exact (hrenewing trivial).elim
  | registerCallbackOnCloseSession tradingPair callback => exact (hrenewing trivial).elim
  | ready session => exact (hrenewing trivial).elim
  | handleBookEvent tradingPair acquired =>
      simp only [Renewing, not_forall] at hrenewing
      obtain ⟨hactive, hready, hclosed⟩ := hrenewing
      exact not_connected_of_acquired hactive hready (by simpa using hclosed)
  | closeSessionFast session =>
      simp only [Renewing, not_forall] at hrenewing
      obtain ⟨hactive, hready, hopen, hfirst⟩ := hrenewing
      simp only [BookEventGetter3.step, hready, hopen, and_self, if_true]
      exact h.not_connected_of_closed hactive hopen hfirst

end Tied

/-- The active session is open in every state of a run, and no request is passed
to a closed session, if and only if no closed session is acquired and every
active session that closes served a request, the first without a close callback
of its own. -/
theorem reconnects_iff (events : List (Event R C)) :
    ((∀ before after, events = before ++ after → ((bookEventGetter R C).run before).Connected) ∧
        ∀ report ∈ (bookEventGetter R C).outputs events, report.isExpired = false) ↔
      EveryStep (fun before event => ((bookEventGetter R C).run before).Renewing event)
        events := by
  constructor
  · rintro ⟨h, -⟩
    induction events using List.reverseRecOn with
    | nil => exact EveryStep.nil
    | append_singleton events event ih =>
        have hearlier := ih fun before after heq => h before (after ++ [event]) (by simp [heq])
        refine EveryStep.concat_iff.mpr ⟨hearlier, ?_⟩
        by_contra hrenewing
        have hconnected := h (events ++ [event]) [] (by simp)
        rw [Machine.run_concat] at hconnected
        exact (Tied.run hearlier).1.not_connected hrenewing hconnected
  · intro h
    refine ⟨?_, (Tied.run h).2⟩
    rintro before after rfl
    exact (Tied.run h.left).1.connected

/-- A pair with a close callback of its own, whose session closes before the next
request. -/
def closedByUser : List (Event Unit Unit) :=
  [.registerCallback ⟨2, 1⟩ (some ()), .registerCallbackOnCloseSession ⟨2, 1⟩ (some ()),
    .ready 0, .ready 1, .handleBookEvent ⟨2, 1⟩ 0, .closeSessionFast 0,
    .handleBookEvent ⟨2, 1⟩ 1]

/-- The reset was refused: the closed session stays active and gets the next
request. -/
theorem closedByUser_keeps_session :
    ((bookEventGetter Unit Unit).run closedByUser).activeSession = some 0 ∧
      (bookEventGetter Unit Unit).outputs closedByUser = [⟨0, false⟩, ⟨0, true⟩] ∧
      ¬ ((bookEventGetter Unit Unit).run closedByUser).Connected := by
  have hactive : ((bookEventGetter Unit Unit).run closedByUser).activeSession = some 0 := by
    decide
  refine ⟨hactive, by decide, ?_⟩
  intro hconnected
  exact absurd (hconnected 0 hactive) (by decide)

end BookEventGetter3

end CryptoBot.Network

/-
# The pool of HTTPS sessions

`ConnectionPool` keeps its sessions in a memory pool and queues pointers to
those that are ready.  A session is a handful of coroutines and handlers: `Run`
connects it, a timer bounds the connecting, `AsyncRequest` queues a request on
the strand, and `RequestLoop` serves one request and closes the session.  Each
of them runs without interruption up to its next `co_await`, and in between
they interleave in any order, so a step of the model is one such segment.

Closing and expiry free the session and build a new one.  The memory pool hands
out the block that was freed last and a flag keeps other callbacks away, so the
new session takes the block of the old one.  Pointers carry a ghost serial, the
number of sessions built in the block before, which tells the two apart; the
steps themselves only see the block.

A write or a read that raises is caught in `RequestLoop`, which then goes on as if
there was a response: the callback gets the response object as it is, and the
session closes.  A callback that raises is caught nowhere.  It ends the coroutine,
and the session stays as it is.

The queues may return their elements in any order.  A use of a session is an
access to its fields by one of these segments.  The callback that frees a session
is a closure which that session stores, so it also runs on after its own captures
were destroyed; that is no segment of its own and is not counted.
-/

import CryptoBot.Math.Machine
import CryptoBot.Common.Types

namespace CryptoBot.Network

open CryptoBot.Common CryptoBot.Math

inductive StatusSession
  | resolving | connecting | handshaking | ready | kInProcess | expired | closing | cancelling
  deriving DecidableEq, Repr

/-- A request of `BookSnapshot2`.  The callback it registers is named after it. -/
structure SnapshotRequest where
  id : Nat
  tradingPair : TradingPair
  deriving DecidableEq, Repr

structure HttpsSession3 where
  status : StatusSession := .resolving
  needExecuteOnClosedSystem : Bool := true
  requestQueue : List SnapshotRequest := []
  onResponse : Option SnapshotRequest := none
  isProcessing : Bool := false
  deriving DecidableEq, Repr

structure SessionPointer where
  block : Nat
  serial : Nat
  deriving DecidableEq, Repr

/-- Where `Run` of a session waits. -/
inductive RunStage
  | started | resolving | connecting | handshaking
  deriving DecidableEq, Repr

/-- How far a request came: `CoExec` up to `dispatched`, then the handler of
`AsyncRequest`, then the `RequestLoop` that serves it. -/
inductive Stage
  | idle
  | acquiring
  | acquired (session : SessionPointer)
  | registered (session : SessionPointer)
  | dispatched (session : SessionPointer)
  | queued (session : SessionPointer)
  | writing (session : SessionPointer)
  | reading (session : SessionPointer)
  | answered
  | failed
  | refused
  deriving DecidableEq, Repr

/-- The session a request works with. -/
def Stage.session : Stage → Option SessionPointer
  | .idle | .acquiring | .answered | .failed | .refused => none
  | .acquired session | .registered session | .dispatched session | .queued session
  | .writing session | .reading session => some session

/-- `RequestLoop` waits in its `try` block. -/
def Stage.inFlight : Stage → Bool
  | .writing _ | .reading _ => true
  | _ => false

/-- The pool with the coroutines of its sessions and the requests that use it.
`serial`, `holder` and `fault` are ghosts: the number of sessions built in a
block before the present one, the request the session of a block was handed to,
and whether a session was used after its deallocation. -/
structure ConnectionPool where
  callbackMap : List TradingPair
  awaiableConnections : List SessionPointer
  isHandlingSession : Bool
  sessions : Nat → HttpsSession3
  runs : List (SessionPointer × RunStage)
  timers : List SessionPointer
  requestLoops : List SessionPointer
  stage : SnapshotRequest → Stage
  serial : Nat → Nat
  holder : Nat → Option SnapshotRequest
  fault : Bool

inductive Event
  | resume (session : SessionPointer) (runStage : RunStage) (succeeded : Bool)
  | timer (session : SessionPointer)
  | coExec (request : SnapshotRequest)
  | acquireConnection (request : SnapshotRequest) (session : SessionPointer) (enqueued : Bool)
  | registerOnResponse (request : SnapshotRequest)
  | asyncRequest (request : SnapshotRequest)
  | handleRequest (request : SnapshotRequest) (accepted : Bool)
  | requestLoop (session : SessionPointer) (next : SnapshotRequest) (enqueued : Bool)
  | written (request : SnapshotRequest)
  | responseRead (request : SnapshotRequest) (returned : Bool)
  | requestFailed (request : SnapshotRequest) (returned : Bool)
  deriving DecidableEq, Repr

/-- What a step makes visible: the session `AcquireConnection` returns and
whether it is alive, the callback that gets the response to a request, the
callback that runs although no response to the request was read, and the requests
left in the queue of a session that closes. -/
inductive Report
  | acquired (session : SessionPointer) (live : Bool)
  | response (request callback : SnapshotRequest)
  | unread (request callback : SnapshotRequest)
  | closing (unsent : List SnapshotRequest)
  deriving DecidableEq, Repr

namespace ConnectionPool

def new (poolSize : Nat) (callbackMap : List TradingPair) : ConnectionPool where
  callbackMap := callbackMap
  awaiableConnections := []
  isHandlingSession := false
  sessions _ := {}
  runs := (List.range poolSize).map fun block => (⟨block, 0⟩, .started)
  timers := []
  requestLoops := []
  stage _ := .idle
  serial _ := 0
  holder _ := none
  fault := false

variable (pool : ConnectionPool)

/-- The session was not deallocated. -/
def Live (session : SessionPointer) : Prop := session.serial = pool.serial session.block

instance : DecidablePred pool.Live := fun _ => inferInstanceAs (Decidable (_ = _))

/-- A use of the session. -/
def touch (session : SessionPointer) : ConnectionPool :=
  { pool with fault := pool.fault || !decide (pool.Live session) }

/-- A write to the fields of the session. -/
def modify (session : SessionPointer) (change : HttpsSession3 → HttpsSession3) : ConnectionPool :=
  { pool.touch session with
    sessions := Function.update pool.sessions session.block
      (change (pool.sessions session.block)) }

def setStage (request : SnapshotRequest) (stage : Stage) : ConnectionPool :=
  { pool with stage := Function.update pool.stage request stage }

/-- `Deallocate` and `TryCreateNewSession`: a new session in the same block,
whose `Run` is spawned. -/
def recreate (block : Nat) : ConnectionPool :=
  { pool with
    sessions := Function.update pool.sessions block {}
    runs := pool.runs ++ [(⟨block, pool.serial block + 1⟩, .started)]
    serial := Function.update pool.serial block (pool.serial block + 1)
    holder := Function.update pool.holder block none }

/-- The callback of `RegisterOnSystemClosed` and `RegisterOnExpired`, whose closure
goes with the session it frees. -/
def onClosed (block : Nat) : ConnectionPool :=
  if pool.isHandlingSession then pool
  else
    { ({ pool with isHandlingSession := true }).recreate block with isHandlingSession := false }

/-- The callback of `RegisterOnReady`; `enqueued` is the result of
`try_enqueue`. -/
def onReady (block : Nat) (enqueued : Bool) : ConnectionPool :=
  if enqueued then
    { pool with
      awaiableConnections := pool.awaiableConnections ++ [⟨block, pool.serial block⟩] }
  else pool

def transitionTo (session : SessionPointer) (status : StatusSession) (enqueued : Bool) :
    ConnectionPool :=
  if (pool.sessions session.block).status = status then pool.touch session
  else
    let next := pool.modify session fun fields => { fields with status := status }
    match status with
    | .ready => next.onReady session.block enqueued
    | .expired | .closing =>
        if (pool.sessions session.block).needExecuteOnClosedSystem then
          (next.modify session fun fields =>
            { fields with needExecuteOnClosedSystem := false }).onClosed session.block
        else next
    | _ => next

/-- `Run` continues: the operation it waited for succeeded or failed.  A failed
resolve or connect raises out of the coroutine. -/
def resume (session : SessionPointer) : RunStage → Bool → ConnectionPool
  | .started, true =>
      let next := pool.modify session fun fields => { fields with status := .resolving }
      { next with timers := next.timers ++ [session], runs := next.runs ++ [(session, .resolving)] }
  | .resolving, true =>
      let next := pool.modify session fun fields => { fields with status := .connecting }
      { next with runs := next.runs ++ [(session, .connecting)] }
  | .connecting, true =>
      let next := pool.modify session fun fields => { fields with status := .handshaking }
      { next with runs := next.runs ++ [(session, .handshaking)] }
  -- `cancel_timer` does not stop a handler that is queued already
  | .handshaking, true =>
      let next := pool.touch session
      { next with requestLoops := next.requestLoops ++ [session] }
  | .started, false | .handshaking, false => pool.transitionTo session .expired false
  | .resolving, false | .connecting, false => pool

/-- One round of the loop in `AcquireConnection`. -/
def acquireConnection (request : SnapshotRequest) (session : SessionPointer) (enqueued : Bool) :
    ConnectionPool × List Report :=
  let others := pool.awaiableConnections.erase session
  let next := { pool.touch session with
    awaiableConnections := if enqueued then others ++ [session] else others }
  if (pool.sessions session.block).status = .ready then
    ({ next.setStage request (.acquired session) with
        holder := Function.update pool.holder session.block (some request) },
      [.acquired session (decide (pool.Live session))])
  else (next, [])

/-- The handler of `AsyncRequest` on the strand; `accepted` is the result of
`try_enqueue`. -/
def handleRequest (request : SnapshotRequest) (session : SessionPointer) (accepted : Bool) :
    ConnectionPool :=
  let next := (pool.modify session fun fields =>
    { fields with
      requestQueue := if accepted then fields.requestQueue ++ [request] else fields.requestQueue
      isProcessing := true }).setStage request (if accepted then .queued session else .refused)
  if (pool.sessions session.block).isProcessing then next
  else { next with requestLoops := next.requestLoops ++ [session] }

/-- `RequestLoop` up to its first `co_await`. -/
def requestLoop (session : SessionPointer) (next : SnapshotRequest) (enqueued : Bool) :
    ConnectionPool :=
  let ready := pool.transitionTo session .ready enqueued
  if (pool.sessions session.block).requestQueue = [] then ready
  else
    ((ready.transitionTo session .kInProcess false).modify session fun fields =>
      { fields with requestQueue := fields.requestQueue.erase next }).setStage next
        (.writing session)

/-- The session has a callback, and it raises. -/
def callbackRaises (session : SessionPointer) (returned : Bool) : Bool :=
  !returned && (pool.sessions session.block).onResponse.isSome

/-- The rest of `RequestLoop` behind its `try` block; `returned` says whether the
callback, if there is one, returns. -/
def finishRequest (request : SnapshotRequest) (session : SessionPointer) (stage : Stage)
    (returned : Bool) (onResponse : SnapshotRequest → Report) : ConnectionPool × List Report :=
  let fields := pool.sessions session.block
  let called := fields.onResponse.toList.map onResponse
  if pool.callbackRaises session returned then
    ((pool.touch session).setStage request stage, called)
  else
    let closed := (pool.setStage request stage).transitionTo session .closing false
    (closed.modify session fun fields => { fields with isProcessing := false },
      called ++ [.closing fields.requestQueue])

/-- The response was read. -/
def responseRead (request : SnapshotRequest) (session : SessionPointer) (returned : Bool) :
    ConnectionPool × List Report :=
  pool.finishRequest request session .answered returned (.response request)

/-- The write or the read raised and was caught; `res_` holds no response. -/
def requestFailed (request : SnapshotRequest) (session : SessionPointer) (returned : Bool) :
    ConnectionPool × List Report :=
  pool.finishRequest request session .failed returned (.unread request)

/-- A segment that cannot run leaves the pool alone. -/
def step : Event → ConnectionPool × List Report
  | .resume session runStage succeeded =>
      if (session, runStage) ∈ pool.runs then
        (({ pool with runs := pool.runs.erase (session, runStage) }).resume session runStage
          succeeded, [])
      else (pool, [])
  | .timer session =>
      if session ∈ pool.timers then
        (({ pool with timers := pool.timers.erase session }).transitionTo session .expired false,
          [])
      else (pool, [])
  | .coExec request =>
      if pool.stage request = .idle ∧ request.tradingPair ∈ pool.callbackMap then
        (pool.setStage request .acquiring, [])
      else (pool, [])
  | .acquireConnection request session enqueued =>
      if pool.stage request = .acquiring ∧ session ∈ pool.awaiableConnections then
        pool.acquireConnection request session enqueued
      else (pool, [])
  | .registerOnResponse request =>
      match pool.stage request with
      | .acquired session =>
          ((pool.modify session fun fields =>
            { fields with onResponse := some request }).setStage request (.registered session), [])
      | _ => (pool, [])
  | .asyncRequest request =>
      match pool.stage request with
      | .registered session => ((pool.touch session).setStage request (.dispatched session), [])
      | _ => (pool, [])
  | .handleRequest request accepted =>
      match pool.stage request with
      | .dispatched session => (pool.handleRequest request session accepted, [])
      | _ => (pool, [])
  | .requestLoop session next enqueued =>
      if session ∈ pool.requestLoops ∧ ((pool.sessions session.block).requestQueue = [] ∨
          next ∈ (pool.sessions session.block).requestQueue) then
        (({ pool with requestLoops := pool.requestLoops.erase session }).requestLoop session next
          enqueued, [])
      else (pool, [])
  | .written request =>
      match pool.stage request with
      | .writing session => ((pool.touch session).setStage request (.reading session), [])
      | _ => (pool, [])
  | .responseRead request returned =>
      match pool.stage request with
      | .reading session => pool.responseRead request session returned
      | _ => (pool, [])
  | .requestFailed request returned =>
      match pool.stage request with
      | .writing session | .reading session => pool.requestFailed request session returned
      | _ => (pool, [])

/-! ## Writes to a session -/

variable {pool}

theorem sessions_modify_self (session : SessionPointer)
    (change : HttpsSession3 → HttpsSession3) :
    (pool.modify session change).sessions session.block =
      change (pool.sessions session.block) := by
  simp [modify]

theorem sessions_modify_of_ne {session : SessionPointer} (change : HttpsSession3 → HttpsSession3)
    {block : Nat} (h : block ≠ session.block) :
    (pool.modify session change).sessions block = pool.sessions block := by
  simp [modify, Function.update_of_ne h]

theorem sessions_recreate_of_ne {block other : Nat} (h : other ≠ block) :
    (pool.recreate block).sessions other = pool.sessions other := by
  simp [recreate, Function.update_of_ne h]

theorem serial_recreate_self (block : Nat) :
    (pool.recreate block).serial block = pool.serial block + 1 := by
  simp [recreate]

theorem serial_recreate_of_ne {block other : Nat} (h : other ≠ block) :
    (pool.recreate block).serial other = pool.serial other := by
  simp [recreate, Function.update_of_ne h]

theorem le_serial_recreate (block other : Nat) :
    pool.serial other ≤ (pool.recreate block).serial other := by
  by_cases hother : other = block
  · rw [hother, serial_recreate_self]
    omega
  · rw [serial_recreate_of_ne hother]

/-- Writes to a session and the progress of requests do not meet. -/
theorem setStage_modify (session : SessionPointer) (change : HttpsSession3 → HttpsSession3)
    (request : SnapshotRequest) (stage : Stage) :
    (pool.modify session change).setStage request stage =
      (pool.setStage request stage).modify session change := rfl

end ConnectionPool

/-- The runs of a pool. -/
def connectionPool (poolSize : Nat) (callbackMap : List TradingPair) :
    Machine ConnectionPool Event Report :=
  ⟨.new poolSize callbackMap, ConnectionPool.step⟩

/-! ## Sample steps -/

/-- The first request for a pair. -/
def firstRequest : SnapshotRequest := ⟨0, ⟨2, 1⟩⟩

/-- A request for another pair. -/
def secondRequest : SnapshotRequest := ⟨1, ⟨3, 1⟩⟩

/-- The steps that make a session ready. -/
def connect (session : SessionPointer) : List Event :=
  [.resume session .started true, .resume session .resolving true,
    .resume session .connecting true, .resume session .handshaking true,
    .requestLoop session firstRequest true]

end CryptoBot.Network

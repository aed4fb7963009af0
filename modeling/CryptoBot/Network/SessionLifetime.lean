/-
# No dead session is handed out

The callbacks that free a session leave its pointer in the queue, and
`RequestLoop` writes to the session once more after the callback that freed it.
So a pool is sound only until a `RequestLoop` closed its session, which it does
behind every request, served or failed, whose callback returns.

Short of that it is enough that a timer catches its session alive and still
resolving or connecting: such a session was never queued, and its `Run` ends
with the error of the operation that the expiry aborted.  The uses that count are
those of the coroutines and handlers; the reads of its own captures by the
callback that frees a session are left out.
-/

import CryptoBot.Network.ConnectionPool

namespace CryptoBot.Network

open CryptoBot.Common CryptoBot.Math

/-- `RequestLoop` waits for the response. -/
def Stage.isReading : Stage → Bool
  | .reading _ => true
  | _ => false

/-- The callback that the request runs raises, so that its `RequestLoop` closes no
session. -/
def ConnectionPool.leavesOpen (pool : ConnectionPool) (request : SnapshotRequest)
    (returned : Bool) : Bool :=
  (pool.stage request).session.all fun session => pool.callbackRaises session returned

/-- The step takes no `RequestLoop` to the closing of its session, be it after a
response or after a failed write or read, expires only a session that is alive and
not yet in its handshake, and continues `Run` of a dead session only with an
error. -/
def ConnectionPool.Tame (pool : ConnectionPool) : Event → Prop
  | .responseRead request returned =>
      (pool.stage request).isReading = true → pool.leavesOpen request returned = true
  | .requestFailed request returned =>
      (pool.stage request).inFlight = true → pool.leavesOpen request returned = true
  | .timer session => session ∈ pool.timers → pool.Live session ∧
      ((pool.sessions session.block).status = .resolving ∨
        (pool.sessions session.block).status = .connecting)
  | .resume session runStage true => (session, runStage) ∈ pool.runs → pool.Live session
  | _ => True

instance (pool : ConnectionPool) : DecidablePred pool.Tame
  | .responseRead _ _ | .requestFailed _ _ => inferInstanceAs (Decidable (_ → _))
  | .timer _ => inferInstanceAs (Decidable (_ → _ ∧ (_ ∨ _)))
  | .resume _ _ true => inferInstanceAs (Decidable (_ → _))
  | .resume _ _ false | .coExec _ | .acquireConnection _ _ _ | .registerOnResponse _
  | .asyncRequest _ | .handleRequest _ _ | .requestLoop _ _ _ | .written _ => .isTrue trivial

/-- No pointer in the queue is dead, and no session was used after it was freed. -/
structure ConnectionPool.Sound (pool : ConnectionPool) : Prop where
  queue : ∀ session ∈ pool.awaiableConnections, pool.Live session
  fault : pool.fault = false

/-- The acquired session is alive. -/
def Report.Alive : Report → Prop
  | .acquired _ live => live = true
  | .response _ _ | .unread _ _ | .closing _ => True

/-! ## The invariant -/

/-- The status of a session whose `Run` waits. -/
def RunStage.status : RunStage → StatusSession
  | .started | .resolving => .resolving
  | .connecting => .connecting
  | .handshaking => .handshaking

/-- `Run` of the session is over and the session is alive. -/
def ConnectionPool.Opened (pool : ConnectionPool) (session : SessionPointer) : Prop :=
  pool.Live session ∧ ∀ runStage : RunStage,
    (pool.sessions session.block).status ≠ runStage.status

/-- Every pointer that is kept somewhere belongs to a session that is alive; only
`Run` of an expired session may outlive it, where it waits for an operation that
was aborted. -/
structure Safe (pool : ConnectionPool) : Prop where
  fault : pool.fault = false
  handling : pool.isHandlingSession = false
  unclosed : ∀ block, (pool.sessions block).needExecuteOnClosedSystem = true ∧
    (pool.sessions block).status ≠ .expired
  queue : ∀ session ∈ pool.awaiableConnections, pool.Opened session
  stages : ∀ request session, (pool.stage request).session = some session → pool.Opened session
  loops : ∀ session ∈ pool.requestLoops, pool.Live session ∧
    (pool.sessions session.block).status ≠ .resolving ∧
    (pool.sessions session.block).status ≠ .connecting ∧
    ∀ runStage, (session, runStage) ∉ pool.runs
  runs : ∀ session runStage, (session, runStage) ∈ pool.runs →
    session.serial ≤ pool.serial session.block ∧
    (pool.Live session → (pool.sessions session.block).status = runStage.status) ∧
    (¬ pool.Live session → runStage = .resolving ∨ runStage = .connecting)
  nodup : (pool.runs.map Prod.fst).Nodup
  timers : ∀ session ∈ pool.timers, session.serial ≤ pool.serial session.block ∧
    (session, .started) ∉ pool.runs

namespace Safe

variable {pool : ConnectionPool}

theorem init (poolSize : Nat) (callbackMap : List TradingPair) :
    Safe (.new poolSize callbackMap) where
  fault := rfl
  handling := rfl
  unclosed := by simp [ConnectionPool.new]
  queue := by simp [ConnectionPool.new]
  stages := by simp [ConnectionPool.new, Stage.session]
  loops := by simp [ConnectionPool.new]
  runs := by
    intro session runStage hmem
    obtain ⟨block, -, heq⟩ := List.mem_map.mp hmem
    cases heq
    simp [ConnectionPool.new, ConnectionPool.Live, RunStage.status]
  nodup := by
    simp only [ConnectionPool.new, List.map_map]
    apply List.Nodup.map _ List.nodup_range
    intro first second heq
    exact (congrArg SessionPointer.block heq :)
  timers := by simp [ConnectionPool.new]

/-- Live pointers to one block are equal. -/
theorem eq_of_live {first second : SessionPointer} (hfirst : pool.Live first)
    (hsecond : pool.Live second) (hblock : first.block = second.block) : first = second := by
  obtain ⟨block, serial⟩ := first
  obtain ⟨other, second⟩ := second
  cases hblock
  rw [ConnectionPool.Live] at hfirst hsecond
  simp only at hfirst hsecond
  rw [hfirst, hsecond]

theorem block_ne_of_live {first second : SessionPointer} (hfirst : pool.Live first)
    (hsecond : pool.Live second) (hne : first ≠ second) : first.block ≠ second.block :=
  fun hblock => hne (eq_of_live hfirst hsecond hblock)

/-- A session that waits nowhere may start to wait. -/
theorem nodup_runs_concat {runs : List (SessionPointer × RunStage)} {session : SessionPointer}
    (hnodup : (runs.map Prod.fst).Nodup) (hnone : ∀ runStage, (session, runStage) ∉ runs)
    (runStage : RunStage) : ((runs ++ [(session, runStage)]).map Prod.fst).Nodup := by
  rw [List.map_append, List.map_singleton]
  refine List.nodup_append.mpr ⟨hnodup, List.nodup_singleton _, ?_⟩
  intro first hfirst second hsecond heq
  rw [List.mem_singleton] at hsecond
  obtain ⟨⟨other, stage⟩, hmem, rfl⟩ := List.mem_map.mp hfirst
  simp only at heq
  rw [heq, hsecond] at hmem
  exact hnone stage hmem

/-- `Run` of an open session is over. -/
theorem not_mem_runs (h : Safe pool) {session : SessionPointer} (hopened : pool.Opened session)
    (runStage : RunStage) : (session, runStage) ∉ pool.runs := fun hmem =>
  hopened.2 runStage ((h.runs session runStage hmem).2.1 hopened.1)

/-- The place of a session in `runs` is unique. -/
theorem runStage_eq (h : Safe pool) {session : SessionPointer} {first second : RunStage}
    (hfirst : (session, first) ∈ pool.runs) (hsecond : (session, second) ∈ pool.runs) :
    first = second := by
  have heq := List.inj_on_of_nodup_map h.nodup hfirst hsecond rfl
  exact congrArg Prod.snd heq

/-- Steps that keep the sessions and their `Run`. -/
theorem of_frame (h : Safe pool) (next : ConnectionPool) (hfault : next.fault = false)
    (hhandling : next.isHandlingSession = false) (hserial : next.serial = pool.serial)
    (hstatus : ∀ block, (next.sessions block).status = (pool.sessions block).status)
    (hneed : ∀ block, (next.sessions block).needExecuteOnClosedSystem =
      (pool.sessions block).needExecuteOnClosedSystem)
    (hruns : next.runs = pool.runs) (htimers : next.timers = pool.timers)
    (hqueue : ∀ session ∈ next.awaiableConnections, session ∈ pool.awaiableConnections)
    (hloops : ∀ session ∈ next.requestLoops, session ∈ pool.requestLoops ∨ pool.Opened session)
    (hstages : ∀ request session, (next.stage request).session = some session →
      pool.Opened session) : Safe next := by
  have hlive (session : SessionPointer) : next.Live session ↔ pool.Live session := by
    rw [ConnectionPool.Live, ConnectionPool.Live, hserial]
  have hopened (session : SessionPointer) : next.Opened session ↔ pool.Opened session := by
    rw [ConnectionPool.Opened, ConnectionPool.Opened, hlive, hstatus]
  refine ⟨hfault, hhandling, ?_, ?_, ?_, ?_, ?_, ?_, ?_⟩
  · intro block
    rw [hneed, hstatus]
    exact h.unclosed block
  · intro session hmem
    rw [hopened]
    exact h.queue session (hqueue session hmem)
  · intro request session hsession
    rw [hopened]
    exact hstages request session hsession
  · intro session hmem
    rw [hlive, hstatus, hruns]
    rcases hloops session hmem with hold | hnew
    · exact h.loops session hold
    · exact ⟨hnew.1, hnew.2 .resolving, hnew.2 .connecting, h.not_mem_runs hnew⟩
  · simp only [hlive, hstatus, hruns, hserial]
    exact h.runs
  · rw [hruns]
    exact h.nodup
  · rw [htimers, hruns, hserial]
    exact h.timers

/-- The next session of a block is not running yet. -/
theorem not_mem_runs_succ (h : Safe pool) (block : Nat) (runStage : RunStage) :
    ((⟨block, pool.serial block + 1⟩ : SessionPointer), runStage) ∉ pool.runs := by
  intro hmem
  have hle := (h.runs _ runStage hmem).1
  simp only at hle
  omega

/-- Other sessions stay open when a session is replaced. -/
theorem opened_recreate {session other : SessionPointer} (hlive : pool.Live session)
    (hother : pool.Opened other) (hne : other ≠ session) :
    (pool.recreate session.block).Opened other := by
  have hblock := block_ne_of_live hother.1 hlive hne
  rw [ConnectionPool.Opened, ConnectionPool.Live, ConnectionPool.serial_recreate_of_ne hblock,
    ConnectionPool.sessions_recreate_of_ne hblock]
  exact hother

/-- Where `Run` waits when a session is replaced: the old one may only wait for
an operation that is aborted. -/
theorem runs_recreate (h : Safe pool) {session : SessionPointer} (hlive : pool.Live session)
    (hruns : ∀ runStage, (session, runStage) ∈ pool.runs →
      runStage = .resolving ∨ runStage = .connecting)
    (other : SessionPointer) (runStage : RunStage)
    (hmem : (other, runStage) ∈ (pool.recreate session.block).runs) :
    other.serial ≤ (pool.recreate session.block).serial other.block ∧
      ((pool.recreate session.block).Live other →
        ((pool.recreate session.block).sessions other.block).status = runStage.status) ∧
      (¬ (pool.recreate session.block).Live other →
        runStage = .resolving ∨ runStage = .connecting) := by
  rcases List.mem_append.mp hmem with hearlier | hlast
  · obtain ⟨hle, hstatus, hdead⟩ := h.runs other runStage hearlier
    refine ⟨hle.trans (ConnectionPool.le_serial_recreate _ _), ?_, ?_⟩
    · intro hother
      by_cases hblock : other.block = session.block
      · rw [ConnectionPool.Live, hblock, ConnectionPool.serial_recreate_self] at hother
        rw [hblock] at hle
        omega
      · rw [ConnectionPool.Live, ConnectionPool.serial_recreate_of_ne hblock] at hother
        rw [ConnectionPool.sessions_recreate_of_ne hblock]
        exact hstatus hother
    · intro hother
      by_cases hbefore : pool.Live other
      · have hsame : other = session := by
          by_contra hne
          have hblock := block_ne_of_live hbefore hlive hne
          rw [ConnectionPool.Live, ConnectionPool.serial_recreate_of_ne hblock] at hother
          exact hother hbefore
        subst hsame
        exact hruns runStage hearlier
      · exact hdead hbefore
  · -- the `Run` of the new session
    rw [List.mem_singleton, Prod.mk.injEq] at hlast
    obtain ⟨rfl, rfl⟩ := hlast
    refine ⟨(ConnectionPool.serial_recreate_self session.block).ge, ?_, ?_⟩
    · intro
      simp [ConnectionPool.recreate, RunStage.status]
    · intro hdead
      exact (hdead (ConnectionPool.serial_recreate_self session.block).symm).elim

/-- A session that nobody refers to may be replaced, while its `Run` waits for an
operation that is aborted. -/
theorem recreate (h : Safe pool) {session : SessionPointer} (hlive : pool.Live session)
    (hqueue : session ∉ pool.awaiableConnections)
    (hstages : ∀ request, (pool.stage request).session ≠ some session)
    (hloops : session ∉ pool.requestLoops)
    (hruns : ∀ runStage, (session, runStage) ∈ pool.runs →
      runStage = .resolving ∨ runStage = .connecting) :
    Safe (pool.recreate session.block) where
  fault := h.fault
  handling := h.handling
  unclosed block := by
    by_cases hblock : block = session.block
    · simp [ConnectionPool.recreate, hblock]
    · rw [ConnectionPool.sessions_recreate_of_ne hblock]
      exact h.unclosed block
  queue other hmem :=
    opened_recreate hlive (h.queue other hmem) fun heq => hqueue (heq ▸ hmem)
  stages request other hother :=
    opened_recreate hlive (h.stages request other hother) fun heq =>
      hstages request (heq ▸ hother)
  loops other hmem := by
    obtain ⟨hother, hresolving, hconnecting, hover⟩ := h.loops other hmem
    have hblock := block_ne_of_live hother hlive fun heq => hloops (heq ▸ hmem)
    rw [ConnectionPool.Live, ConnectionPool.serial_recreate_of_ne hblock,
      ConnectionPool.sessions_recreate_of_ne hblock]
    refine ⟨hother, hresolving, hconnecting, fun runStage hrun => ?_⟩
    rcases List.mem_append.mp hrun with hearlier | hlast
    · exact hover runStage hearlier
    · rw [List.mem_singleton, Prod.mk.injEq] at hlast
      exact hblock (congrArg SessionPointer.block hlast.1 :)
  runs := h.runs_recreate hlive hruns
  nodup := nodup_runs_concat h.nodup (h.not_mem_runs_succ session.block) .started
  timers other hmem := by
    obtain ⟨hle, hstarted⟩ := h.timers other hmem
    refine ⟨hle.trans (ConnectionPool.le_serial_recreate _ _), ?_⟩
    intro hrun
    rcases List.mem_append.mp hrun with hearlier | hlast
    · exact hstarted hearlier
    · rw [List.mem_singleton, Prod.mk.injEq] at hlast
      rw [hlast.1] at hle
      simp only at hle
      omega

/-- Expiry replaces the session. -/
theorem transitionTo_expired (h : Safe pool) {session : SessionPointer}
    (hlive : pool.Live session) (enqueued : Bool) :
    pool.transitionTo session .expired enqueued = pool.recreate session.block := by
  obtain ⟨hneed, hstatus⟩ := h.unclosed session.block
  simp [ConnectionPool.transitionTo, hstatus, hneed, ConnectionPool.modify, ConnectionPool.touch,
    ConnectionPool.onClosed, ConnectionPool.recreate, ConnectionPool.Live, hlive.symm, h.handling,
    h.fault]

theorem fault_touch (h : Safe pool) {session : SessionPointer} (hlive : pool.Live session) :
    (pool.touch session).fault = false := by
  simp [ConnectionPool.touch, h.fault, hlive]

/-- A write keeps an open session open, unless it gives this session the status
of its `Run`. -/
theorem opened_modify {session other : SessionPointer} (change : HttpsSession3 → HttpsSession3)
    (hother : pool.Opened other)
    (hopen : other.block = session.block → ∀ runStage : RunStage,
      (change (pool.sessions session.block)).status ≠ runStage.status) :
    (pool.modify session change).Opened other := by
  refine ⟨hother.1, ?_⟩
  by_cases hblock : other.block = session.block
  · rw [hblock, ConnectionPool.sessions_modify_self]
    exact hopen hblock
  · rw [ConnectionPool.sessions_modify_of_ne _ hblock]
    exact hother.2

/-- A session whose `Run` is over takes the status of its loop. -/
theorem setStatus (h : Safe pool) {session : SessionPointer} {status : StatusSession}
    (hlive : pool.Live session) (hover : ∀ runStage, (session, runStage) ∉ pool.runs)
    (hopen : ∀ runStage : RunStage, status ≠ runStage.status) (hexpired : status ≠ .expired) :
    Safe (pool.modify session fun fields => { fields with status := status }) where
  fault := h.fault_touch hlive
  handling := h.handling
  unclosed block := by
    by_cases hblock : block = session.block
    · rw [hblock, ConnectionPool.sessions_modify_self]
      exact ⟨(h.unclosed session.block).1, hexpired⟩
    · rw [ConnectionPool.sessions_modify_of_ne _ hblock]
      exact h.unclosed block
  queue other hmem := opened_modify _ (h.queue other hmem) fun _ => hopen
  stages request other hother := opened_modify _ (h.stages request other hother) fun _ => hopen
  loops other hmem := by
    obtain ⟨hother, hresolving, hconnecting, hruns⟩ := h.loops other hmem
    by_cases hblock : other.block = session.block
    · rw [hblock, ConnectionPool.sessions_modify_self]
      exact ⟨hother, hopen .resolving, hopen .connecting, hruns⟩
    · rw [ConnectionPool.sessions_modify_of_ne _ hblock]
      exact ⟨hother, hresolving, hconnecting, hruns⟩
  runs other runStage hmem := by
    obtain ⟨hle, hstatus, hdead⟩ := h.runs other runStage hmem
    refine ⟨hle, ?_, hdead⟩
    intro hother
    have hblock : other.block ≠ session.block := by
      intro hblock
      rw [eq_of_live hother hlive hblock] at hmem
      exact hover runStage hmem
    rw [ConnectionPool.sessions_modify_of_ne _ hblock]
    exact hstatus hother
  nodup := h.nodup
  timers := h.timers

/-- The pointer of an open session enters the queue. -/
theorem onReady (h : Safe pool) {session : SessionPointer} (hopened : pool.Opened session)
    (enqueued : Bool) : Safe (pool.onReady session.block enqueued) := by
  rw [ConnectionPool.onReady]
  split
  · have hsame : (⟨session.block, pool.serial session.block⟩ : SessionPointer) = session := by
      rw [← hopened.1]
    rw [hsame]
    refine ⟨h.fault, h.handling, h.unclosed, ?_, h.stages, h.loops, h.runs, h.nodup, h.timers⟩
    intro other hmem
    rcases List.mem_append.mp hmem with hearlier | hlast
    · exact h.queue other hearlier
    · rw [List.mem_singleton] at hlast
      subst hlast
      exact hopened
  · exact h

/-! ## `Run` -/

/-- A resumed `Run` waits nowhere else. -/
theorem not_mem_runs_erase (h : Safe pool) {session : SessionPointer} {runStage : RunStage}
    (hmem : (session, runStage) ∈ pool.runs) (other : RunStage) :
    (session, other) ∉ pool.runs.erase (session, runStage) := by
  intro hother
  have hsame := h.runStage_eq hmem (List.mem_of_mem_erase hother)
  subst hsame
  exact (List.Nodup.of_map _ h.nodup).not_mem_erase hother

theorem eraseRun (h : Safe pool) (session : SessionPointer) (runStage : RunStage) :
    Safe { pool with runs := pool.runs.erase (session, runStage) } where
  fault := h.fault
  handling := h.handling
  unclosed := h.unclosed
  queue := h.queue
  stages := h.stages
  loops other hmem := by
    obtain ⟨hlive, hresolving, hconnecting, hruns⟩ := h.loops other hmem
    exact ⟨hlive, hresolving, hconnecting, fun stage hrun =>
      hruns stage (List.mem_of_mem_erase hrun)⟩
  runs other stage hmem :=
    h.runs other stage (List.mem_of_mem_erase hmem)
  nodup :=
    h.nodup.sublist (List.Sublist.map _ List.erase_sublist)
  timers other hmem := by
    obtain ⟨hle, hstarted⟩ := h.timers other hmem
    exact ⟨hle, fun hrun => hstarted (List.mem_of_mem_erase hrun)⟩

/-- A session with a waiting `Run` is not open. -/
theorem not_opened (h : Safe pool) {session : SessionPointer} {runStage : RunStage}
    (hmem : (session, runStage) ∈ pool.runs) : ¬ pool.Opened session := fun hopened =>
  h.not_mem_runs hopened runStage hmem

/-- An open session is in another block than a session whose `Run` waits. -/
theorem block_ne_of_opened (h : Safe pool) {session other : SessionPointer} {runStage : RunStage}
    (hmem : (session, runStage) ∈ pool.runs) (hlive : pool.Live session)
    (hother : pool.Opened other) : other.block ≠ session.block := by
  apply block_ne_of_live hother.1 hlive
  rintro rfl
  exact h.not_opened hmem hother

/-- `Run` goes on to wait for the next operation. -/
theorem advance (h : Safe pool) {session : SessionPointer} {runStage : RunStage}
    (hmem : (session, runStage) ∈ pool.runs) (hlive : pool.Live session) (next : RunStage)
    (hnext : next ≠ .started) {timers : List SessionPointer}
    (htimers : ∀ other ∈ timers, other ∈ pool.timers ∨ other = session) :
    Safe { pool.modify session fun fields => { fields with status := next.status } with
      runs := pool.runs.erase (session, runStage) ++ [(session, next)]
      timers := timers } where
  fault := h.fault_touch hlive
  handling := h.handling
  unclosed block := by
    by_cases hblock : block = session.block
    · simp only [hblock, ConnectionPool.sessions_modify_self]
      refine ⟨(h.unclosed session.block).1, ?_⟩
      cases next <;> simp [RunStage.status]
    · simp only [ConnectionPool.sessions_modify_of_ne _ hblock]
      exact h.unclosed block
  queue other hother :=
    opened_modify (fun fields => { fields with status := next.status }) (h.queue other hother)
      fun hblock =>
        (h.block_ne_of_opened hmem hlive (h.queue other hother) hblock).elim
  stages request other hother :=
    opened_modify (fun fields => { fields with status := next.status })
      (h.stages request other hother) fun hblock =>
        (h.block_ne_of_opened hmem hlive (h.stages request other hother) hblock).elim
  loops other hother := by
    obtain ⟨halive, hresolving, hconnecting, hruns⟩ := h.loops other hother
    have hne : other ≠ session := by
      rintro rfl
      exact hruns runStage hmem
    simp only [ConnectionPool.sessions_modify_of_ne _ (block_ne_of_live halive hlive hne)]
    refine ⟨halive, hresolving, hconnecting, fun stage hrun => ?_⟩
    rcases List.mem_append.mp hrun with hearlier | hlast
    · exact hruns stage (List.mem_of_mem_erase hearlier)
    · rw [List.mem_singleton, Prod.mk.injEq] at hlast
      exact hne hlast.1
  runs other stage hrun := by
    rcases List.mem_append.mp hrun with hearlier | hlast
    · obtain ⟨hle, hstatus, hdead⟩ := (h.eraseRun session runStage).runs other stage hearlier
      refine ⟨hle, ?_, hdead⟩
      intro hother
      have hne : other ≠ session := by
        rintro rfl
        exact h.not_mem_runs_erase hmem stage hearlier
      simp only [ConnectionPool.sessions_modify_of_ne _ (block_ne_of_live hother hlive hne)]
      exact hstatus hother
    · rw [List.mem_singleton, Prod.mk.injEq] at hlast
      obtain ⟨rfl, rfl⟩ := hlast
      refine ⟨hlive.le, ?_, ?_⟩
      · intro
        simp only [ConnectionPool.sessions_modify_self]
      · intro hdead
        exact (hdead hlive).elim
  nodup := nodup_runs_concat (h.eraseRun session runStage).nodup (h.not_mem_runs_erase hmem) next
  timers other hother := by
    constructor
    · rcases htimers other hother with hearlier | rfl
      · exact (h.timers other hearlier).1
      · exact hlive.le
    · intro hrun
      rcases List.mem_append.mp hrun with hstarted | hlast
      · rcases htimers other hother with hearlier | rfl
        · exact (h.timers other hearlier).2 (List.mem_of_mem_erase hstarted)
        · exact h.not_mem_runs_erase hmem .started hstarted
      · rw [List.mem_singleton, Prod.mk.injEq] at hlast
        exact hnext hlast.2.symm

/-- `Run` gives up and frees its session. -/
theorem expireRun (h : Safe pool) {session : SessionPointer} {runStage : RunStage}
    (hmem : (session, runStage) ∈ pool.runs)
    (hopen : runStage ≠ .resolving ∧ runStage ≠ .connecting) :
    Safe (({ pool with runs := pool.runs.erase (session, runStage) }).transitionTo session
      .expired false) := by
  have hlive : pool.Live session := by
    by_contra hdead
    rcases (h.runs session runStage hmem).2.2 hdead with heq | heq
    · exact hopen.1 heq
    · exact hopen.2 heq
  have hrest := h.eraseRun session runStage
  rw [hrest.transitionTo_expired hlive]
  apply hrest.recreate hlive
  · intro hqueue
    exact h.not_opened hmem (h.queue session hqueue)
  · intro request hrequest
    exact h.not_opened hmem (h.stages request session hrequest)
  · intro hloop
    exact (h.loops session hloop).2.2.2 runStage hmem
  · intro other hother
    exact (h.not_mem_runs_erase hmem other hother).elim

theorem resume (h : Safe pool) {session : SessionPointer} {runStage : RunStage}
    {succeeded : Bool} (hmem : (session, runStage) ∈ pool.runs)
    (htame : pool.Tame (.resume session runStage succeeded)) :
    Safe (({ pool with runs := pool.runs.erase (session, runStage) }).resume session runStage
      succeeded) := by
  cases succeeded with
  | true =>
      have hlive : pool.Live session := htame hmem
      cases runStage with
      | started =>
          apply h.advance hmem hlive .resolving (by simp)
          intro other hother
          rcases List.mem_append.mp hother with hearlier | hlast
          · exact .inl hearlier
          · exact .inr (List.mem_singleton.mp hlast)
      | resolving => exact h.advance hmem hlive .connecting (by simp) fun _ hother => .inl hother
      | connecting => exact h.advance hmem hlive .handshaking (by simp) fun _ hother => .inl hother
      | handshaking =>
          have hrest := h.eraseRun session .handshaking
          have hstatus := (h.runs session .handshaking hmem).2.1 hlive
          have hresolving : (pool.sessions session.block).status ≠ .resolving := by
            simp [hstatus, RunStage.status]
          have hconnecting : (pool.sessions session.block).status ≠ .connecting := by
            simp [hstatus, RunStage.status]
          refine ⟨hrest.fault_touch hlive, h.handling, h.unclosed, h.queue, h.stages, ?_,
            hrest.runs, hrest.nodup, hrest.timers⟩
          intro other hother
          rcases List.mem_append.mp hother with hearlier | hlast
          · exact hrest.loops other hearlier
          · rw [List.mem_singleton] at hlast
            subst hlast
            exact ⟨hlive, hresolving, hconnecting, h.not_mem_runs_erase hmem⟩
  | false =>
      cases runStage with
      | started => exact h.expireRun hmem (by simp)
      | handshaking => exact h.expireRun hmem (by simp)
      | resolving => exact h.eraseRun session .resolving
      | connecting => exact h.eraseRun session .connecting

/-- A timer that catches its session before the handshake. -/
theorem timer (h : Safe pool) {session : SessionPointer} (hmem : session ∈ pool.timers)
    (htame : pool.Tame (.timer session)) :
    Safe (({ pool with timers := pool.timers.erase session }).transitionTo session .expired
      false) := by
  obtain ⟨hlive, hstatus⟩ := htame hmem
  have hrest : Safe { pool with timers := pool.timers.erase session } :=
    ⟨h.fault, h.handling, h.unclosed, h.queue, h.stages, h.loops, h.runs, h.nodup,
      fun other hother => h.timers other (List.mem_of_mem_erase hother)⟩
  have hclosed : ¬ pool.Opened session := by
    intro hopened
    rcases hstatus with hresolving | hconnecting
    · exact hopened.2 .resolving hresolving
    · exact hopened.2 .connecting hconnecting
  rw [hrest.transitionTo_expired hlive]
  apply hrest.recreate hlive
  · intro hqueue
    exact hclosed (h.queue session hqueue)
  · intro request hrequest
    exact hclosed (h.stages request session hrequest)
  · intro hloop
    obtain ⟨-, hresolving, hconnecting, -⟩ := h.loops session hloop
    rcases hstatus with heq | heq
    · exact hresolving heq
    · exact hconnecting heq
  · intro runStage hrun
    have hmine := (h.runs session runStage hrun).2.1 hlive
    cases runStage with
    | started => exact ((h.timers session hmem).2 hrun).elim
    | resolving => exact .inl rfl
    | connecting => exact .inr rfl
    | handshaking =>
        change (pool.sessions session.block).status = .handshaking at hmine
        simp [hmine] at hstatus

/-! ## Requests -/

/-- The transitions of `RequestLoop` before its first `co_await`. -/
theorem transitionTo_open (h : Safe pool) {session : SessionPointer} {status : StatusSession}
    (hlive : pool.Live session) (hover : ∀ runStage, (session, runStage) ∉ pool.runs)
    (hstatus : status = .ready ∨ status = .kInProcess) (enqueued : Bool) :
    Safe (pool.transitionTo session status enqueued) ∧
      (pool.transitionTo session status enqueued).Opened session := by
  have hopen (runStage : RunStage) : status ≠ runStage.status := by
    rcases hstatus with rfl | rfl <;> cases runStage <;> simp [RunStage.status]
  have hexpired : status ≠ .expired := by
    rcases hstatus with rfl | rfl <;> simp
  rw [ConnectionPool.transitionTo]
  split
  · rename_i hsame
    have hopened : pool.Opened session := ⟨hlive, by rw [hsame]; exact hopen⟩
    refine ⟨?_, hopened⟩
    exact h.of_frame _ (h.fault_touch hlive) h.handling rfl (fun _ => rfl) (fun _ => rfl) rfl rfl
      (fun _ hmem => hmem) (fun _ hmem => .inl hmem) h.stages
  · have hnext := h.setStatus hlive hover hopen hexpired
    have hopened : (pool.modify session fun fields =>
        { fields with status := status }).Opened session := by
      refine ⟨hlive, ?_⟩
      rw [ConnectionPool.sessions_modify_self]
      exact hopen
    rcases hstatus with rfl | rfl
    · refine ⟨hnext.onReady hopened enqueued, ?_⟩
      dsimp only
      rw [ConnectionPool.onReady]
      split
      · exact hopened
      · exact hopened
    · exact ⟨hnext, hopened⟩

/-- A use of an open session that changes neither its status nor its `Run`. -/
theorem use (h : Safe pool) {session : SessionPointer} (hopened : pool.Opened session)
    (change : HttpsSession3 → HttpsSession3)
    (hstatus : ∀ fields, (change fields).status = fields.status)
    (hneed : ∀ fields, (change fields).needExecuteOnClosedSystem =
      fields.needExecuteOnClosedSystem) (request : SnapshotRequest) (stage : Stage)
    (hstage : ∀ other, stage.session = some other → other = session) :
    Safe ((pool.modify session change).setStage request stage) := by
  refine h.of_frame _ (h.fault_touch hopened.1) h.handling rfl ?_ ?_ rfl rfl (fun _ hmem => hmem)
    (fun _ hmem => .inl hmem) ?_
  · intro block
    by_cases hblock : block = session.block
    · simp [ConnectionPool.setStage, hblock, ConnectionPool.sessions_modify_self, hstatus]
    · simp [ConnectionPool.setStage, ConnectionPool.sessions_modify_of_ne _ hblock]
  · intro block
    by_cases hblock : block = session.block
    · simp [ConnectionPool.setStage, hblock, ConnectionPool.sessions_modify_self, hneed]
    · simp [ConnectionPool.setStage, ConnectionPool.sessions_modify_of_ne _ hblock]
  · intro other owned howned
    by_cases hother : other = request
    · simp only [ConnectionPool.setStage, hother, Function.update_self] at howned
      rw [hstage owned howned]
      exact hopened
    · simp only [ConnectionPool.setStage, Function.update_of_ne hother] at howned
      exact h.stages other owned howned

/-- A request uses its session and moves on. -/
theorem proceed (h : Safe pool) {request : SnapshotRequest} {session : SessionPointer}
    {before after : Stage} (hstage : pool.stage request = before)
    (hbefore : before.session = some session)
    (hafter : after.session = some session ∨ after.session = none) :
    Safe ((pool.touch session).setStage request after) := by
  have hopened := h.stages request session (by rw [hstage, hbefore])
  have hsame : pool.modify session id = pool.touch session := by
    simp [ConnectionPool.modify, ConnectionPool.touch]
  rw [← hsame]
  apply h.use hopened id (fun _ => rfl) (fun _ => rfl)
  intro other hother
  rcases hafter with hsome | hnone
  · rw [hsome] at hother
    exact (Option.some.inj hother).symm
  · rw [hnone] at hother
    cases hother

/-- A request whose callback raises leaves its session open. -/
theorem finishRequest (h : Safe pool) {request : SnapshotRequest} {session : SessionPointer}
    {before after : Stage} (hstage : pool.stage request = before)
    (hbefore : before.session = some session) (hafter : after.session = none) {returned : Bool}
    (hopen : pool.leavesOpen request returned = true) (onResponse : SnapshotRequest → Report)
    (halive : ∀ callback, (onResponse callback).Alive) :
    Safe (pool.finishRequest request session after returned onResponse).1 ∧
      ∀ report ∈ (pool.finishRequest request session after returned onResponse).2,
        report.Alive := by
  have hraises : pool.callbackRaises session returned = true := by
    rwa [ConnectionPool.leavesOpen, hstage, hbefore, Option.all_some] at hopen
  rw [ConnectionPool.finishRequest, if_pos hraises]
  refine ⟨h.proceed hstage hbefore (.inr hafter), ?_⟩
  intro report hmem
  obtain ⟨callback, -, rfl⟩ := List.mem_map.mp hmem
  exact halive callback

theorem requestLoop (h : Safe pool) {session : SessionPointer}
    (hmem : session ∈ pool.requestLoops) (next : SnapshotRequest) (enqueued : Bool) :
    Safe (({ pool with requestLoops := pool.requestLoops.erase session }).requestLoop session next
      enqueued) := by
  have hrest : Safe { pool with requestLoops := pool.requestLoops.erase session } :=
    h.of_frame _ h.fault h.handling rfl (fun _ => rfl) (fun _ => rfl) rfl rfl
      (fun _ hother => hother) (fun _ hother => .inl (List.mem_of_mem_erase hother)) h.stages
  obtain ⟨hlive, -, -, hover⟩ := h.loops session hmem
  obtain ⟨hready, hopened⟩ := hrest.transitionTo_open hlive hover (.inl rfl) enqueued
  rw [ConnectionPool.requestLoop]
  split
  · exact hready
  · obtain ⟨hprocess, hbusy⟩ := hready.transitionTo_open hopened.1 (hready.not_mem_runs hopened)
      (.inr rfl) false
    apply hprocess.use hbusy
    · exact fun _ => rfl
    · exact fun _ => rfl
    · intro other hother
      exact (Option.some.inj hother).symm

theorem acquireConnection (h : Safe pool) {request : SnapshotRequest} {session : SessionPointer}
    (hmem : session ∈ pool.awaiableConnections) (enqueued : Bool) :
    Safe (pool.acquireConnection request session enqueued).1 ∧
      ∀ report ∈ (pool.acquireConnection request session enqueued).2, report.Alive := by
  have hopened := h.queue session hmem
  have hqueue : ∀ other ∈ (if enqueued then pool.awaiableConnections.erase session ++ [session]
      else pool.awaiableConnections.erase session), other ∈ pool.awaiableConnections := by
    intro other hother
    cases enqueued with
    | true =>
        rcases List.mem_append.mp hother with hearlier | hlast
        · exact List.mem_of_mem_erase hearlier
        · rw [List.mem_singleton] at hlast
          rwa [hlast]
    | false => exact List.mem_of_mem_erase hother
  rw [ConnectionPool.acquireConnection]
  split
  · constructor
    · refine h.of_frame _ (h.fault_touch hopened.1) h.handling rfl (fun _ => rfl) (fun _ => rfl) rfl
        rfl hqueue (fun _ hother => .inl hother) ?_
      intro other owned howned
      by_cases hother : other = request
      · simp only [ConnectionPool.setStage, hother, Function.update_self] at howned
        cases howned
        exact hopened
      · simp only [ConnectionPool.setStage, Function.update_of_ne hother] at howned
        exact h.stages other owned howned
    · simp [Report.Alive, hopened.1]
  · refine ⟨?_, by simp⟩
    exact h.of_frame _ (h.fault_touch hopened.1) h.handling rfl (fun _ => rfl) (fun _ => rfl) rfl
      rfl hqueue (fun _ hother => .inl hother) h.stages

theorem handleRequest (h : Safe pool) {session : SessionPointer} (hopened : pool.Opened session)
    (request : SnapshotRequest) (accepted : Bool) :
    Safe (pool.handleRequest request session accepted) := by
  have hnext : Safe ((pool.modify session fun fields =>
      { fields with
        requestQueue := if accepted then fields.requestQueue ++ [request] else fields.requestQueue
        isProcessing := true }).setStage request
          (if accepted then .queued session else .refused)) := by
    apply h.use hopened
    · exact fun _ => rfl
    · exact fun _ => rfl
    · intro other hother
      cases accepted with
      | true => exact (Option.some.inj hother).symm
      | false => simp [Stage.session] at hother
  rw [ConnectionPool.handleRequest]
  split
  · exact hnext
  · refine hnext.of_frame _ hnext.fault hnext.handling rfl (fun _ => rfl) (fun _ => rfl) rfl rfl
      (fun _ hmem => hmem) ?_ hnext.stages
    intro other hmem
    rcases List.mem_append.mp hmem with hearlier | hlast
    · exact .inl hearlier
    · rw [List.mem_singleton] at hlast
      subst hlast
      refine .inr ⟨hopened.1, ?_⟩
      simp only [ConnectionPool.setStage, ConnectionPool.sessions_modify_self]
      exact hopened.2

/-- A tame step keeps the pool safe and returns only sessions that are alive. -/
theorem step (h : Safe pool) (event : Event) (htame : pool.Tame event) :
    Safe (pool.step event).1 ∧ ∀ report ∈ (pool.step event).2, report.Alive := by
  have hsilent (next : ConnectionPool) (hnext : Safe next) :
      Safe (next, ([] : List Report)).1 ∧ ∀ report ∈ (next, ([] : List Report)).2,
        report.Alive := ⟨hnext, by simp⟩
  cases event with
  | resume session runStage succeeded =>
      simp only [ConnectionPool.step]
      split
      · rename_i hmem
        exact hsilent _ (h.resume hmem htame)
      · exact hsilent pool h
  | timer session =>
      simp only [ConnectionPool.step]
      split
      · rename_i hmem
        exact hsilent _ (h.timer hmem htame)
      · exact hsilent pool h
  | coExec request =>
      simp only [ConnectionPool.step]
      split
      · apply hsilent
        refine h.of_frame _ h.fault h.handling rfl (fun _ => rfl) (fun _ => rfl) rfl rfl
          (fun _ hmem => hmem) (fun _ hmem => .inl hmem) ?_
        intro other owned howned
        by_cases hother : other = request
        · simp [ConnectionPool.setStage, hother, Stage.session] at howned
        · simp only [ConnectionPool.setStage, Function.update_of_ne hother] at howned
          exact h.stages other owned howned
      · exact hsilent pool h
  | acquireConnection request session enqueued =>
      simp only [ConnectionPool.step]
      split
      · rename_i hacquiring
        exact h.acquireConnection hacquiring.2 enqueued
      · exact hsilent pool h
  | registerOnResponse request =>
      simp only [ConnectionPool.step]
      split
      · rename_i session hstage
        have hopened := h.stages request session (by rw [hstage]; rfl)
        apply hsilent
        apply h.use hopened
        · exact fun _ => rfl
        · exact fun _ => rfl
        · intro other hother
          exact (Option.some.inj hother).symm
      · exact hsilent pool h
  | asyncRequest request =>
      simp only [ConnectionPool.step]
      split
      · rename_i session hstage
        exact hsilent _ (h.proceed hstage rfl (.inl rfl))
      · exact hsilent pool h
  | handleRequest request accepted =>
      simp only [ConnectionPool.step]
      split
      · rename_i session hstage
        have hopened := h.stages request session (by rw [hstage]; rfl)
        exact hsilent _ (h.handleRequest hopened request accepted)
      · exact hsilent pool h
  | requestLoop session next enqueued =>
      simp only [ConnectionPool.step]
      split
      · rename_i hloop
        exact hsilent _ (h.requestLoop hloop.1 next enqueued)
      · exact hsilent pool h
  | written request =>
      simp only [ConnectionPool.step]
      split
      · rename_i session hstage
        exact hsilent _ (h.proceed hstage rfl (.inl rfl))
      · exact hsilent pool h
  | responseRead request returned =>
      simp only [ConnectionPool.step]
      split
      · rename_i session hstage
        exact h.finishRequest hstage rfl rfl (htame (by rw [hstage]; rfl)) _ fun _ => trivial
      · exact hsilent pool h
  | requestFailed request returned =>
      simp only [ConnectionPool.step]
      split
      · rename_i session hstage
        exact h.finishRequest hstage rfl rfl (htame (by rw [hstage]; rfl)) _ fun _ => trivial
      · rename_i session hstage
        exact h.finishRequest hstage rfl rfl (htame (by rw [hstage]; rfl)) _ fun _ => trivial
      · exact hsilent pool h

end Safe

/-- In every tame run the queue holds only live sessions, `AcquireConnection`
returns only live sessions, and no session is used after it was freed. -/
theorem lifetime_run (poolSize : Nat) (callbackMap : List TradingPair) (events : List Event)
    (htame : EveryStep (fun before event =>
      ((connectionPool poolSize callbackMap).run before).Tame event) events) :
    ((connectionPool poolSize callbackMap).run events).Sound ∧
      ∀ report ∈ (connectionPool poolSize callbackMap).outputs events, report.Alive := by
  obtain ⟨hsafe, hreports⟩ := Machine.outputs_of_everyStep _ ConnectionPool.Tame Safe
    Report.Alive (.init poolSize callbackMap) (fun _ event h => h.step event) htame
  refine ⟨⟨fun session hmem => ?_, hsafe.fault⟩, hreports⟩
  exact (hsafe.queue session hmem).1

/-- The first session expires while it connects, the request is answered over the
session that replaces it, and the callback of the request raises. -/
def replaced : List Event :=
  [.resume ⟨0, 0⟩ .started true, .resume ⟨0, 0⟩ .resolving true, .timer ⟨0, 0⟩,
    .resume ⟨0, 0⟩ .connecting false] ++
  connect ⟨0, 1⟩ ++
  [.coExec firstRequest, .acquireConnection firstRequest ⟨0, 1⟩ true,
    .registerOnResponse firstRequest, .asyncRequest firstRequest,
    .handleRequest firstRequest true, .requestLoop ⟨0, 1⟩ firstRequest true,
    .written firstRequest, .responseRead firstRequest false]

/-- The request works with the live session of its block. -/
theorem lifetime_replaced :
    EveryStep (fun before event => ((connectionPool 1 [⟨2, 1⟩]).run before).Tame event)
        replaced ∧
      .acquired ⟨0, 1⟩ true ∈ (connectionPool 1 [⟨2, 1⟩]).outputs replaced ∧
      ((connectionPool 1 [⟨2, 1⟩]).run replaced).Sound :=
  ⟨by decide, by decide, (lifetime_run 1 [⟨2, 1⟩] replaced (by decide)).1⟩

/-- A request is served, and the next one gets the pointer that is still in the
queue. -/
def servedAndReused : List Event :=
  connect ⟨0, 0⟩ ++
  [.coExec firstRequest, .acquireConnection firstRequest ⟨0, 0⟩ true,
    .registerOnResponse firstRequest, .asyncRequest firstRequest,
    .handleRequest firstRequest true, .requestLoop ⟨0, 0⟩ firstRequest true,
    .written firstRequest, .responseRead firstRequest true] ++
  connect ⟨0, 1⟩ ++
  [.coExec secondRequest, .acquireConnection secondRequest ⟨0, 0⟩ true]

/-- `RequestLoop` writes to the session it closed, the dead pointer stays in the
queue, and `AcquireConnection` hands it out. -/
theorem servedAndReused_unsound :
    ((connectionPool 1 [⟨2, 1⟩, ⟨3, 1⟩]).run servedAndReused).fault = true ∧
      ⟨0, 0⟩ ∈ ((connectionPool 1 [⟨2, 1⟩, ⟨3, 1⟩]).run servedAndReused).awaiableConnections ∧
      ¬ ((connectionPool 1 [⟨2, 1⟩, ⟨3, 1⟩]).run servedAndReused).Live ⟨0, 0⟩ ∧
      .acquired ⟨0, 0⟩ false ∈ (connectionPool 1 [⟨2, 1⟩, ⟨3, 1⟩]).outputs servedAndReused ∧
      ¬ ((connectionPool 1 [⟨2, 1⟩, ⟨3, 1⟩]).run servedAndReused).Sound := by
  refine ⟨by decide, by decide, by decide, by decide, ?_⟩
  intro hsound
  have hfault := hsound.fault
  exact absurd hfault (by decide)

end CryptoBot.Network

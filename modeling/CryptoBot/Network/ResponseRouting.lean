/-
# Responses reach the request that caused them

`AcquireConnection` puts a session back in the queue before it hands it out, so
a second request may take the same session.  The session has one callback and
serves one request: the later registration replaces the callback of the
earlier, and a request that finds the session busy stays in its queue when the
session closes.  And when a write or a read fails, the callback runs without any
response.

As long as every session goes to one request and does not expire afterwards,
the request is the only one that writes to it, and its response, once it is read,
is passed to the callback it registered.
-/

import CryptoBot.Network.ConnectionPool

namespace CryptoBot.Network

open CryptoBot.Common CryptoBot.Math

/-- The callback belongs to a request whose response was read, and no request is
left behind. -/
def Report.Routed : Report → Prop
  | .acquired _ _ => True
  | .response request callback => callback = request
  | .unread _ _ => False
  | .closing unsent => unsent = []

/-- The step hands out no session that was handed out before, expires none that
was, and fails no write or read of `RequestLoop`. -/
def ConnectionPool.Exclusive (pool : ConnectionPool) : Event → Prop
  | .acquireConnection request session _ =>
      pool.stage request = .acquiring → session ∈ pool.awaiableConnections →
        (pool.sessions session.block).status = .ready → pool.holder session.block = none
  | .timer session => session ∈ pool.timers → pool.holder session.block = none
  | .resume session runStage false =>
      (session, runStage) ∈ pool.runs → (runStage = .started ∨ runStage = .handshaking) →
        pool.holder session.block = none
  | .requestFailed request _ => (pool.stage request).inFlight = false
  | _ => True

instance (pool : ConnectionPool) : DecidablePred pool.Exclusive
  | .acquireConnection _ _ _ => inferInstanceAs (Decidable (_ → _ → _ → _))
  | .timer _ => inferInstanceAs (Decidable (_ → _))
  | .resume _ _ false => inferInstanceAs (Decidable (_ → _ → _))
  | .requestFailed _ _ => inferInstanceAs (Decidable (_ = _))
  | .resume _ _ true | .coExec _ | .registerOnResponse _ | .asyncRequest _ | .handleRequest _ _
  | .requestLoop _ _ _ | .written _ | .responseRead _ _ => .isTrue trivial

/-! ## What the requests see -/

/-- The two pools agree on the requests. -/
structure SameRequests (pool next : ConnectionPool) : Prop where
  stage : next.stage = pool.stage
  holder : next.holder = pool.holder
  requestQueue : ∀ block, (next.sessions block).requestQueue = (pool.sessions block).requestQueue
  onResponse : ∀ block, (next.sessions block).onResponse = (pool.sessions block).onResponse

namespace SameRequests

variable {pool next last : ConnectionPool}

/-- Changes outside of the requests and the sessions. -/
theorem of_eq (hstage : next.stage = pool.stage) (hholder : next.holder = pool.holder)
    (hsessions : next.sessions = pool.sessions) : SameRequests pool next where
  stage := hstage
  holder := hholder
  requestQueue _ := by rw [hsessions]
  onResponse _ := by rw [hsessions]

theorem refl (pool : ConnectionPool) : SameRequests pool pool := .of_eq rfl rfl rfl

theorem trans (h : SameRequests pool next) (hnext : SameRequests next last) :
    SameRequests pool last where
  stage := hnext.stage.trans h.stage
  holder := hnext.holder.trans h.holder
  requestQueue block := (hnext.requestQueue block).trans (h.requestQueue block)
  onResponse block := (hnext.onResponse block).trans (h.onResponse block)

/-- Only the queue and the callback of a session matter. -/
theorem modify (pool : ConnectionPool) (session : SessionPointer)
    (change : HttpsSession3 → HttpsSession3)
    (hqueue : ∀ fields, (change fields).requestQueue = fields.requestQueue)
    (hcallback : ∀ fields, (change fields).onResponse = fields.onResponse) :
    SameRequests pool (pool.modify session change) := by
  refine ⟨rfl, rfl, fun block => ?_, fun block => ?_⟩
  · by_cases hblock : block = session.block
    · subst hblock
      simp [ConnectionPool.modify, hqueue]
    · simp [ConnectionPool.modify, Function.update_of_ne hblock]
  · by_cases hblock : block = session.block
    · subst hblock
      simp [ConnectionPool.modify, hcallback]
    · simp [ConnectionPool.modify, Function.update_of_ne hblock]

theorem onReady (pool : ConnectionPool) (block : Nat) (enqueued : Bool) :
    SameRequests pool (pool.onReady block enqueued) := by
  rw [ConnectionPool.onReady]
  split
  · exact .of_eq rfl rfl rfl
  · exact .refl pool

/-- A session that does not close keeps its requests. -/
theorem transitionTo (pool : ConnectionPool) (session : SessionPointer) {status : StatusSession}
    (enqueued : Bool) (hexpired : status ≠ .expired) (hclosing : status ≠ .closing) :
    SameRequests pool (pool.transitionTo session status enqueued) := by
  rw [ConnectionPool.transitionTo]
  split
  · exact .of_eq rfl rfl rfl
  · have hmodify : SameRequests pool
        (pool.modify session fun fields => { fields with status := status }) :=
      modify pool session _ (fun _ => rfl) fun _ => rfl
    cases status with
    | ready => exact hmodify.trans (onReady _ session.block enqueued)
    | expired => exact (hexpired rfl).elim
    | closing => exact (hclosing rfl).elim
    | resolving => exact hmodify
    | connecting => exact hmodify
    | handshaking => exact hmodify
    | kInProcess => exact hmodify
    | cancelling => exact hmodify

/-- A session that closes changes only fields of its own, and then it may be
replaced. -/
theorem exists_transitionTo (pool : ConnectionPool) (session : SessionPointer)
    (status : StatusSession) (enqueued : Bool) :
    ∃ next, SameRequests pool next ∧ (pool.transitionTo session status enqueued = next ∨
      pool.transitionTo session status enqueued = next.onClosed session.block) := by
  by_cases hopen : status ≠ .expired ∧ status ≠ .closing
  · exact ⟨_, transitionTo pool session enqueued hopen.1 hopen.2, .inl rfl⟩
  · have hmodify : SameRequests pool
        (pool.modify session fun fields => { fields with status := status }) :=
      modify pool session _ (fun _ => rfl) fun _ => rfl
    have hflag := hmodify.trans (modify _ session
      (fun fields => { fields with needExecuteOnClosedSystem := false }) (fun _ => rfl)
        fun _ => rfl)
    rw [ConnectionPool.transitionTo]
    split
    · exact ⟨pool.touch session, .of_eq rfl rfl rfl, .inl rfl⟩
    · have hclosed : status = .expired ∨ status = .closing := by
        by_contra hneither
        exact hopen (not_or.mp hneither)
      rcases hclosed with rfl | rfl
      all_goals
        dsimp only
        split
        · exact ⟨_, hflag, .inr rfl⟩
        · exact ⟨_, hmodify, .inl rfl⟩

end SameRequests

/-! ## The invariant -/

/-- A request owns the session it works with: nobody else was given the session,
the callback is its own once it is registered, and a queued request waits for
the session that queues it. -/
structure Owned (pool : ConnectionPool) : Prop where
  holder : ∀ request session, (pool.stage request).session = some session →
    pool.holder session.block = some request
  callback : ∀ request session, (pool.stage request).session = some session →
    pool.stage request ≠ .acquired session →
      (pool.sessions session.block).onResponse = some request
  queued : ∀ block, ∀ request ∈ (pool.sessions block).requestQueue,
    ∃ session, session.block = block ∧ pool.stage request = .queued session
  nodup : ∀ block, (pool.sessions block).requestQueue.Nodup

namespace Owned

variable {pool : ConnectionPool}

theorem init (poolSize : Nat) (callbackMap : List TradingPair) :
    Owned (.new poolSize callbackMap) where
  holder := by simp [ConnectionPool.new, Stage.session]
  callback := by simp [ConnectionPool.new, Stage.session]
  queued := by simp [ConnectionPool.new]
  nodup := by simp [ConnectionPool.new]

theorem of_same (h : Owned pool) {next : ConnectionPool} (hsame : SameRequests pool next) :
    Owned next where
  holder := by
    rw [hsame.stage, hsame.holder]
    exact h.holder
  callback := by
    simp only [hsame.stage, hsame.onResponse]
    exact h.callback
  queued := by
    simp only [hsame.stage, hsame.requestQueue]
    exact h.queued
  nodup := by
    simp only [hsame.requestQueue]
    exact h.nodup

/-- Two requests with the same session are one request. -/
theorem eq_of_block_eq (h : Owned pool) {first second : SnapshotRequest}
    {session other : SessionPointer} (hfirst : (pool.stage first).session = some session)
    (hsecond : (pool.stage second).session = some other) (hblock : session.block = other.block) :
    first = second := by
  have hholder := h.holder first session hfirst
  rw [hblock, h.holder second other hsecond] at hholder
  exact (Option.some.inj hholder).symm

/-- A session that no request works with may be replaced. -/
theorem onClosed (h : Owned pool) {block : Nat}
    (hfree : ∀ request session, (pool.stage request).session = some session →
      session.block ≠ block) : Owned (pool.onClosed block) := by
  rw [ConnectionPool.onClosed]
  split
  · exact h
  · refine ⟨?_, ?_, ?_, ?_⟩
    · intro request session hsession
      have hne := hfree request session hsession
      simpa [ConnectionPool.recreate, Function.update_of_ne hne] using
        h.holder request session hsession
    · intro request session hsession hregistered
      have hne := hfree request session hsession
      simpa [ConnectionPool.recreate, Function.update_of_ne hne] using
        h.callback request session hsession hregistered
    · intro other request hmem
      by_cases hother : other = block
      · simp [ConnectionPool.recreate, hother] at hmem
      · simp only [ConnectionPool.recreate, Function.update_of_ne hother] at hmem
        exact h.queued other request hmem
    · intro other
      by_cases hother : other = block
      · simp [ConnectionPool.recreate, hother]
      · simpa [ConnectionPool.recreate, Function.update_of_ne hother] using h.nodup other

theorem transitionTo (h : Owned pool) (session : SessionPointer) (status : StatusSession)
    (enqueued : Bool)
    (hfree : ∀ request other, (pool.stage request).session = some other →
      other.block ≠ session.block) : Owned (pool.transitionTo session status enqueued) := by
  obtain ⟨next, hsame, hresult | hresult⟩ :=
    SameRequests.exists_transitionTo pool session status enqueued
  · rw [hresult]
    exact h.of_same hsame
  · rw [hresult]
    apply (h.of_same hsame).onClosed
    rw [hsame.stage]
    exact hfree

/-- A session without a holder is not used by any request. -/
theorem free_of_holder_eq_none (h : Owned pool) {block : Nat} (hnone : pool.holder block = none)
    (request : SnapshotRequest) (session : SessionPointer)
    (hsession : (pool.stage request).session = some session) : session.block ≠ block := by
  rintro rfl
  rw [h.holder request session hsession] at hnone
  simp at hnone

/-- A request that is in no queue may move on with the session it owns. -/
theorem setStage (h : Owned pool) {request : SnapshotRequest} (stage : Stage)
    (hqueue : ∀ block, request ∉ (pool.sessions block).requestQueue)
    (hholder : ∀ session, stage.session = some session →
      pool.holder session.block = some request)
    (hcallback : ∀ session, stage.session = some session → stage ≠ .acquired session →
      (pool.sessions session.block).onResponse = some request) :
    Owned (pool.setStage request stage) where
  holder other session hsession := by
    by_cases hother : other = request
    · subst hother
      simp only [ConnectionPool.setStage, Function.update_self] at hsession ⊢
      exact hholder session hsession
    · simp only [ConnectionPool.setStage, Function.update_of_ne hother] at hsession ⊢
      exact h.holder other session hsession
  callback other session hsession hregistered := by
    by_cases hother : other = request
    · subst hother
      simp only [ConnectionPool.setStage, Function.update_self] at hsession hregistered ⊢
      exact hcallback session hsession hregistered
    · simp only [ConnectionPool.setStage, Function.update_of_ne hother] at hsession hregistered ⊢
      exact h.callback other session hsession hregistered
  queued block other hmem := by
    have hother : other ≠ request := by
      rintro rfl
      exact hqueue block hmem
    simpa [ConnectionPool.setStage, Function.update_of_ne hother] using h.queued block other hmem
  nodup := h.nodup

/-- Only a queued request is in a queue. -/
theorem not_mem_requestQueue (h : Owned pool) {request : SnapshotRequest}
    (hstage : ∀ session, pool.stage request ≠ .queued session) (block : Nat) :
    request ∉ (pool.sessions block).requestQueue := by
  intro hmem
  obtain ⟨session, -, hqueued⟩ := h.queued block request hmem
  exact hstage session hqueued

/-- A write to one session only has to respect the requests of that session. -/
theorem modify (h : Owned pool) (session : SessionPointer)
    (change : HttpsSession3 → HttpsSession3)
    (hcallback : ∀ request owned, (pool.stage request).session = some owned →
      pool.stage request ≠ .acquired owned → owned.block = session.block →
        (change (pool.sessions session.block)).onResponse = some request)
    (hqueued : ∀ request ∈ (change (pool.sessions session.block)).requestQueue,
      ∃ owned, owned.block = session.block ∧ pool.stage request = .queued owned)
    (hnodup : (change (pool.sessions session.block)).requestQueue.Nodup) :
    Owned (pool.modify session change) where
  holder := h.holder
  callback request owned howned hregistered := by
    by_cases hblock : owned.block = session.block
    · rw [hblock, ConnectionPool.sessions_modify_self]
      exact hcallback request owned howned hregistered hblock
    · rw [ConnectionPool.sessions_modify_of_ne _ hblock]
      exact h.callback request owned howned hregistered
  queued block request hmem := by
    by_cases hblock : block = session.block
    · subst hblock
      rw [ConnectionPool.sessions_modify_self] at hmem
      exact hqueued request hmem
    · rw [ConnectionPool.sessions_modify_of_ne _ hblock] at hmem
      exact h.queued block request hmem
  nodup block := by
    by_cases hblock : block = session.block
    · subst hblock
      rw [ConnectionPool.sessions_modify_self]
      exact hnodup
    · rw [ConnectionPool.sessions_modify_of_ne _ hblock]
      exact h.nodup block

/-! ## Steps -/

theorem acquireConnection (h : Owned pool) {request : SnapshotRequest} {session : SessionPointer}
    (enqueued : Bool) (hstage : pool.stage request = .acquiring)
    (hexclusive : (pool.sessions session.block).status = .ready →
      pool.holder session.block = none) :
    Owned (pool.acquireConnection request session enqueued).1 := by
  rw [ConnectionPool.acquireConnection]
  split
  · rename_i hready
    have hfree := h.free_of_holder_eq_none (hexclusive hready)
    have hqueue := h.not_mem_requestQueue (by simp [hstage] : ∀ other, pool.stage request ≠ _)
    -- the holder is set before the request moves on
    have hheld : Owned { pool with
        holder := Function.update pool.holder session.block (some request) } := by
      refine ⟨?_, h.callback, h.queued, h.nodup⟩
      intro other owned howned
      simpa [Function.update_of_ne (hfree other owned howned)] using h.holder other owned howned
    refine (hheld.setStage (.acquired session) hqueue ?_ ?_).of_same
      (.of_eq rfl rfl rfl)
    · intro owned howned
      cases howned
      simp
    · intro owned howned hne
      cases howned
      exact (hne rfl).elim
  · exact h.of_same (.of_eq rfl rfl rfl)

theorem registerOnResponse (h : Owned pool) {request : SnapshotRequest}
    {session : SessionPointer} (hstage : pool.stage request = .acquired session) :
    Owned ((pool.modify session fun fields =>
      { fields with onResponse := some request }).setStage request (.registered session)) := by
  have hmine : (pool.stage request).session = some session := by rw [hstage]; rfl
  have hmodified : Owned (pool.modify session fun fields =>
      { fields with onResponse := some request }) := by
    apply h.modify session _ _ (h.queued session.block) (h.nodup session.block)
    intro other owned howned _ hblock
    rw [h.eq_of_block_eq howned hmine hblock]
  apply hmodified.setStage
  · apply hmodified.not_mem_requestQueue
    simp [ConnectionPool.modify, ConnectionPool.touch, hstage]
  · intro owned howned
    cases howned
    exact h.holder request session hmine
  · intro owned howned hne
    cases howned
    rw [ConnectionPool.sessions_modify_self]

/-- A step of the request that changes nothing but its stage. -/
theorem advance (h : Owned pool) {request : SnapshotRequest} {session : SessionPointer}
    (stage : Stage) (hmine : (pool.stage request).session = some session)
    (hregistered : pool.stage request ≠ .acquired session)
    (hqueue : ∀ block, request ∉ (pool.sessions block).requestQueue)
    (hstage : stage.session = some session ∨ stage.session = none) :
    Owned (pool.setStage request stage) := by
  apply h.setStage stage hqueue
  · intro owned howned
    rcases hstage with hsession | hnone
    · rw [hsession] at howned
      cases howned
      exact h.holder request session hmine
    · simp [hnone] at howned
  · intro owned howned hne
    rcases hstage with hsession | hnone
    · rw [hsession] at howned
      cases howned
      exact h.callback request session hmine hregistered
    · simp [hnone] at howned

/-- A request that is not queued uses its session and moves on. -/
theorem proceed (h : Owned pool) {request : SnapshotRequest} {session : SessionPointer}
    (stage : Stage) (hmine : (pool.stage request).session = some session)
    (hregistered : pool.stage request ≠ .acquired session)
    (hunqueued : ∀ other, pool.stage request ≠ .queued other)
    (hstage : stage.session = some session ∨ stage.session = none) :
    Owned ((pool.touch session).setStage request stage) := by
  have htouch : Owned (pool.touch session) :=
    h.of_same (.of_eq rfl rfl rfl)
  exact htouch.advance stage hmine hregistered (htouch.not_mem_requestQueue hunqueued) hstage

/-- The request enters the queue of its own session. -/
theorem enqueue (h : Owned pool) {request : SnapshotRequest} {session : SessionPointer}
    (hstage : pool.stage request = .dispatched session) :
    Owned ((pool.modify session fun fields =>
      { fields with
        requestQueue := fields.requestQueue ++ [request]
        isProcessing := true }).setStage request (.queued session)) := by
  have hqueue := h.not_mem_requestQueue (by simp [hstage] : ∀ other, pool.stage request ≠ _)
  have hmine : (pool.stage request).session = some session := by rw [hstage]; rfl
  have hadvanced := h.advance (.queued session) hmine (by simp [hstage]) hqueue (.inl rfl)
  rw [ConnectionPool.setStage_modify]
  apply hadvanced.modify session
  · intro other owned howned hregistered hblock
    rw [← hblock]
    exact hadvanced.callback other owned howned hregistered
  · intro other hmem
    rcases List.mem_append.mp hmem with hearlier | hlast
    · exact hadvanced.queued session.block other hearlier
    · rw [List.mem_singleton] at hlast
      subst hlast
      exact ⟨session, rfl, by simp [ConnectionPool.setStage]⟩
  · exact List.nodup_append.mpr ⟨h.nodup session.block, List.nodup_singleton _, by
      intro first hfirst second hsecond heq
      rw [List.mem_singleton] at hsecond
      exact hqueue session.block (by rwa [← hsecond, ← heq])⟩

theorem handleRequest (h : Owned pool) {request : SnapshotRequest} {session : SessionPointer}
    (accepted : Bool) (hstage : pool.stage request = .dispatched session) :
    Owned (pool.handleRequest request session accepted) := by
  have hqueue := h.not_mem_requestQueue (by simp [hstage] : ∀ other, pool.stage request ≠ _)
  have hnext : Owned ((pool.modify session fun fields =>
      { fields with
        requestQueue := if accepted then fields.requestQueue ++ [request] else fields.requestQueue
        isProcessing := true }).setStage request
          (if accepted then .queued session else .refused)) := by
    cases accepted with
    | true => exact h.enqueue hstage
    | false =>
        have hmodify : SameRequests pool (pool.modify session fun fields =>
            { fields with isProcessing := true }) :=
          .modify pool session _ (fun _ => rfl) fun _ => rfl
        apply (h.of_same hmodify).setStage
        · intro block
          rw [hmodify.requestQueue]
          exact hqueue block
        · simp [Stage.session]
        · simp [Stage.session]
  rw [ConnectionPool.handleRequest]
  split
  · exact hnext
  · exact hnext.of_same (.of_eq rfl rfl rfl)

/-- The request leaves the queue of the session that takes it. -/
theorem dequeue (h : Owned pool) {request : SnapshotRequest} {session : SessionPointer}
    (hmem : request ∈ (pool.sessions session.block).requestQueue) :
    Owned ((pool.modify session fun fields =>
      { fields with requestQueue := fields.requestQueue.erase request }).setStage request
        (.writing session)) := by
  obtain ⟨waiting, hblock, hstage⟩ := h.queued _ request hmem
  have hmine : (pool.stage request).session = some waiting := by rw [hstage]; rfl
  have hcallback := h.callback request waiting hmine (by simp [hstage])
  have herased : Owned (pool.modify session fun fields =>
      { fields with requestQueue := fields.requestQueue.erase request }) := by
    apply h.modify session
    · intro other owned howned hregistered hother
      rw [← hother]
      exact h.callback other owned howned hregistered
    · intro other hqueued
      exact h.queued session.block other (List.mem_of_mem_erase hqueued)
    · exact (h.nodup session.block).erase request
  apply herased.setStage
  · intro block
    by_cases hother : block = session.block
    · subst hother
      rw [ConnectionPool.sessions_modify_self]
      exact (h.nodup session.block).not_mem_erase
    · rw [ConnectionPool.sessions_modify_of_ne _ hother]
      intro hqueued
      -- a request waits in one queue only
      obtain ⟨second, hsecond, hagain⟩ := h.queued block request hqueued
      rw [hstage] at hagain
      cases hagain
      exact hother (hsecond.symm.trans hblock)
  · intro owned howned
    cases howned
    rw [← hblock]
    exact h.holder request waiting hmine
  · intro owned howned hne
    cases howned
    rw [ConnectionPool.sessions_modify_self, ← hblock]
    exact hcallback

/-- The response is passed to the callback of the request, and nothing is left
in the queue. -/
theorem responseRead (h : Owned pool) {request : SnapshotRequest} {session : SessionPointer}
    (returned : Bool) (hstage : pool.stage request = .reading session) :
    Owned (pool.responseRead request session returned).1 ∧
      ∀ report ∈ (pool.responseRead request session returned).2, report.Routed := by
  have hmine : (pool.stage request).session = some session := by rw [hstage]; rfl
  have hunqueued : ∀ other, pool.stage request ≠ .queued other := by simp [hstage]
  have hregistered : pool.stage request ≠ .acquired session := by simp [hstage]
  have hqueue := h.not_mem_requestQueue hunqueued
  have hcallback := h.callback request session hmine hregistered
  rw [ConnectionPool.responseRead, ConnectionPool.finishRequest]
  split
  · -- the callback raised and nothing else happens
    refine ⟨h.proceed .answered hmine hregistered hunqueued (.inr rfl), ?_⟩
    simp [hcallback, Report.Routed]
  refine ⟨?_, ?_⟩
  · have hanswered := h.advance .answered hmine hregistered hqueue (.inr rfl)
    have hclosed := SameRequests.modify
      ((pool.setStage request .answered).transitionTo session .closing false) session
      (fun fields => { fields with isProcessing := false }) (fun _ => rfl) fun _ => rfl
    refine (hanswered.transitionTo session .closing false ?_).of_same hclosed
    -- the request was the only one with this session
    intro other owned howned hblock
    by_cases hother : other = request
    · simp [ConnectionPool.setStage, hother, Stage.session] at howned
    · simp only [ConnectionPool.setStage, Function.update_of_ne hother] at howned
      exact hother (h.eq_of_block_eq howned hmine hblock)
  · have hempty : (pool.sessions session.block).requestQueue = [] := by
      apply List.eq_nil_iff_forall_not_mem.mpr
      intro other hmem
      obtain ⟨owned, hblock, hqueued⟩ := h.queued session.block other hmem
      have hother : (pool.stage other).session = some owned := by rw [hqueued]; rfl
      have hsame := h.eq_of_block_eq hother hmine hblock
      rw [hsame, hstage] at hqueued
      simp at hqueued
    simp [hcallback, hempty, Report.Routed]

theorem requestLoop (h : Owned pool) {session : SessionPointer} {next : SnapshotRequest}
    (enqueued : Bool) (hnext : (pool.sessions session.block).requestQueue = [] ∨
      next ∈ (pool.sessions session.block).requestQueue) :
    Owned (pool.requestLoop session next enqueued) := by
  have hready := SameRequests.transitionTo pool session enqueued
    (by simp : StatusSession.ready ≠ _) (by simp)
  have hprocess := hready.trans (.transitionTo _ session false
    (by simp : StatusSession.kInProcess ≠ _) (by simp))
  rw [ConnectionPool.requestLoop]
  split
  · exact h.of_same hready
  · rename_i hnonempty
    apply (h.of_same hprocess).dequeue
    rw [hprocess.requestQueue]
    exact hnext.resolve_left hnonempty

theorem resume (h : Owned pool) (session : SessionPointer) (runStage : RunStage)
    (succeeded : Bool)
    (hexclusive : succeeded = false → (runStage = .started ∨ runStage = .handshaking) →
      pool.holder session.block = none) : Owned (pool.resume session runStage succeeded) := by
  have hstatus (status : StatusSession) : SameRequests pool
      (pool.modify session fun fields => { fields with status := status }) :=
    .modify pool session _ (fun _ => rfl) fun _ => rfl
  have hsame (next : ConnectionPool) : SameRequests pool next → Owned next := h.of_same
  cases succeeded with
  | true =>
      cases runStage with
      | started => exact hsame _ ((hstatus .resolving).trans (.of_eq rfl rfl rfl))
      | resolving =>
          exact hsame _ ((hstatus .connecting).trans (.of_eq rfl rfl rfl))
      | connecting =>
          exact hsame _ ((hstatus .handshaking).trans (.of_eq rfl rfl rfl))
      | handshaking => exact hsame _ (.of_eq rfl rfl rfl)
  | false =>
      cases runStage with
      | started =>
          exact h.transitionTo session .expired false
            (h.free_of_holder_eq_none (hexclusive rfl (.inl rfl)))
      | handshaking =>
          exact h.transitionTo session .expired false
            (h.free_of_holder_eq_none (hexclusive rfl (.inr rfl)))
      | resolving => exact h
      | connecting => exact h

/-- An exclusive step keeps the requests apart and routes its reports. -/
theorem step (h : Owned pool) (event : Event) (hexclusive : pool.Exclusive event) :
    Owned (pool.step event).1 ∧ ∀ report ∈ (pool.step event).2, report.Routed := by
  have hsilent (next : ConnectionPool) (hnext : Owned next) :
      Owned (next, ([] : List Report)).1 ∧ ∀ report ∈ (next, ([] : List Report)).2,
        report.Routed := ⟨hnext, by simp⟩
  cases event with
  | resume session runStage succeeded =>
      simp only [ConnectionPool.step]
      split
      · rename_i hmem
        have hrest : Owned { pool with runs := pool.runs.erase (session, runStage) } :=
          h.of_same (.of_eq rfl rfl rfl)
        apply hsilent
        apply hrest.resume
        rintro rfl hrunStage
        exact hexclusive hmem hrunStage
      · exact hsilent pool h
  | timer session =>
      simp only [ConnectionPool.step]
      split
      · rename_i hmem
        have hrest : Owned { pool with timers := pool.timers.erase session } :=
          h.of_same (.of_eq rfl rfl rfl)
        apply hsilent
        exact hrest.transitionTo session .expired false
          (hrest.free_of_holder_eq_none (hexclusive hmem))
      · exact hsilent pool h
  | coExec request =>
      simp only [ConnectionPool.step]
      split
      · rename_i hidle
        have hqueue := h.not_mem_requestQueue
          (by simp [hidle.1] : ∀ other, pool.stage request ≠ _)
        exact hsilent _ (h.setStage .acquiring hqueue (by simp [Stage.session])
          (by simp [Stage.session]))
      · exact hsilent pool h
  | acquireConnection request session enqueued =>
      simp only [ConnectionPool.step]
      split
      · rename_i hacquiring
        refine ⟨h.acquireConnection enqueued hacquiring.1
          (hexclusive hacquiring.1 hacquiring.2), ?_⟩
        intro report hmem
        rw [ConnectionPool.acquireConnection] at hmem
        split at hmem
        · rw [List.mem_singleton] at hmem
          subst hmem
          trivial
        · simp at hmem
      · exact hsilent pool h
  | registerOnResponse request =>
      simp only [ConnectionPool.step]
      split
      · rename_i session hstage
        exact hsilent _ (h.registerOnResponse hstage)
      · exact hsilent pool h
  | asyncRequest request =>
      simp only [ConnectionPool.step]
      split
      · rename_i session hstage
        exact hsilent _ (h.proceed (.dispatched session) (by simp [hstage, Stage.session])
          (by simp [hstage]) (by simp [hstage]) (.inl rfl))
      · exact hsilent pool h
  | handleRequest request accepted =>
      simp only [ConnectionPool.step]
      split
      · rename_i session hstage
        exact hsilent _ (h.handleRequest accepted hstage)
      · exact hsilent pool h
  | requestLoop session next enqueued =>
      simp only [ConnectionPool.step]
      split
      · rename_i hloop
        have hrest : Owned { pool with requestLoops := pool.requestLoops.erase session } :=
          h.of_same (.of_eq rfl rfl rfl)
        exact hsilent _ (hrest.requestLoop enqueued hloop.2)
      · exact hsilent pool h
  | written request =>
      simp only [ConnectionPool.step]
      split
      · rename_i session hstage
        exact hsilent _ (h.proceed (.reading session) (by simp [hstage, Stage.session])
          (by simp [hstage]) (by simp [hstage]) (.inl rfl))
      · exact hsilent pool h
  | responseRead request returned =>
      simp only [ConnectionPool.step]
      split
      · rename_i session hstage
        exact h.responseRead returned hstage
      · exact hsilent pool h
  | requestFailed request returned =>
      have hwaits : (pool.stage request).inFlight = false := hexclusive
      simp only [ConnectionPool.step]
      split
      · rename_i session hstage
        simp [hstage, Stage.inFlight] at hwaits
      · rename_i session hstage
        simp [hstage, Stage.inFlight] at hwaits
      · exact hsilent pool h

end Owned

/-- In every run that gives each session to one request, expires none that was
given away and fails no write or read, the callbacks that run belong to the
requests whose responses were read, and no session closes with a request left in
its queue. -/
theorem responses_routed (poolSize : Nat) (callbackMap : List TradingPair) (events : List Event)
    (hexclusive : EveryStep (fun before event =>
      ((connectionPool poolSize callbackMap).run before).Exclusive event) events) :
    ∀ report ∈ (connectionPool poolSize callbackMap).outputs events, report.Routed := by
  exact (Machine.outputs_of_everyStep _ ConnectionPool.Exclusive Owned Report.Routed
    (.init poolSize callbackMap) (fun _ event h => h.step event) hexclusive).2

/-- One request after the other, each with a session of its own. -/
def inTurn : List Event :=
  connect ⟨0, 0⟩ ++
  [.coExec firstRequest, .acquireConnection firstRequest ⟨0, 0⟩ true,
    .registerOnResponse firstRequest, .asyncRequest firstRequest,
    .handleRequest firstRequest true, .requestLoop ⟨0, 0⟩ firstRequest true,
    .written firstRequest, .responseRead firstRequest true] ++
  connect ⟨0, 1⟩ ++
  [.coExec secondRequest, .acquireConnection secondRequest ⟨0, 1⟩ true,
    .registerOnResponse secondRequest, .asyncRequest secondRequest,
    .handleRequest secondRequest true, .requestLoop ⟨0, 1⟩ secondRequest true,
    .written secondRequest, .responseRead secondRequest true]

/-- Both requests get their own response. -/
theorem responses_routed_inTurn :
    .response firstRequest firstRequest ∈
        (connectionPool 1 [⟨2, 1⟩, ⟨3, 1⟩]).outputs inTurn ∧
      .response secondRequest secondRequest ∈
        (connectionPool 1 [⟨2, 1⟩, ⟨3, 1⟩]).outputs inTurn ∧
      ∀ report ∈ (connectionPool 1 [⟨2, 1⟩, ⟨3, 1⟩]).outputs inTurn, report.Routed :=
  ⟨by decide, by decide, responses_routed 1 [⟨2, 1⟩, ⟨3, 1⟩] inTurn (by decide)⟩

/-- Both requests acquire the session before either of them is written. -/
def overlapping : List Event :=
  connect ⟨0, 0⟩ ++
  [.coExec firstRequest, .coExec secondRequest, .acquireConnection firstRequest ⟨0, 0⟩ true,
    .acquireConnection secondRequest ⟨0, 0⟩ true, .registerOnResponse firstRequest,
    .registerOnResponse secondRequest, .asyncRequest firstRequest,
    .handleRequest firstRequest true, .requestLoop ⟨0, 0⟩ firstRequest true,
    .asyncRequest secondRequest, .handleRequest secondRequest true, .written firstRequest,
    .responseRead firstRequest true]

/-- The response to the first request goes to the callback of the second, which
stays in the queue of the closed session. -/
theorem overlapping_misroutes :
    (connectionPool 1 [⟨2, 1⟩, ⟨3, 1⟩]).outputs overlapping =
        [.acquired ⟨0, 0⟩ true, .acquired ⟨0, 0⟩ true, .response firstRequest secondRequest,
          .closing [secondRequest]] ∧
      ¬ ∀ report ∈ (connectionPool 1 [⟨2, 1⟩, ⟨3, 1⟩]).outputs overlapping,
        report.Routed := by
  have houtputs : (connectionPool 1 [⟨2, 1⟩, ⟨3, 1⟩]).outputs overlapping =
      [.acquired ⟨0, 0⟩ true, .acquired ⟨0, 0⟩ true, .response firstRequest secondRequest,
        .closing [secondRequest]] := by decide
  refine ⟨houtputs, fun hrouted => ?_⟩
  rw [houtputs] at hrouted
  have hresponse : secondRequest = firstRequest :=
    hrouted (.response firstRequest secondRequest) (by simp)
  exact absurd hresponse (by decide)

/-- The connection breaks while the only request is written, and its callback
gets a response that nobody sent. -/
example : (connectionPool 1 [⟨2, 1⟩]).outputs (connect ⟨0, 0⟩ ++
    [.coExec firstRequest, .acquireConnection firstRequest ⟨0, 0⟩ true,
      .registerOnResponse firstRequest, .asyncRequest firstRequest,
      .handleRequest firstRequest true, .requestLoop ⟨0, 0⟩ firstRequest true,
      .requestFailed firstRequest true]) =
    [.acquired ⟨0, 0⟩ true, .unread firstRequest firstRequest, .closing []] := by
  decide

end CryptoBot.Network

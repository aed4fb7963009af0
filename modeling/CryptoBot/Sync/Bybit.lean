/-
# The Bybit synchroniser

Bybit pushes snapshots over the same channel as the deltas and numbers both with
one counter.  A snapshot overwrites the counter the loss check compares with, so
the delta after a snapshot has to carry the next number; a snapshot that repeats
the stored id is taken for the stored one.  A lost delta makes the component
resubscribe, which brings a new snapshot.

The chain law says that every forwarded delta carries the number after the
callback before it.  A loss returns without clearing `need_process_current_diff`
or the pending snapshot, although the counter has moved to the lost delta; and a
repeated snapshot id clears a pending snapshot although the counter has moved to
it.  `chained_of_sound` is the law for runs without these two steps, and
`not_chained_of_detaches` shows that after either of them the next delta breaks
the chain.
-/

import CryptoBot.Sync.Generator

namespace CryptoBot.Sync.Bybit

open CryptoBot.Common CryptoBot.MarketData CryptoBot.Math

/-- A snapshot with a new id becomes pending and sets the counter; a snapshot
with the stored id only clears the pending flag. -/
def handleNewSnapshotEvent (state : BidAskState) (snapshot : BookSnapshot2) : BidAskState :=
  let state := { state with
    needProcessCurrentSnapshot := state.snapshot.lastUpdateId != snapshot.lastUpdateId }
  if state.needProcessCurrentSnapshot then
    { state with
      snapshot := .assign snapshot
      lastIdDiffBookEvent := snapshot.lastUpdateId }
  else state

/-- `diff_packet_lost`. -/
def packetLost (state : BidAskState) (diff : BookDiffSnapshot2) : Bool :=
  diff.lastId != state.lastIdDiffBookEvent + 1

/-- `snapshot_and_diff_now_sync`. -/
def nowSync (state : BidAskState) (diff : BookDiffSnapshot2) : Bool :=
  diff.lastId == state.snapshot.lastUpdateId + 1

def handleBookDiffSnapshotEvent (callbacks : Callbacks) (state : BidAskState)
    (diff : BookDiffSnapshot2) : BidAskState × List Action :=
  let state := { state with diffPacketLost := packetLost state diff }
  let state := { state with lastIdDiffBookEvent := diff.lastId }
  if state.diffPacketLost then
    (state, [.requestSubscribeToDiff false diff.tradingPair,
      .requestSubscribeToDiff true diff.tradingPair])
  else forward callbacks (achieveSync (nowSync state diff) state) diff

def generator : Generator where
  exchangeId := .kBybit
  handleNewSnapshotEvent := handleNewSnapshotEvent
  handleBookDiffSnapshotEvent := handleBookDiffSnapshotEvent

/-! ## What one event can do -/

section Step

variable {state : BidAskState} {diff : BookDiffSnapshot2}

theorem handleNewSnapshotEvent_of_repeated {snapshot : BookSnapshot2}
    (h : snapshot.lastUpdateId = state.snapshot.lastUpdateId) :
    handleNewSnapshotEvent state snapshot =
      { state with needProcessCurrentSnapshot := false } := by
  simp [handleNewSnapshotEvent, h]

theorem handleNewSnapshotEvent_of_new {snapshot : BookSnapshot2}
    (h : snapshot.lastUpdateId ≠ state.snapshot.lastUpdateId) :
    handleNewSnapshotEvent state snapshot =
      { state with
        needProcessCurrentSnapshot := true
        snapshot := .assign snapshot
        lastIdDiffBookEvent := snapshot.lastUpdateId } := by
  simp [handleNewSnapshotEvent, h.symm]

/-- The state once a delta that was not lost was tried against the snapshot. -/
abbrev tried (state : BidAskState) (diff : BookDiffSnapshot2) : BidAskState :=
  attempt false (nowSync state diff) state diff

variable (state diff) in
/-- The outcomes of a delta step, one constructor per way out of the handler. -/
inductive DiffOutcome : BidAskState × List Action → Prop
  | lost (hlost : diff.lastId ≠ state.lastIdDiffBookEvent + 1) :
      DiffOutcome ({ state with diffPacketLost := true, lastIdDiffBookEvent := diff.lastId },
        [.requestSubscribeToDiff false diff.tradingPair,
          .requestSubscribeToDiff true diff.tradingPair])
  | resynchronised (hnext : diff.lastId = state.lastIdDiffBookEvent + 1)
      (hpending : (tried state diff).needProcessCurrentSnapshot = true) :
      DiffOutcome ({ tried state diff with
          needProcessCurrentSnapshot := false, needProcessCurrentDiff := true },
        [.snapshotCallback state.snapshot, .diffCallback diff])
  | continued (hnext : diff.lastId = state.lastIdDiffBookEvent + 1)
      (hpending : (tried state diff).needProcessCurrentSnapshot = false)
      (hdiff : state.needProcessCurrentDiff = true) :
      DiffOutcome (tried state diff, [.diffCallback diff])
  | silent (hnext : diff.lastId = state.lastIdDiffBookEvent + 1)
      (hpending : (tried state diff).needProcessCurrentSnapshot = false)
      (hdiff : state.needProcessCurrentDiff = false) :
      DiffOutcome (tried state diff, [])

/-- Inversion of the delta handler with both callbacks registered. -/
theorem diffOutcome_of_eq {result : BidAskState × List Action}
    (h : handleBookDiffSnapshotEvent .registered state diff = result) :
    DiffOutcome state diff result := by
  subst h
  by_cases hnext : diff.lastId = state.lastIdDiffBookEvent + 1
  · have hkept : packetLost state diff = false := by simp [packetLost, hnext]
    have hforward : handleBookDiffSnapshotEvent .registered state diff =
        forward .registered (tried state diff) diff := by
      simp only [handleBookDiffSnapshotEvent, hkept]
      rfl
    have hkept' : (tried state diff).diffPacketLost = false := attempt_diffPacketLost ..
    rw [hforward]
    cases hpending : (tried state diff).needProcessCurrentSnapshot with
    | true =>
        rw [forward_pending hpending hkept']
        simpa only [attempt_snapshot] using DiffOutcome.resynchronised hnext hpending
    | false =>
        rw [forward_not_pending hpending hkept', attempt_needProcessCurrentDiff]
        cases hdiff : state.needProcessCurrentDiff with
        | true => exact .continued hnext hpending hdiff
        | false => exact .silent hnext hpending hdiff
  · have hlost : packetLost state diff = true := by simpa [packetLost] using hnext
    simp only [handleBookDiffSnapshotEvent, hlost, if_true]
    exact .lost hnext

end Step

/-! ## The chain law -/

/-- Every forwarded delta carries the number after the callback before it. -/
def Chained (history : List Action) : Prop :=
  EveryStep (fun before action => ∀ diff, action = .diffCallback diff →
    ∃ base, chainBase before = some base ∧ diff.lastId.toNat = base.toNat + 1) history

/-- The ids of snapshots and deltas are below the all-ones word. -/
def IdsBelowMax : Event → Prop
  | .responseNewSnapshot snapshot => snapshot.lastUpdateId < 0xFFFFFFFFFFFFFFFF
  | .bookDiffSnapshot diff => diff.lastId < 0xFFFFFFFFFFFFFFFF

instance : DecidablePred IdsBelowMax
  | .responseNewSnapshot snapshot =>
      inferInstanceAs (Decidable (snapshot.lastUpdateId < 0xFFFFFFFFFFFFFFFF))
  | .bookDiffSnapshot diff => inferInstanceAs (Decidable (diff.lastId < 0xFFFFFFFFFFFFFFFF))

/-- The number a message carries. -/
def number : Event → UInt64
  | .responseNewSnapshot snapshot => snapshot.lastUpdateId
  | .bookDiffSnapshot diff => diff.lastId

/-- The steps that detach the counter from what is forwarded next: a lost delta
while a snapshot is pending or deltas are being forwarded, and a snapshot that
repeats the id of a pending one while deltas are being forwarded.  A delta that
repeats the last processed number moves nothing, and neither does a snapshot
with the number of the last callback. -/
def Detaches (state : BidAskState) (history : List Action) : Event → Prop
  | .responseNewSnapshot snapshot =>
      state.needProcessCurrentSnapshot = true ∧ state.needProcessCurrentDiff = true ∧
        snapshot.lastUpdateId = state.snapshot.lastUpdateId ∧
        chainBase history ≠ some snapshot.lastUpdateId
  | .bookDiffSnapshot diff =>
      diff.lastId ≠ state.lastIdDiffBookEvent + 1 ∧
        (state.needProcessCurrentSnapshot = true ∨ state.needProcessCurrentDiff = true) ∧
        diff.lastId ≠ state.lastIdDiffBookEvent

instance (state : BidAskState) (history : List Action) : DecidablePred (Detaches state history)
  | .responseNewSnapshot _ => inferInstanceAs (Decidable (_ ∧ _))
  | .bookDiffSnapshot _ => inferInstanceAs (Decidable (_ ∧ _))

/-- No step of the run detaches the counter. -/
def Sound (events : List Event) : Prop :=
  generator.EveryAccepted (fun state history event => ¬ Detaches state history event) events

instance (events : List Event) : Decidable (Sound events) :=
  inferInstanceAs (Decidable (generator.EveryAccepted _ events))

/-- The counter is the id the next forwarded delta has to continue. -/
structure ChainInv (state : BidAskState) (history : List Action) : Prop where
  chained : Chained history
  counterBound : state.lastIdDiffBookEvent < 0xFFFFFFFFFFFFFFFF
  snapshotBound : state.snapshot.lastUpdateId < 0xFFFFFFFFFFFFFFFF
  pending : state.needProcessCurrentSnapshot = true →
    state.lastIdDiffBookEvent = state.snapshot.lastUpdateId
  forwarding : state.needProcessCurrentDiff = true → state.needMakeSnapshot = false
  base : state.needProcessCurrentDiff = true → state.needProcessCurrentSnapshot = false →
    chainBase history = some state.lastIdDiffBookEvent

section Chain

variable {state : BidAskState} {history : List Action}

theorem chainBase_resubscribe (history : List Action) (pair : TradingPair) :
    chainBase (history ++ [Action.requestSubscribeToDiff false pair,
      Action.requestSubscribeToDiff true pair]) = chainBase history := by
  simp [chainBase]

/-- Actions other than a forwarded delta keep the chain. -/
theorem Chained.concat_of_ne (hchain : Chained history) {action : Action}
    (hne : ∀ diff, action ≠ .diffCallback diff) : Chained (history ++ [action]) :=
  EveryStep.concat_iff.mpr ⟨hchain, fun diff heq => (hne diff heq).elim⟩

/-- A delta with the number after the chain's base extends the chain. -/
theorem Chained.concat_diff (hchain : Chained history) {diff : BookDiffSnapshot2} {base : UInt64}
    (hbase : chainBase history = some base) (hbound : base < 0xFFFFFFFFFFFFFFFF)
    (hnext : diff.lastId = base + 1) : Chained (history ++ [Action.diffCallback diff]) := by
  refine EveryStep.concat_iff.mpr ⟨hchain, ?_⟩
  rintro _ ⟨⟩
  refine ⟨base, hbase, ?_⟩
  rw [hnext]
  simp only [UInt64.lt_iff_toNat_lt, UInt64.toNat_add, UInt64.reduceToNat] at hbound ⊢
  omega

theorem ChainInv.snapshot (hinv : ChainInv state history) {snapshot : BookSnapshot2}
    (hid : IdsBelowMax (.responseNewSnapshot snapshot))
    (hsound : ¬ Detaches state history (.responseNewSnapshot snapshot)) :
    ChainInv (handleNewSnapshotEvent state snapshot) history := by
  obtain ⟨hchain, hcounter, hstored, hpending, hforwarding, hbase⟩ := hinv
  by_cases hrepeated : snapshot.lastUpdateId = state.snapshot.lastUpdateId
  · rw [handleNewSnapshotEvent_of_repeated hrepeated]
    refine ⟨hchain, hcounter, hstored, nofun, hforwarding, fun hdiff _ => ?_⟩
    cases hflag : state.needProcessCurrentSnapshot with
    | false => exact hbase hdiff hflag
    | true =>
        by_contra hmoved
        rw [hpending hflag, ← hrepeated] at hmoved
        exact hsound ⟨hflag, hdiff, hrepeated, hmoved⟩
  · rw [handleNewSnapshotEvent_of_new hrepeated]
    exact ⟨hchain, hid, hid, fun _ => rfl, hforwarding, nofun⟩

/-- The delta that lets a snapshot out carries the number after the snapshot. -/
theorem ChainInv.next_of_resynchronised (hinv : ChainInv state history)
    {diff : BookDiffSnapshot2} (hnext : diff.lastId = state.lastIdDiffBookEvent + 1)
    (hpending : (tried state diff).needProcessCurrentSnapshot = true) :
    nowSync state diff = true := by
  rw [attempt_needProcessCurrentSnapshot, Bool.or_eq_true, Bool.and_eq_true] at hpending
  rcases hpending with hold | ⟨-, hsync⟩
  · simp [nowSync, hnext, hinv.pending hold]
  · exact hsync

theorem ChainInv.diff (hinv : ChainInv state history) {diff : BookDiffSnapshot2}
    (hid : IdsBelowMax (.bookDiffSnapshot diff))
    (hsound : ¬ Detaches state history (.bookDiffSnapshot diff)) :
    ChainInv (handleBookDiffSnapshotEvent .registered state diff).1
      (history ++ (handleBookDiffSnapshotEvent .registered state diff).2) := by
  have hcounter : diff.lastId < 0xFFFFFFFFFFFFFFFF := hid
  rcases hresult : handleBookDiffSnapshotEvent .registered state diff with ⟨next, actions⟩
  cases diffOutcome_of_eq hresult with
  | lost hlost =>
      -- the counter stays, or nothing waits for it
      have hkept : state.needProcessCurrentSnapshot = true ∨ state.needProcessCurrentDiff = true →
          diff.lastId = state.lastIdDiffBookEvent := by
        intro hwaiting
        by_contra hmoved
        exact hsound ⟨hlost, hwaiting, hmoved⟩
      refine ⟨?_, hid, hinv.snapshotBound, fun hpending => ?_, hinv.forwarding,
        fun hdiff hpending => ?_⟩
      · rw [List.append_cons]
        exact (hinv.chained.concat_of_ne (by simp)).concat_of_ne (by simp)
      · exact (hkept (.inl hpending)).trans (hinv.pending hpending)
      · rw [chainBase_resubscribe, hinv.base hdiff hpending]
        exact congrArg some (hkept (.inr hdiff)).symm
  | resynchronised hnext hpending =>
      have hsync := hinv.next_of_resynchronised hnext hpending
      have hlast : diff.lastId = state.snapshot.lastUpdateId + 1 := by
        simpa [nowSync] using hsync
      rw [List.append_cons]
      refine ⟨?_, by simpa using hcounter, by simpa using hinv.snapshotBound, nofun,
        by simp [hsync], fun _ _ => ?_⟩
      · exact (hinv.chained.concat_of_ne (by simp)).concat_diff
          (chainBase_concat_snapshot _ _) hinv.snapshotBound hlast
      · exact (chainBase_concat_diff _ diff).trans (by simp)
  | continued hnext hpending hdiff =>
      have hpending' : state.needProcessCurrentSnapshot = false := by
        rw [attempt_needProcessCurrentSnapshot, Bool.or_eq_false_iff] at hpending
        exact hpending.1
      refine ⟨?_, by simpa using hcounter, by simpa using hinv.snapshotBound,
        by simp only [hpending, reduceCtorEq, false_imp_iff], by simp [hinv.forwarding hdiff],
        fun _ _ => ?_⟩
      · exact hinv.chained.concat_diff (hinv.base hdiff hpending') hinv.counterBound hnext
      · simpa using chainBase_concat_diff history diff
  | silent hnext hpending hdiff =>
      rw [List.append_nil]
      exact ⟨hinv.chained, by simpa using hcounter, by simpa using hinv.snapshotBound,
        by simp only [hpending, reduceCtorEq, false_imp_iff], by simp [hdiff], by simp [hdiff]⟩

end Chain

theorem chainInv_of_sound {events : List Event} (hids : ∀ event ∈ events, IdsBelowMax event)
    (hsound : Sound events) (pair : TradingPair) :
    ChainInv (generator.stateOf events pair) (generator.history events pair) := by
  refine generator.pair_invariant
    (fun state history event => IdsBelowMax event ∧ ¬ Detaches state history event) ChainInv
    ⟨.nil, by decide, by decide, by decide, by decide, by decide⟩ ?_ ?_ pair
  · rintro state history event hinv ⟨hid, hsound⟩
    cases event with
    | responseNewSnapshot snapshot =>
        rw [show (generator.react .registered state (.responseNewSnapshot snapshot)).2 = []
          from rfl, List.append_nil]
        exact hinv.snapshot hid hsound
    | bookDiffSnapshot diff => exact hinv.diff hid hsound
  · intro before event after heq hvenue
    exact ⟨hids event (by simp [heq]), hsound before event after heq hvenue⟩

/-- Without a step that detaches the counter, the forwarded deltas of every pair
form a chain. -/
theorem chained_of_sound (events : List Event) (hids : ∀ event ∈ events, IdsBelowMax event)
    (hsound : Sound events) (pair : TradingPair) : Chained (generator.history events pair) :=
  (chainInv_of_sound hids hsound pair).chained

/-- A snapshot, two deltas, a repetition of the last delta, a newer snapshot and
the delta after it. -/
def soundRun : List Event :=
  [.responseNewSnapshot { exchangeId := .kBybit, lastUpdateId := 10 },
    .bookDiffSnapshot { exchangeId := .kBybit, lastId := 11 },
    .bookDiffSnapshot { exchangeId := .kBybit, lastId := 12 },
    .bookDiffSnapshot { exchangeId := .kBybit, lastId := 12 },
    .responseNewSnapshot { exchangeId := .kBybit, lastUpdateId := 20 },
    .bookDiffSnapshot { exchangeId := .kBybit, lastId := 21 }]

theorem chained_soundRun :
    (∀ event ∈ soundRun, IdsBelowMax event) ∧ Sound soundRun ∧
      (forwardedDiffs (generator.history soundRun {})).map BookDiffSnapshot2.lastId =
        [11, 12, 21] ∧
      Chained (generator.history soundRun {}) :=
  ⟨by decide, by decide, by decide, chained_of_sound soundRun (by decide) (by decide) {}⟩

/-- The delta `12` never arrives; `13` is lost and `14` is forwarded right after
`11`. -/
def brokenRun : List Event :=
  [.responseNewSnapshot { exchangeId := .kBybit, lastUpdateId := 10 },
    .bookDiffSnapshot { exchangeId := .kBybit, lastId := 11 },
    .bookDiffSnapshot { exchangeId := .kBybit, lastId := 13 },
    .bookDiffSnapshot { exchangeId := .kBybit, lastId := 14 }]

theorem not_chained_brokenRun :
    (∀ event ∈ brokenRun, IdsBelowMax event) ∧
      ¬ Chained (generator.history brokenRun {}) := by
  refine ⟨by decide, fun hchain => ?_⟩
  have hhistory : generator.history brokenRun {} =
      (generator.history (brokenRun.take 3) {}) ++
        [.diffCallback { exchangeId := .kBybit, lastId := 14 }] := by decide
  rw [hhistory] at hchain
  obtain ⟨base, hbase, hnext⟩ := (EveryStep.concat_iff.mp hchain).2 _ rfl
  have hlast : chainBase (generator.history (brokenRun.take 3) {}) = some 11 := by decide
  rw [hlast, Option.some.injEq] at hbase
  subst hbase
  exact absurd hnext (by decide)

/-! ## Detached counters -/

/-- The counter is at `number`, and the delta after it will be forwarded without
continuing the callback before it. -/
structure Detached (number : UInt64) (state : BidAskState) (history : List Action) : Prop where
  counter : state.lastIdDiffBookEvent = number
  waiting : state.needProcessCurrentSnapshot = true ∨ state.needProcessCurrentDiff = true
  forwarding : state.needProcessCurrentDiff = true → state.needMakeSnapshot = false
  pending : state.needProcessCurrentSnapshot = true → state.snapshot.lastUpdateId ≠ number
  base : state.needProcessCurrentSnapshot = false → chainBase history ≠ some number

section Detached

variable {state : BidAskState} {history : List Action}

/-- A step that detaches the counter leaves it detached at the number of its
message. -/
theorem ChainInv.detached (hinv : ChainInv state history) {event : Event}
    (hdetaches : Detaches state history event) :
    Detached (number event) (generator.react .registered state event).1
      (history ++ (generator.react .registered state event).2) := by
  cases event with
  | responseNewSnapshot snapshot =>
      obtain ⟨hpending, hdiff, hrepeated, hbase⟩ := hdetaches
      have hreact : generator.react .registered state (.responseNewSnapshot snapshot) =
          ({ state with needProcessCurrentSnapshot := false }, []) :=
        congrArg (·, []) (handleNewSnapshotEvent_of_repeated hrepeated)
      rw [hreact, List.append_nil]
      exact ⟨(hinv.pending hpending).trans hrepeated.symm, .inr hdiff, hinv.forwarding, nofun,
        fun _ => hbase⟩
  | bookDiffSnapshot diff =>
      obtain ⟨hlost, hwaiting, hmoved⟩ := hdetaches
      have hreact : generator.react .registered state (.bookDiffSnapshot diff) =
          ({ state with diffPacketLost := true, lastIdDiffBookEvent := diff.lastId },
            [.requestSubscribeToDiff false diff.tradingPair,
              .requestSubscribeToDiff true diff.tradingPair]) := by
        rcases hresult : generator.react .registered state (.bookDiffSnapshot diff) with
          ⟨next, actions⟩
        cases diffOutcome_of_eq hresult with
        | lost _ => rfl
        | resynchronised hnext _ => exact (hlost hnext).elim
        | continued hnext _ _ => exact (hlost hnext).elim
        | silent hnext _ _ => exact (hlost hnext).elim
      rw [hreact]
      refine ⟨rfl, hwaiting, hinv.forwarding, fun hpending heq => ?_, fun hpending => ?_⟩
      · exact hmoved (heq.symm.trans (hinv.pending hpending).symm)
      · replace hpending : state.needProcessCurrentSnapshot = false := hpending
        have hdiff := hwaiting.resolve_left (by simp [hpending])
        rw [chainBase_resubscribe, hinv.base hdiff hpending]
        exact fun heq => hmoved (Option.some.inj heq).symm

/-- The number after `number` follows only that one. -/
theorem eq_of_next {number base : UInt64} (h : (number + 1).toNat = base.toNat + 1) :
    base = number := by
  have hnumber := number.toNat_lt
  have hbase := base.toNat_lt
  rw [← UInt64.toNat_inj]
  simp only [UInt64.toNat_add, UInt64.reduceToNat] at h
  omega

/-- A detached counter lets the delta after it break the chain. -/
theorem Detached.not_chained {number : UInt64} (h : Detached number state history)
    {diff : BookDiffSnapshot2} (hdiff : diff.lastId = number + 1) :
    ¬ Chained (history ++ (handleBookDiffSnapshotEvent .registered state diff).2) := by
  intro hchain
  rcases hresult : handleBookDiffSnapshotEvent .registered state diff with ⟨next, actions⟩
  rw [hresult] at hchain
  cases diffOutcome_of_eq hresult with
  | lost hlost => exact hlost (by rw [h.counter, hdiff])
  | resynchronised hnext hpending =>
      rw [List.append_cons] at hchain
      obtain ⟨base, hbase, hnumber⟩ := (EveryStep.concat_iff.mp hchain).2 _ rfl
      rw [chainBase_concat_snapshot, Option.some.injEq] at hbase
      rw [← hbase, hdiff] at hnumber
      refine h.pending ?_ (eq_of_next hnumber)
      rw [attempt_needProcessCurrentSnapshot, Bool.or_eq_true, Bool.and_eq_true] at hpending
      rcases hpending with hold | ⟨hmake, -⟩
      · exact hold
      · apply h.waiting.resolve_right
        intro hforwarding
        rw [h.forwarding hforwarding] at hmake
        cases hmake
  | continued hnext hpending hforwarding =>
      obtain ⟨base, hbase, hnumber⟩ := (EveryStep.concat_iff.mp hchain).2 _ rfl
      rw [attempt_needProcessCurrentSnapshot, Bool.or_eq_false_iff] at hpending
      rw [hdiff] at hnumber
      rw [eq_of_next hnumber] at hbase
      exact h.base hpending.1 hbase
  | silent hnext hpending hforwarding =>
      rw [attempt_needProcessCurrentSnapshot, Bool.or_eq_false_iff] at hpending
      rcases h.waiting with hold | hold
      · rw [hpending.1] at hold
        cases hold
      · rw [hforwarding] at hold
        cases hold

end Detached

/-- The delta of the same pair with the number after that of the message. -/
def successor (event : Event) : BookDiffSnapshot2 where
  exchangeId := .kBybit
  tradingPair := event.tradingPair
  lastId := number event + 1

/-- The condition is tight: after the first step that detaches the counter, the
delta with the next number breaks the chain. -/
theorem not_chained_of_detaches (events : List Event)
    (hids : ∀ event ∈ events, IdsBelowMax event) (hsound : Sound events) (event : Event)
    (hvenue : event.exchangeId = .kBybit)
    (hdetaches : Detaches (generator.stateOf events event.tradingPair)
      (generator.history events event.tradingPair) event) :
    ¬ Chained (generator.history (events ++ [event] ++ [.bookDiffSnapshot (successor event)])
      event.tradingPair) := by
  have hdetached := (chainInv_of_sound hids hsound event.tradingPair).detached hdetaches
  have hstate := generator.stateOf_concat_of_accepted events event hvenue
  have hhistory := generator.history_concat_of_accepted events event hvenue
  rw [← hstate, ← hhistory] at hdetached
  have hnext : generator.history (events ++ [event] ++ [.bookDiffSnapshot (successor event)])
        event.tradingPair =
      generator.history (events ++ [event]) event.tradingPair ++
        (handleBookDiffSnapshotEvent .registered
          (generator.stateOf (events ++ [event]) event.tradingPair) (successor event)).2 :=
    generator.history_concat_of_accepted (events ++ [event])
      (.bookDiffSnapshot (successor event)) rfl
  rw [hnext]
  exact hdetached.not_chained rfl

end CryptoBot.Sync.Bybit

/-
# Recovery of the synchronisers

The laws of the two synchronisers say what is never forwarded.  This module says what
is: a generator that waits for a snapshot starts to forward again as soon as it can,
and then forwards everything.

Binance waits while `need_make_snapshot` is set.  After the snapshot it passes over
every diff that does not fit, asking for another snapshot for each of those above it;
the first diff that was not lost and overlaps the snapshot makes it emit the two, and
the diffs that continue follow one by one.  Bybit needs no waiting state: from
whatever state it is in, a snapshot with a new id and the deltas numbered after it
come out as they came in.

The events of one pair are all that matters to it: `Generator.history_append` cuts the
events of other pairs and venues out of a run.
-/

import CryptoBot.Sync.Binance
import CryptoBot.Sync.Bybit

namespace CryptoBot.Sync

open CryptoBot.Common CryptoBot.MarketData CryptoBot.Math

namespace Generator

variable (generator : Generator)

/-- The handlers on the state of one pair. -/
def pairMachine : Machine BidAskState Event Action := ⟨{}, generator.react .registered⟩

/-- The events of a pair that the component does not drop. -/
def own (pair : TradingPair) (events : List Event) : List Event :=
  events.filter fun event => event.exchangeId = generator.exchangeId ∧ event.tradingPair = pair

theorem own_append (pair : TradingPair) (first second : List Event) :
    generator.own pair (first ++ second) = generator.own pair first ++ generator.own pair second :=
  List.filter_append ..

theorem pair_eq (events : List Event) (pair : TradingPair) :
    generator.stateOf events pair = generator.pairMachine.run (generator.own pair events) ∧
      generator.history events pair =
        generator.pairMachine.outputs (generator.own pair events) := by
  induction events using List.reverseRecOn with
  | nil => exact ⟨rfl, rfl⟩
  | append_singleton events event ih =>
      obtain ⟨hstate, hhistory⟩ := ih
      rw [own_append]
      by_cases hvenue : event.exchangeId = generator.exchangeId
      · by_cases hpair : event.tradingPair = pair
        · subst hpair
          have hown : generator.own event.tradingPair [event] = [event] := by
            simp [own, hvenue]
          rw [hown, Machine.run_concat, Machine.outputs_concat, Machine.emitted,
            generator.stateOf_concat_of_accepted events event hvenue,
            generator.history_concat_of_accepted events event hvenue, hstate, hhistory]
          exact ⟨rfl, rfl⟩
        · have hown : generator.own pair [event] = [] := by
            simp [own, hpair]
          rw [hown, List.append_nil, ← hstate, ← hhistory, stateOf, Machine.run_concat, history,
            Machine.trace_concat, historyOf_concat, if_neg hpair, List.append_nil]
          refine ⟨?_, rfl⟩
          simp only [machine, generator.handle_of_accepted _ hvenue]
          exact Function.update_of_ne (Ne.symm hpair) _ _
      · have hown : generator.own pair [event] = [] := by
          simp [own, hvenue]
        rw [hown, List.append_nil, ← hstate, ← hhistory, stateOf, Machine.run_concat, history,
          Machine.trace_concat, historyOf_concat, Machine.emitted]
        simp only [machine, generator.handle_of_dropped _ hvenue, ite_self, List.append_nil]
        exact ⟨rfl, rfl⟩

/-- What a pair does after some events is what its handlers do with its own events. -/
theorem history_append (before after : List Event) (pair : TradingPair) :
    generator.history (before ++ after) pair = generator.history before pair ++
      generator.pairMachine.outputsFrom (generator.stateOf before pair)
        (generator.own pair after) := by
  rw [(generator.pair_eq _ pair).2, (generator.pair_eq before pair).2,
    (generator.pair_eq before pair).1, own_append, Machine.outputs_append]

end Generator

/-! ## Binance -/

namespace Binance

/-- The diff comes next after an id in the numbering the policy checks. -/
def PolicyPacketLoss.Follows : PolicyPacketLoss → UInt64 → BookDiffSnapshot2 → Prop
  | .spot, id, diff => diff.firstId = id + 1
  | .futures, id, diff => diff.prevId = id

instance (policy : PolicyPacketLoss) (id : UInt64) (diff : BookDiffSnapshot2) :
    Decidable (policy.Follows id diff) :=
  match policy with
  | .spot => inferInstanceAs (Decidable (diff.firstId = id + 1))
  | .futures => inferInstanceAs (Decidable (diff.prevId = id))

theorem PolicyPacketLoss.checkPacketLoss_eq_false_iff {policy : PolicyPacketLoss}
    {state : BidAskState} {diff : BookDiffSnapshot2} :
    policy.checkPacketLoss diff state = false ↔
      policy.Follows state.lastIdDiffBookEvent diff := by
  cases policy <;> simp [checkPacketLoss, Follows]

/-- The diff overlaps a snapshot of the id. -/
def Overlaps (id : UInt64) (diff : BookDiffSnapshot2) : Prop :=
  diff.firstId ≤ id + 1 ∧ id + 1 ≤ diff.lastId

instance (id : UInt64) (diff : BookDiffSnapshot2) : Decidable (Overlaps id diff) :=
  inferInstanceAs (Decidable (_ ∧ _))

theorem nowSync_eq_true_iff {state : BidAskState} {diff : BookDiffSnapshot2} :
    nowSync state diff = true ↔ Overlaps state.snapshot.lastUpdateId diff := by
  simp [nowSync, Overlaps]

/-- None of the diffs that come after an id overlaps the snapshot without a loss before
it. -/
def Passed (policy : PolicyPacketLoss) (snapshotId : UInt64) :
    UInt64 → List BookDiffSnapshot2 → Prop
  | _, [] => True
  | id, diff :: rest =>
      ¬ (policy.Follows id diff ∧ Overlaps snapshotId diff) ∧
        Passed policy snapshotId diff.lastId rest

/-- The id the next diff has to follow. -/
def lastIdAfter (id : UInt64) (diffs : List BookDiffSnapshot2) : UInt64 :=
  diffs.foldl (fun _ diff => diff.lastId) id

section Step

variable {policy : PolicyPacketLoss} {state : BidAskState} {diff : BookDiffSnapshot2}

/-- A pair that waits goes on waiting at a diff that does not fit, and asks for a
snapshot if the diff is above the one it has. -/
theorem react_of_waiting (hwaiting : state.needMakeSnapshot = true)
    (hbound : state.snapshot.lastUpdateId < 0xFFFFFFFFFFFFFFFF)
    (hpassed : ¬ (policy.Follows state.lastIdDiffBookEvent diff ∧
      Overlaps state.snapshot.lastUpdateId diff)) :
    ∃ next : BidAskState, next.needMakeSnapshot = true ∧ next.snapshot = state.snapshot ∧
      next.lastIdDiffBookEvent = diff.lastId ∧
      (generator policy).react .registered state (.bookDiffSnapshot diff) =
        (next, if diff.lastId ≤ state.snapshot.lastUpdateId then []
          else [.requestNewSnapshot diff.tradingPair]) := by
  rcases hresult : (generator policy).react .registered state (.bookDiffSnapshot diff)
    with ⟨next, actions⟩
  cases diffOutcome_of_eq hresult with
  | outdated hneed hold =>
      have hsync : nowSync state diff = false := by
        by_contra hsync
        exact not_le_of_nowSync hbound (by simpa using hsync) hold
      refine ⟨tried policy state diff, ?_, attempt_snapshot .., attempt_lastIdDiffBookEvent .., ?_⟩
      · rw [attempt_needMakeSnapshot, hwaiting, hsync]
        rfl
      · rw [if_pos hold]
  | requested hneed hnew =>
      refine ⟨{ tried policy state diff with needMakeSnapshot := true }, rfl,
        attempt_snapshot .., attempt_lastIdDiffBookEvent .., ?_⟩
      rw [if_neg hnew]
  | resynchronised hlost hmake =>
      rw [attempt_needMakeSnapshot, hwaiting, Bool.true_and, Bool.not_eq_false'] at hmake
      exact (hpassed ⟨PolicyPacketLoss.checkPacketLoss_eq_false_iff.mp hlost,
        nowSync_eq_true_iff.mp hmake⟩).elim
  | continued hlost hmake => simp [hwaiting] at hmake
  | silent hmake => simp [hwaiting] at hmake

/-- Synchronised at an id: the next diff that follows the id is forwarded. -/
structure Synchronised (state : BidAskState) (id : UInt64) : Prop where
  make : state.needMakeSnapshot = false
  pending : state.needProcessCurrentSnapshot = false
  diff : state.needProcessCurrentDiff = true
  lastId : state.lastIdDiffBookEvent = id

theorem react_of_fits (hwaiting : state.needMakeSnapshot = true)
    (hfollows : policy.Follows state.lastIdDiffBookEvent diff)
    (hoverlaps : Overlaps state.snapshot.lastUpdateId diff) :
    ∃ next : BidAskState, Synchronised next diff.lastId ∧
      (generator policy).react .registered state (.bookDiffSnapshot diff) =
        (next, [.snapshotCallback state.snapshot, .diffCallback diff]) := by
  have hkept := PolicyPacketLoss.checkPacketLoss_eq_false_iff.mpr hfollows
  have hsync := nowSync_eq_true_iff.mpr hoverlaps
  rcases hresult : (generator policy).react .registered state (.bookDiffSnapshot diff)
    with ⟨next, actions⟩
  cases diffOutcome_of_eq hresult with
  | outdated hneed => simp [hsync, hkept] at hneed
  | requested hneed => simp [hsync, hkept] at hneed
  | resynchronised hlost hmake =>
      refine ⟨{ tried policy state diff with
        needProcessCurrentSnapshot := false, needProcessCurrentDiff := true }, ?_, rfl⟩
      exact ⟨hmake, rfl, rfl, attempt_lastIdDiffBookEvent ..⟩
  | continued hlost hmake => simp [hwaiting] at hmake
  | silent hmake => simp [hwaiting] at hmake

theorem react_of_follows {id : UInt64} (h : Synchronised state id)
    (hfollows : policy.Follows id diff) :
    ∃ next : BidAskState, Synchronised next diff.lastId ∧
      (generator policy).react .registered state (.bookDiffSnapshot diff) =
        (next, [.diffCallback diff]) := by
  have hkept : policy.checkPacketLoss diff state = false :=
    PolicyPacketLoss.checkPacketLoss_eq_false_iff.mpr (h.lastId ▸ hfollows)
  rcases hresult : (generator policy).react .registered state (.bookDiffSnapshot diff)
    with ⟨next, actions⟩
  cases diffOutcome_of_eq hresult with
  | outdated hneed => simp [h.make, hkept] at hneed
  | requested hneed => simp [h.make, hkept] at hneed
  | resynchronised hlost hmake hpending => simp [h.make, h.pending] at hpending
  | continued =>
      refine ⟨tried policy state diff, ?_, rfl⟩
      exact ⟨by simp [h.make], by simp [h.make, h.pending], by simp [h.diff], by simp⟩
  | silent hmake hpending hdiff => simp [h.diff] at hdiff

end Step

section Run

variable {policy : PolicyPacketLoss} {state : BidAskState}

theorem outputs_of_synchronised {id : UInt64} (h : Synchronised state id)
    {diffs : List BookDiffSnapshot2} {first : BookDiffSnapshot2} (hid : first.lastId = id)
    (hchain : List.IsChain (fun previous diff => policy.Follows previous.lastId diff)
      (first :: diffs)) :
    (generator policy).pairMachine.outputsFrom state (diffs.map .bookDiffSnapshot) =
      diffs.map .diffCallback := by
  induction diffs generalizing state id first with
  | nil => rfl
  | cons diff rest ih =>
      obtain ⟨hfollows, hrest⟩ := List.isChain_cons_cons.mp hchain
      obtain ⟨next, hnext, hreact⟩ := react_of_follows h (hid ▸ hfollows)
      rw [List.map_cons, Machine.outputsFrom_cons]
      change ((generator policy).react .registered state (.bookDiffSnapshot diff)).2 ++
        (generator policy).pairMachine.outputsFrom
          ((generator policy).react .registered state (.bookDiffSnapshot diff)).1 _ = _
      rw [hreact, ih hnext rfl hrest]
      rfl

/-- From a state that waits: requests for the diffs that pass above the snapshot, then
the snapshot with the diff that fits, then the rest. -/
theorem outputs_of_waiting {passed rest : List BookDiffSnapshot2} {fits : BookDiffSnapshot2}
    (hwaiting : state.needMakeSnapshot = true)
    (hbound : state.snapshot.lastUpdateId < 0xFFFFFFFFFFFFFFFF)
    (hpassed : Passed policy state.snapshot.lastUpdateId state.lastIdDiffBookEvent passed)
    (hfollows : policy.Follows (lastIdAfter state.lastIdDiffBookEvent passed) fits)
    (hoverlaps : Overlaps state.snapshot.lastUpdateId fits)
    (hchain : List.IsChain (fun previous diff => policy.Follows previous.lastId diff)
      (fits :: rest)) :
    (generator policy).pairMachine.outputsFrom state
        ((passed ++ fits :: rest).map .bookDiffSnapshot) =
      (passed.filter fun diff => ¬ diff.lastId ≤ state.snapshot.lastUpdateId).map
          (fun diff => .requestNewSnapshot diff.tradingPair) ++
        .snapshotCallback state.snapshot :: (fits :: rest).map .diffCallback := by
  induction passed generalizing state with
  | nil =>
      obtain ⟨next, hnext, hreact⟩ := react_of_fits hwaiting hfollows hoverlaps
      rw [List.nil_append, List.map_cons, Machine.outputsFrom_cons]
      change ((generator policy).react .registered state (.bookDiffSnapshot fits)).2 ++
        (generator policy).pairMachine.outputsFrom
          ((generator policy).react .registered state (.bookDiffSnapshot fits)).1 _ = _
      rw [hreact, outputs_of_synchronised hnext rfl hchain]
      rfl
  | cons diff passed ih =>
      obtain ⟨hdiff, hlater⟩ := hpassed
      obtain ⟨next, hnext, hsnapshot, hlastId, hreact⟩ := react_of_waiting hwaiting hbound hdiff
      rw [List.cons_append, List.map_cons, Machine.outputsFrom_cons]
      change ((generator policy).react .registered state (.bookDiffSnapshot diff)).2 ++
        (generator policy).pairMachine.outputsFrom
          ((generator policy).react .registered state (.bookDiffSnapshot diff)).1 _ = _
      rw [hreact, ih hnext (hsnapshot ▸ hbound) (by rwa [hsnapshot, hlastId])
        (by rw [hlastId]; exact hfollows) (hsnapshot ▸ hoverlaps), hsnapshot]
      by_cases hold : diff.lastId ≤ state.snapshot.lastUpdateId
      · rw [if_pos hold, List.filter_cons_of_neg (by simpa using hold)]
        rfl
      · rw [if_neg hold, List.filter_cons_of_pos (by simpa using hold)]
        rfl

end Run

/-- A pair that waits recovers.  After any events, let the events of the pair be a
snapshot, some diffs that do not fit it, one that does, and diffs that each follow the
one before; events of other pairs and venues may come between them.  The pair asks for a
snapshot for each of the first diffs that is above the one it got, then it emits the
snapshot, the diff that fits, and all the others. -/
theorem recovers_of_waiting (policy : PolicyPacketLoss) (before after : List Event)
    (pair : TradingPair) (snapshot : BookSnapshot2)
    (passed rest : List BookDiffSnapshot2) (fits : BookDiffSnapshot2)
    (hwaiting : ((generator policy).stateOf before pair).needMakeSnapshot = true)
    (hown : (generator policy).own pair after =
      .responseNewSnapshot snapshot :: (passed ++ fits :: rest).map .bookDiffSnapshot)
    (hbound : snapshot.lastUpdateId < 0xFFFFFFFFFFFFFFFF)
    (hpassed : Passed policy snapshot.lastUpdateId
      ((generator policy).stateOf before pair).lastIdDiffBookEvent passed)
    (hfollows : policy.Follows (lastIdAfter
      ((generator policy).stateOf before pair).lastIdDiffBookEvent passed) fits)
    (hoverlaps : Overlaps snapshot.lastUpdateId fits)
    (hchain : List.IsChain (fun previous diff => policy.Follows previous.lastId diff)
      (fits :: rest)) :
    (generator policy).history (before ++ after) pair =
      (generator policy).history before pair ++
        (passed.filter fun diff => ¬ diff.lastId ≤ snapshot.lastUpdateId).map
          (fun diff => .requestNewSnapshot diff.tradingPair) ++
        .snapshotCallback (.assign snapshot) :: (fits :: rest).map .diffCallback := by
  rw [Generator.history_append, hown, Machine.outputsFrom_cons, List.append_assoc]
  set state := (generator policy).stateOf before pair
  have houtputs :=
    @outputs_of_waiting policy { state with snapshot := .assign snapshot } passed rest
      fits hwaiting hbound hpassed hfollows hoverlaps hchain
  exact congrArg ((generator policy).history before pair ++ ·) houtputs

/-- The first diff was preceded by others that got lost, so the pair waits. -/
def lossThenSnapshot : List Event :=
  [.bookDiffSnapshot { exchangeId := .kBinance, firstId := 3, lastId := 6 }]

/-- After the snapshot one diff comes ahead of its turn and is above the snapshot, the
next one is below, and a diff of another pair comes before those that fit. -/
def snapshotThenDiffs : List Event :=
  [.responseNewSnapshot { exchangeId := .kBinance, lastUpdateId := 9 },
    .bookDiffSnapshot { exchangeId := .kBinance, firstId := 12, lastId := 14 },
    .bookDiffSnapshot { exchangeId := .kBinance, firstId := 7, lastId := 8 },
    .bookDiffSnapshot { exchangeId := .kBinance, tradingPair := ⟨2, 1⟩, firstId := 1, lastId := 1 },
    .bookDiffSnapshot { exchangeId := .kBinance, firstId := 9, lastId := 12 },
    .bookDiffSnapshot { exchangeId := .kBinance, firstId := 13, lastId := 13 }]

theorem recovers_lossThenSnapshot :
    (generator .spot).history (lossThenSnapshot ++ snapshotThenDiffs) {} =
      (generator .spot).history lossThenSnapshot {} ++ [.requestNewSnapshot {}] ++
        [.snapshotCallback { exchangeId := .kBinance, lastUpdateId := 9 },
          .diffCallback { exchangeId := .kBinance, firstId := 9, lastId := 12 },
          .diffCallback { exchangeId := .kBinance, firstId := 13, lastId := 13 }] :=
  recovers_of_waiting .spot lossThenSnapshot snapshotThenDiffs {}
    { exchangeId := .kBinance, lastUpdateId := 9 }
    [{ exchangeId := .kBinance, firstId := 12, lastId := 14 },
      { exchangeId := .kBinance, firstId := 7, lastId := 8 }]
    [{ exchangeId := .kBinance, firstId := 13, lastId := 13 }]
    { exchangeId := .kBinance, firstId := 9, lastId := 12 }
    (by decide) (by decide) (by decide) (by simp [Passed, Overlaps]) (by decide) (by decide)
    (by decide)

end Binance

/-! ## Bybit -/

namespace Bybit

section Step

variable {state : BidAskState} {diff : BookDiffSnapshot2}

/-- Deltas are forwarded, and the next one has the number after the counter. -/
structure Forwarding (state : BidAskState) (counter : UInt64) : Prop where
  make : state.needMakeSnapshot = false
  pending : state.needProcessCurrentSnapshot = false
  diff : state.needProcessCurrentDiff = true
  counter : state.lastIdDiffBookEvent = counter

theorem react_of_pending (hpending : state.needProcessCurrentSnapshot = true)
    (hcounter : state.lastIdDiffBookEvent = state.snapshot.lastUpdateId)
    (hnext : diff.lastId = state.lastIdDiffBookEvent + 1) :
    ∃ next : BidAskState, Forwarding next diff.lastId ∧
      generator.react .registered state (.bookDiffSnapshot diff) =
        (next, [.snapshotCallback state.snapshot, .diffCallback diff]) := by
  rcases hresult : generator.react .registered state (.bookDiffSnapshot diff) with ⟨next, actions⟩
  cases diffOutcome_of_eq hresult with
  | lost hlost => exact (hlost hnext).elim
  | resynchronised =>
      refine ⟨{ tried state diff with
        needProcessCurrentSnapshot := false, needProcessCurrentDiff := true }, ?_, rfl⟩
      have hsync : nowSync state diff = true := by simp [nowSync, hnext, hcounter]
      exact ⟨by simp [hsync], rfl, rfl, attempt_lastIdDiffBookEvent ..⟩
  | continued _ hnone => simp [hpending] at hnone
  | silent _ hnone => simp [hpending] at hnone

theorem react_of_next {counter : UInt64} (h : Forwarding state counter)
    (hnext : diff.lastId = counter + 1) :
    ∃ next : BidAskState, Forwarding next diff.lastId ∧
      generator.react .registered state (.bookDiffSnapshot diff) =
        (next, [.diffCallback diff]) := by
  rcases hresult : generator.react .registered state (.bookDiffSnapshot diff) with ⟨next, actions⟩
  cases diffOutcome_of_eq hresult with
  | lost hlost => exact (hlost (by rw [hnext, h.counter])).elim
  | resynchronised _ hpending => simp [h.make, h.pending] at hpending
  | continued =>
      refine ⟨tried state diff, ?_, rfl⟩
      exact ⟨by simp [h.make], by simp [h.make, h.pending], by simp [h.diff], by simp⟩
  | silent _ _ hdiff => simp [h.diff] at hdiff

end Step

theorem outputs_of_forwarding {state : BidAskState} {counter : UInt64}
    (h : Forwarding state counter) {diffs : List BookDiffSnapshot2} {first : BookDiffSnapshot2}
    (hcounter : first.lastId = counter)
    (hchain : List.IsChain (fun previous diff => diff.lastId = previous.lastId + 1)
      (first :: diffs)) :
    generator.pairMachine.outputsFrom state (diffs.map .bookDiffSnapshot) =
      diffs.map .diffCallback := by
  induction diffs generalizing state counter first with
  | nil => rfl
  | cons diff rest ih =>
      obtain ⟨hnext, hrest⟩ := List.isChain_cons_cons.mp hchain
      obtain ⟨next, hforwarding, hreact⟩ := react_of_next h (hcounter ▸ hnext)
      rw [List.map_cons, Machine.outputsFrom_cons]
      change (generator.react .registered state (.bookDiffSnapshot diff)).2 ++
        generator.pairMachine.outputsFrom
          (generator.react .registered state (.bookDiffSnapshot diff)).1 _ = _
      rw [hreact, ih hforwarding rfl hrest]
      rfl

theorem outputs_of_pending {state : BidAskState} {first : BookDiffSnapshot2}
    {rest : List BookDiffSnapshot2} (hpending : state.needProcessCurrentSnapshot = true)
    (hcounter : state.lastIdDiffBookEvent = state.snapshot.lastUpdateId)
    (hfirst : first.lastId = state.lastIdDiffBookEvent + 1)
    (hchain : List.IsChain (fun previous diff => diff.lastId = previous.lastId + 1)
      (first :: rest)) :
    generator.pairMachine.outputsFrom state ((first :: rest).map .bookDiffSnapshot) =
      .snapshotCallback state.snapshot :: (first :: rest).map .diffCallback := by
  obtain ⟨next, hforwarding, hreact⟩ := react_of_pending hpending hcounter hfirst
  rw [List.map_cons, Machine.outputsFrom_cons]
  change (generator.react .registered state (.bookDiffSnapshot first)).2 ++
    generator.pairMachine.outputsFrom
      (generator.react .registered state (.bookDiffSnapshot first)).1 _ = _
  rw [hreact, outputs_of_forwarding hforwarding rfl hchain]
  rfl

/-- From whatever state a pair is in after any events: let its events be a snapshot with
another id than the stored one and deltas numbered after it, with events of other pairs
and venues between them.  The pair emits the snapshot and all the deltas. -/
theorem recovers_of_new_snapshot (before after : List Event) (pair : TradingPair)
    (snapshot : BookSnapshot2) (first : BookDiffSnapshot2) (rest : List BookDiffSnapshot2)
    (hown : generator.own pair after =
      .responseNewSnapshot snapshot :: (first :: rest).map .bookDiffSnapshot)
    (hnew : snapshot.lastUpdateId ≠ (generator.stateOf before pair).snapshot.lastUpdateId)
    (hfirst : first.lastId = snapshot.lastUpdateId + 1)
    (hchain : List.IsChain (fun previous diff => diff.lastId = previous.lastId + 1)
      (first :: rest)) :
    generator.history (before ++ after) pair = generator.history before pair ++
      .snapshotCallback (.assign snapshot) :: (first :: rest).map .diffCallback := by
  rw [Generator.history_append, hown, Machine.outputsFrom_cons]
  change _ ++ generator.pairMachine.outputsFrom
    (handleNewSnapshotEvent (generator.stateOf before pair) snapshot) _ = _
  rw [handleNewSnapshotEvent_of_new hnew, outputs_of_pending rfl rfl hfirst hchain]

/-- A pair that forwards, and a delta that is lost. -/
def lostDelta : List Event :=
  [.responseNewSnapshot { exchangeId := .kBybit, lastUpdateId := 4 },
    .bookDiffSnapshot { exchangeId := .kBybit, lastId := 5 },
    .bookDiffSnapshot { exchangeId := .kBybit, lastId := 9 }]

def snapshotAgain : List Event :=
  [.responseNewSnapshot { exchangeId := .kBybit, lastUpdateId := 11 },
    .bookDiffSnapshot { exchangeId := .kBinance, lastId := 30 },
    .bookDiffSnapshot { exchangeId := .kBybit, lastId := 12 },
    .bookDiffSnapshot { exchangeId := .kBybit, lastId := 13 }]

theorem recovers_lostDelta :
    generator.history (lostDelta ++ snapshotAgain) {} = generator.history lostDelta {} ++
      [.snapshotCallback { exchangeId := .kBybit, lastUpdateId := 11 },
        .diffCallback { exchangeId := .kBybit, lastId := 12 },
        .diffCallback { exchangeId := .kBybit, lastId := 13 }] :=
  recovers_of_new_snapshot lostDelta snapshotAgain {} { exchangeId := .kBybit, lastUpdateId := 11 }
    { exchangeId := .kBybit, lastId := 12 } [{ exchangeId := .kBybit, lastId := 13 }]
    (by decide) (by decide) (by decide) (by decide)

end Bybit

end CryptoBot.Sync

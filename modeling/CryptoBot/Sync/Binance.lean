/-
# The Binance synchroniser

A Binance pair is synchronised when the first diff it forwards overlaps the
stored snapshot: `first_id <= lastUpdateId + 1 <= last_id`.  From then on the
packet-loss policy compares each diff with the one processed before it, and a
loss sends the pair back to requesting a snapshot.

Two laws are settled here.  A snapshot is only ever emitted together with a diff
that overlaps it (`snapshotCallback_aligned`), because a pending snapshot implies
`need_make_snapshot`.  The absence of gaps is weaker than intended: a lost diff
that is not above the stored snapshot returns before `need_make_snapshot` is set
again, so the pair stays synchronised across the loss.  `noGap_of_armed` is the
law for runs that never take that return, and `gap_of_unarmed` shows that each
such return lets the very next diff through.
-/

import CryptoBot.Sync.Generator

namespace CryptoBot.Sync.Binance

open CryptoBot.Common CryptoBot.MarketData CryptoBot.Math

/-- `SpotPolicy` and `FuturesPolicy`. -/
inductive PolicyPacketLoss
  | spot | futures
  deriving DecidableEq, Repr

namespace PolicyPacketLoss

def checkPacketLoss : PolicyPacketLoss → BookDiffSnapshot2 → BidAskState → Bool
  | .spot, diff, state => diff.firstId != state.lastIdDiffBookEvent + 1
  | .futures, diff, state => diff.prevId != state.lastIdDiffBookEvent

/-- Both policies record the last id of the diff, lost or not. -/
def setLastProcessedDiffId (_ : PolicyPacketLoss) (diff : BookDiffSnapshot2)
    (state : BidAskState) : BidAskState :=
  { state with lastIdDiffBookEvent := diff.lastId }

/-- `diff` continues `previous` in the numbering the policy checks. -/
def Continues : PolicyPacketLoss → BookDiffSnapshot2 → BookDiffSnapshot2 → Prop
  | .spot, previous, diff => diff.firstId = previous.lastId + 1
  | .futures, previous, diff => diff.prevId = previous.lastId

theorem continues_of_not_lost {policy : PolicyPacketLoss} {state : BidAskState}
    {previous diff : BookDiffSnapshot2} (hprevious : previous.lastId = state.lastIdDiffBookEvent)
    (hlost : policy.checkPacketLoss diff state = false) :
    policy.Continues previous diff := by
  cases policy <;> simpa [checkPacketLoss, Continues, hprevious] using hlost

end PolicyPacketLoss

variable (policy : PolicyPacketLoss)

/-- `snapshot_and_diff_now_sync`. -/
def nowSync (state : BidAskState) (diff : BookDiffSnapshot2) : Bool :=
  decide (diff.firstId ≤ state.snapshot.lastUpdateId + 1) &&
    decide (diff.lastId ≥ state.snapshot.lastUpdateId + 1)

def handleNewSnapshotEvent (state : BidAskState) (snapshot : BookSnapshot2) : BidAskState :=
  { state with snapshot := .assign snapshot }

def handleBookDiffSnapshotEvent (callbacks : Callbacks) (state : BidAskState)
    (diff : BookDiffSnapshot2) : BidAskState × List Action :=
  let state := { state with diffPacketLost := policy.checkPacketLoss diff state }
  let state := policy.setLastProcessedDiffId diff state
  let state := achieveSync (nowSync state diff) state
  if state.needMakeSnapshot || state.diffPacketLost then
    -- [OUTDATED DIFF]: the return leaves `need_make_snapshot` as it is
    if diff.lastId ≤ state.snapshot.lastUpdateId then (state, [])
    else ({ state with needMakeSnapshot := true }, [.requestNewSnapshot diff.tradingPair])
  else forward callbacks state diff

def generator : Generator where
  exchangeId := .kBinance
  handleNewSnapshotEvent := handleNewSnapshotEvent
  handleBookDiffSnapshotEvent := handleBookDiffSnapshotEvent policy

/-! ## What one diff can do -/

/-- The state once the diff is recorded and synchronisation was attempted. -/
abbrev tried (state : BidAskState) (diff : BookDiffSnapshot2) : BidAskState :=
  attempt (policy.checkPacketLoss diff state) (nowSync state diff) state diff

section Step

variable {policy} {state : BidAskState} {diff : BookDiffSnapshot2}

variable (policy state diff) in
/-- The outcomes of a diff step, one constructor per way out of the handler. -/
inductive DiffOutcome : BidAskState × List Action → Prop
  | outdated
      (hneed : (tried policy state diff).needMakeSnapshot = true ∨
        policy.checkPacketLoss diff state = true)
      (hold : diff.lastId ≤ state.snapshot.lastUpdateId) :
      DiffOutcome (tried policy state diff, [])
  | requested
      (hneed : (tried policy state diff).needMakeSnapshot = true ∨
        policy.checkPacketLoss diff state = true)
      (hnew : ¬ diff.lastId ≤ state.snapshot.lastUpdateId) :
      DiffOutcome ({ tried policy state diff with needMakeSnapshot := true },
        [.requestNewSnapshot diff.tradingPair])
  | resynchronised (hlost : policy.checkPacketLoss diff state = false)
      (hmake : (tried policy state diff).needMakeSnapshot = false)
      (hpending : (tried policy state diff).needProcessCurrentSnapshot = true) :
      DiffOutcome ({ tried policy state diff with
          needProcessCurrentSnapshot := false, needProcessCurrentDiff := true },
        [.snapshotCallback state.snapshot, .diffCallback diff])
  | continued (hlost : policy.checkPacketLoss diff state = false)
      (hmake : state.needMakeSnapshot = false)
      (hpending : state.needProcessCurrentSnapshot = false)
      (hdiff : state.needProcessCurrentDiff = true) :
      DiffOutcome (tried policy state diff, [.diffCallback diff])
  | silent (hmake : state.needMakeSnapshot = false)
      (hpending : state.needProcessCurrentSnapshot = false)
      (hdiff : state.needProcessCurrentDiff = false) :
      DiffOutcome (tried policy state diff, [])

variable (policy state diff) in
/-- Inversion of the diff handler with both callbacks registered. -/
theorem diffOutcome :
    DiffOutcome policy state diff
      (handleBookDiffSnapshotEvent policy .registered state diff) := by
  rw [show handleBookDiffSnapshotEvent policy .registered state diff =
    if (tried policy state diff).needMakeSnapshot || (tried policy state diff).diffPacketLost then
      if diff.lastId ≤ (tried policy state diff).snapshot.lastUpdateId then
        (tried policy state diff, [])
      else ({ tried policy state diff with needMakeSnapshot := true },
        [.requestNewSnapshot diff.tradingPair])
    else forward .registered (tried policy state diff) diff from rfl]
  by_cases hneed : (tried policy state diff).needMakeSnapshot = true ∨
      policy.checkPacketLoss diff state = true
  · have hguard : ((tried policy state diff).needMakeSnapshot ||
        (tried policy state diff).diffPacketLost) = true := by
      simpa only [Bool.or_eq_true, attempt_diffPacketLost] using hneed
    rw [if_pos hguard]
    by_cases hold : diff.lastId ≤ state.snapshot.lastUpdateId
    · rw [if_pos (by rwa [attempt_snapshot])]
      exact .outdated hneed hold
    · rw [if_neg (by rwa [attempt_snapshot])]
      exact .requested hneed hold
  · obtain ⟨hmake, hlost⟩ := not_or.mp hneed
    rw [Bool.not_eq_true] at hmake hlost
    have hlost' : (tried policy state diff).diffPacketLost = false := by
      rw [attempt_diffPacketLost, hlost]
    rw [if_neg (by rw [hmake, hlost']; decide)]
    cases hpending : (tried policy state diff).needProcessCurrentSnapshot with
    | true =>
        rw [forward_pending hpending hlost']
        simpa only [attempt_snapshot] using DiffOutcome.resynchronised hlost hmake hpending
    | false =>
        rw [forward_not_pending hpending hlost', attempt_needProcessCurrentDiff]
        rw [attempt_needMakeSnapshot] at hmake
        rw [attempt_needProcessCurrentSnapshot] at hpending
        -- neither a pending snapshot nor a sync, so the pair was synchronised before
        have hbefore : state.needMakeSnapshot = false ∧
            state.needProcessCurrentSnapshot = false := by
          cases hm : state.needMakeSnapshot <;> simp_all
        cases hdiff : state.needProcessCurrentDiff with
        | true => exact .continued hlost hbefore.1 hbefore.2 hdiff
        | false => exact .silent hbefore.1 hbefore.2 hdiff

/-- The handler's result, named, is one of the outcomes. -/
theorem diffOutcome_of_eq {result : BidAskState × List Action}
    (h : handleBookDiffSnapshotEvent policy .registered state diff = result) :
    DiffOutcome policy state diff result :=
  h ▸ diffOutcome policy state diff

end Step

/-! ## Alignment of an emitted snapshot with its diff -/

/-- The snapshots received so far have ids below the all-ones word, and a
pending snapshot implies `need_make_snapshot`. -/
structure AlignInv (state : BidAskState) : Prop where
  idBound : state.snapshot.lastUpdateId < 0xFFFFFFFFFFFFFFFF
  pending : state.needProcessCurrentSnapshot = true → state.needMakeSnapshot = true

/-- Every snapshot message carries an id below the all-ones word. -/
def SnapshotIdBelowMax : Event → Prop
  | .responseNewSnapshot snapshot => snapshot.lastUpdateId < 0xFFFFFFFFFFFFFFFF
  | .bookDiffSnapshot _ => True

instance : DecidablePred SnapshotIdBelowMax
  | .responseNewSnapshot snapshot =>
      inferInstanceAs (Decidable (snapshot.lastUpdateId < 0xFFFFFFFFFFFFFFFF))
  | .bookDiffSnapshot _ => inferInstanceAs (Decidable True)

/-- A diff in sync with the snapshot is above it, as long as `+ 1` does not wrap. -/
theorem not_le_of_nowSync {state : BidAskState} {diff : BookDiffSnapshot2}
    (hbound : state.snapshot.lastUpdateId < 0xFFFFFFFFFFFFFFFF)
    (hsync : nowSync state diff = true) : ¬ diff.lastId ≤ state.snapshot.lastUpdateId := by
  simp only [nowSync, Bool.and_eq_true, decide_eq_true_eq] at hsync
  have hlast := hsync.2
  grind

theorem AlignInv.step {state : BidAskState} {event : Event} (hinv : AlignInv state)
    (hid : SnapshotIdBelowMax event) :
    AlignInv ((generator policy).react .registered state event).1 := by
  cases event with
  | responseNewSnapshot snapshot => exact ⟨hid, hinv.pending⟩
  | bookDiffSnapshot diff =>
      obtain ⟨hbound, hpending⟩ := hinv
      rcases hresult : (generator policy).react .registered state (.bookDiffSnapshot diff)
        with ⟨next, actions⟩
      cases diffOutcome_of_eq hresult with
      | outdated hneed hold =>
          -- an outdated diff cannot be in sync, so the flags did not move
          have hsync : nowSync state diff = false := by
            by_contra hsync
            exact not_le_of_nowSync hbound (by simpa using hsync) hold
          exact ⟨by simpa using hbound, by simpa [hsync] using hpending⟩
      | requested hneed hnew => exact ⟨by simpa using hbound, fun _ => rfl⟩
      | resynchronised hlost hmake hsnap => exact ⟨by simpa using hbound, by simp⟩
      | continued hlost hmake hsnap hdiff =>
          exact ⟨by simpa using hbound, by simp [hmake, hsnap]⟩
      | silent hmake hsnap hdiff => exact ⟨by simpa using hbound, by simp [hmake, hsnap]⟩

/-- A snapshot that the invariant lets out was synchronised by the same diff. -/
theorem AlignInv.nowSync_of_resynchronised {state : BidAskState} {diff : BookDiffSnapshot2}
    (hinv : AlignInv state)
    (hmake : (tried policy state diff).needMakeSnapshot = false)
    (hpending : (tried policy state diff).needProcessCurrentSnapshot = true) :
    nowSync state diff = true := by
  rw [attempt_needMakeSnapshot] at hmake
  rw [attempt_needProcessCurrentSnapshot] at hpending
  cases hm : state.needMakeSnapshot with
  | true => simpa [hm] using hmake
  | false =>
      have hsnap : state.needProcessCurrentSnapshot = true := by simpa [hm] using hpending
      rw [hinv.pending hsnap] at hm
      cases hm

/-- Every emitted snapshot is the stored one and is emitted right before a diff
that was not lost and overlaps it. -/
theorem snapshotCallback_aligned (events : List Event)
    (hids : ∀ event ∈ events, SnapshotIdBelowMax event) :
    EveryStep (fun before event => ∀ snapshot,
      .snapshotCallback snapshot ∈ (generator policy).machine.emitted before event →
      ∃ diff, event = .bookDiffSnapshot diff ∧
        (generator policy).machine.emitted before event =
          [.snapshotCallback snapshot, .diffCallback diff] ∧
        policy.checkPacketLoss diff
          ((generator policy).stateOf before diff.tradingPair) = false ∧
        snapshot = ((generator policy).stateOf before diff.tradingPair).snapshot ∧
        diff.firstId.toNat ≤ snapshot.lastUpdateId.toNat + 1 ∧
        snapshot.lastUpdateId.toNat + 1 ≤ diff.lastId.toNat) events := by
  refine (EveryStep.of_forall_mem hids).of_forall_before ?_
  intro before event hbefore _ snapshot hmem
  obtain ⟨hvenue, hmem⟩ := (generator policy).mem_emitted_iff.mp hmem
  have hinv : AlignInv ((generator policy).stateOf before event.tradingPair) :=
    (generator policy).pair_invariant (fun _ _ event => SnapshotIdBelowMax event)
      (fun state _ => AlignInv state) ⟨by decide, by decide⟩
      (fun state _ event hinv hid => hinv.step policy hid)
      (fun first middle last heq _ => hbefore first middle last heq) event.tradingPair
  rw [(generator policy).emitted_of_accepted hvenue]
  cases event with
  | responseNewSnapshot message => simp [Generator.react] at hmem
  | bookDiffSnapshot diff =>
      refine ⟨diff, rfl, ?_⟩
      simp only [Event.tradingPair] at hinv hmem ⊢
      set state := (generator policy).stateOf before diff.tradingPair
      rcases hresult : (generator policy).react .registered state (.bookDiffSnapshot diff)
        with ⟨next, actions⟩
      rw [hresult] at hmem
      cases diffOutcome_of_eq hresult with
      | outdated hneed hold => simp at hmem
      | requested hneed hnew => simp at hmem
      | continued hlost hmake hsnap hdiff => simp at hmem
      | silent hmake hsnap hdiff => simp at hmem
      | resynchronised hlost hmake hpending =>
          have hsync := hinv.nowSync_of_resynchronised policy hmake hpending
          have heq : snapshot = state.snapshot := by simpa using hmem
          subst heq
          refine ⟨rfl, hlost, rfl, ?_⟩
          have hbound := hinv.idBound
          simp only [nowSync, Bool.and_eq_true, decide_eq_true_eq] at hsync
          obtain ⟨hfirst, hlast⟩ := hsync
          simp only [UInt64.le_iff_toNat_le, ge_iff_le, UInt64.lt_iff_toNat_lt,
            UInt64.toNat_add, UInt64.reduceToNat] at hfirst hlast hbound
          omega

/-- A diff that triggers the request, the snapshot, the diff that overlaps it and
a diff that continues. -/
def alignedRun : List Event :=
  [.bookDiffSnapshot { exchangeId := .kBinance, firstId := 3, lastId := 6, prevId := 2 },
    .responseNewSnapshot { exchangeId := .kBinance, lastUpdateId := 6 },
    .bookDiffSnapshot { exchangeId := .kBinance, firstId := 7, lastId := 8, prevId := 6 },
    .bookDiffSnapshot { exchangeId := .kBinance, firstId := 9, lastId := 9, prevId := 8 }]

theorem alignedRun_aligned :
    (∀ event ∈ alignedRun, SnapshotIdBelowMax event) ∧
      (generator .spot).machine.emitted (alignedRun.take 2) (alignedRun[2]) =
        [.snapshotCallback { exchangeId := .kBinance, lastUpdateId := 6 },
          .diffCallback { exchangeId := .kBinance, firstId := 7, lastId := 8, prevId := 6 }] ∧
      ∃ diff, alignedRun[2] = .bookDiffSnapshot diff ∧
        diff.firstId.toNat ≤ 6 + 1 ∧ 6 + 1 ≤ diff.lastId.toNat := by
  refine ⟨by decide, by decide, ?_⟩
  obtain ⟨diff, hevent, -, -, -, hfirst, hlast⟩ :=
    snapshotCallback_aligned .spot alignedRun (by decide) (alignedRun.take 2) _
      (alignedRun.drop 3) rfl { exchangeId := .kBinance, lastUpdateId := 6 } (by decide)
  exact ⟨diff, hevent, hfirst, hlast⟩

/-! ## Gaps in the forwarded diffs -/

/-- A diff forwarded in a step without a snapshot continues the diff its pair
forwarded before. -/
def NoGap (events : List Event) : Prop :=
  EveryStep (fun before event => ∀ diff,
    .diffCallback diff ∈ (generator policy).machine.emitted before event →
    (∀ snapshot, .snapshotCallback snapshot ∉ (generator policy).machine.emitted before event) →
    ∃ previous,
      lastForwarded ((generator policy).history before event.tradingPair) = some previous ∧
        policy.Continues previous diff) events

/-- A loss the `[OUTDATED DIFF]` return swallows: the pair is synchronised, the
policy flags the diff, and the diff is not above the stored snapshot.  A diff
that repeats the last processed id moves nothing. -/
def UnarmedLoss (state : BidAskState) : Event → Prop
  | .responseNewSnapshot _ => False
  | .bookDiffSnapshot diff =>
      state.needMakeSnapshot = false ∧ state.needProcessCurrentSnapshot = false ∧
        policy.checkPacketLoss diff state = true ∧
        diff.lastId ≤ state.snapshot.lastUpdateId ∧
        diff.lastId ≠ state.lastIdDiffBookEvent

instance (state : BidAskState) : DecidablePred (UnarmedLoss policy state)
  | .responseNewSnapshot _ => inferInstanceAs (Decidable False)
  | .bookDiffSnapshot _ => inferInstanceAs (Decidable (_ ∧ _))

/-- No step of the run swallows a loss. -/
def Armed (events : List Event) : Prop :=
  (generator policy).EveryAccepted (fun state _ event => ¬ UnarmedLoss policy state event) events

instance (events : List Event) : Decidable (Armed policy events) :=
  inferInstanceAs (Decidable ((generator policy).EveryAccepted _ events))

/-- A synchronised pair forwards, and the id it checks against is that of the
diff it forwarded last. -/
def ForwardInv (state : BidAskState) (history : List Action) : Prop :=
  state.needMakeSnapshot = false → state.needProcessCurrentSnapshot = false →
    state.needProcessCurrentDiff = true ∧
      ∃ previous, lastForwarded history = some previous ∧
        previous.lastId = state.lastIdDiffBookEvent

variable {policy}

theorem ForwardInv.step {state : BidAskState} {history : List Action} {event : Event}
    (hinv : ForwardInv state history) (harmed : ¬ UnarmedLoss policy state event) :
    ForwardInv ((generator policy).react .registered state event).1
      (history ++ ((generator policy).react .registered state event).2) := by
  cases event with
  | responseNewSnapshot snapshot =>
      rw [show ((generator policy).react .registered state (.responseNewSnapshot snapshot)).2 = []
        from rfl, List.append_nil]
      exact hinv
  | bookDiffSnapshot diff =>
      rcases hresult : (generator policy).react .registered state (.bookDiffSnapshot diff)
        with ⟨next, actions⟩
      cases diffOutcome_of_eq hresult with
      | outdated hneed hold =>
          intro hmake hpending
          rw [attempt_needMakeSnapshot] at hmake
          rw [attempt_needProcessCurrentSnapshot] at hpending
          -- the pair was synchronised before, so the diff was flagged as lost
          have hbefore : state.needMakeSnapshot = false ∧
              state.needProcessCurrentSnapshot = false := by
            cases hm : state.needMakeSnapshot <;> simp_all
          obtain ⟨hdiff, previous, hprevious, hlast⟩ := hinv hbefore.1 hbefore.2
          have hlost : policy.checkPacketLoss diff state = true := by
            simpa [hbefore.1] using hneed
          have hsame : diff.lastId = state.lastIdDiffBookEvent := by
            by_contra hne
            exact harmed ⟨hbefore.1, hbefore.2, hlost, hold, hne⟩
          exact ⟨by simpa using hdiff, previous, by simpa using hprevious,
            by simpa [hsame] using hlast⟩
      | requested hneed hnew =>
          intro hmake
          cases hmake
      | resynchronised hlost hmake hpending =>
          intro _ _
          refine ⟨rfl, diff, ?_, by simp⟩
          rw [List.append_cons]
          exact lastForwarded_concat_diff _ diff
      | continued hlost hmake hpending hdiff =>
          intro _ _
          exact ⟨by simpa using hdiff, diff, lastForwarded_concat_diff history diff, by simp⟩
      | silent hmake hpending hdiff =>
          rw [(hinv hmake hpending).1] at hdiff
          cases hdiff

theorem forwardInv_of_armed {events : List Event} (harmed : Armed policy events)
    (pair : TradingPair) :
    ForwardInv ((generator policy).stateOf events pair)
      ((generator policy).history events pair) :=
  (generator policy).pair_invariant (fun state _ event => ¬ UnarmedLoss policy state event)
    ForwardInv (by intro hmake; cases hmake) (fun _ _ _ hinv harmed => hinv.step harmed)
    harmed pair

/-- Without a swallowed loss no gap is forwarded. -/
theorem noGap_of_armed (policy : PolicyPacketLoss) (events : List Event)
    (harmed : Armed policy events) : NoGap policy events := by
  refine harmed.of_forall_before ?_
  intro before event hbefore _ diff hmem hno
  have hinv := forwardInv_of_armed hbefore event.tradingPair
  obtain ⟨hvenue, hmem⟩ := (generator policy).mem_emitted_iff.mp hmem
  rw [(generator policy).emitted_of_accepted hvenue] at hno
  cases event with
  | responseNewSnapshot message => simp [Generator.react] at hmem
  | bookDiffSnapshot received =>
      simp only [Event.tradingPair] at hinv hmem hno ⊢
      rcases hresult : (generator policy).react .registered
          ((generator policy).stateOf before received.tradingPair) (.bookDiffSnapshot received)
        with ⟨next, actions⟩
      rw [hresult] at hmem hno
      cases diffOutcome_of_eq hresult with
      | outdated hneed hold => simp at hmem
      | requested hneed hnew => simp at hmem
      | silent hmake hpending hdiff => simp at hmem
      | resynchronised hlost hmake hpending =>
          exact (hno _ (List.mem_cons_self ..)).elim
      | continued hlost hmake hpending hdiff =>
          obtain ⟨-, previous, hprevious, hlast⟩ := hinv hmake hpending
          have heq : diff = received := by simpa using hmem
          subst heq
          exact ⟨previous, hprevious, PolicyPacketLoss.continues_of_not_lost hlast hlost⟩

theorem noGap_alignedRun : Armed .spot alignedRun ∧ NoGap .spot alignedRun :=
  ⟨by decide, noGap_of_armed .spot alignedRun (by decide)⟩

/-- Two snapshot requests are in flight when the pair synchronises; the second
response is ahead of the diffs, the diffs `9..11` are lost, and `14` is
forwarded right after `8`. -/
def gapRun : List Event :=
  [.bookDiffSnapshot { exchangeId := .kBinance, firstId := 3, lastId := 4 },
    .bookDiffSnapshot { exchangeId := .kBinance, firstId := 5, lastId := 6 },
    .responseNewSnapshot { exchangeId := .kBinance, lastUpdateId := 6 },
    .bookDiffSnapshot { exchangeId := .kBinance, firstId := 7, lastId := 8 },
    .responseNewSnapshot { exchangeId := .kBinance, lastUpdateId := 20 },
    .bookDiffSnapshot { exchangeId := .kBinance, firstId := 12, lastId := 13 },
    .bookDiffSnapshot { exchangeId := .kBinance, firstId := 14, lastId := 15 }]

theorem not_noGap_gapRun : ¬ NoGap .spot gapRun := by
  intro h
  have hemitted : (generator .spot).machine.emitted (gapRun.take 6) gapRun[6] =
      [.diffCallback { exchangeId := .kBinance, firstId := 14, lastId := 15 }] := by decide
  obtain ⟨previous, hprevious, hcontinues⟩ :=
    h (gapRun.take 6) gapRun[6] [] rfl { exchangeId := .kBinance, firstId := 14, lastId := 15 }
      (by rw [hemitted]; simp) (by rw [hemitted]; simp)
  have hlast : lastForwarded ((generator .spot).history (gapRun.take 6)
      (Event.tradingPair gapRun[6])) =
      some { exchangeId := .kBinance, firstId := 7, lastId := 8 } := by decide
  rw [hlast, Option.some.injEq] at hprevious
  subst hprevious
  exact absurd hcontinues (by simp only [PolicyPacketLoss.Continues]; decide)

/-- The state a swallowed loss leaves: still synchronised, at the id of the
lost diff. -/
theorem react_of_unarmedLoss {state : BidAskState} {lost : BookDiffSnapshot2}
    (hloss : UnarmedLoss policy state (.bookDiffSnapshot lost)) :
    (generator policy).react .registered state (.bookDiffSnapshot lost) =
      (tried policy state lost, []) := by
  obtain ⟨hmake, hpending, hlost, hold, -⟩ := hloss
  rcases hresult : (generator policy).react .registered state (.bookDiffSnapshot lost)
    with ⟨next, actions⟩
  cases diffOutcome_of_eq hresult with
  | outdated hneed hold => rfl
  | requested hneed hnew => exact (hnew hold).elim
  | resynchronised hkept => rw [hkept] at hlost; cases hlost
  | continued hkept => rw [hkept] at hlost; cases hlost
  | silent hmake hpending hdiff => rfl

/-- A synchronised pair forwards a diff that is not lost, and nothing else. -/
theorem react_of_synchronised {state : BidAskState} {diff : BookDiffSnapshot2}
    (hmake : state.needMakeSnapshot = false) (hpending : state.needProcessCurrentSnapshot = false)
    (hdiff : state.needProcessCurrentDiff = true)
    (hkept : policy.checkPacketLoss diff state = false) :
    ((generator policy).react .registered state (.bookDiffSnapshot diff)).2 =
      [.diffCallback diff] := by
  rcases hresult : (generator policy).react .registered state (.bookDiffSnapshot diff)
    with ⟨next, actions⟩
  cases diffOutcome_of_eq hresult with
  | outdated hneed hold => simp [hmake, hkept] at hneed
  | requested hneed hnew => simp [hmake, hkept] at hneed
  | resynchronised hlost hmake' hsnap => simp [hmake, hpending] at hsnap
  | continued hlost hmake' hsnap hdiff' => rfl
  | silent hmake' hsnap hdiff' => rw [hdiff'] at hdiff; cases hdiff

/-- A diff of the same pair that continues `lost`. -/
def successor (lost : BookDiffSnapshot2) : BookDiffSnapshot2 where
  exchangeId := .kBinance
  tradingPair := lost.tradingPair
  firstId := lost.lastId + 1
  lastId := lost.lastId + 1
  prevId := lost.lastId

/-- The condition is tight: after a swallowed loss the next diff that continues
the lost one is forwarded across the gap. -/
theorem gap_of_unarmed (policy : PolicyPacketLoss) (events : List Event)
    (harmed : Armed policy events) (lost : BookDiffSnapshot2)
    (hvenue : lost.exchangeId = .kBinance)
    (hloss : UnarmedLoss policy ((generator policy).stateOf events lost.tradingPair)
      (.bookDiffSnapshot lost)) :
    ¬ NoGap policy
      (events ++ [.bookDiffSnapshot lost] ++ [.bookDiffSnapshot (successor lost)]) := by
  intro hnoGap
  have hinv := forwardInv_of_armed harmed lost.tradingPair
  have hreact := react_of_unarmedLoss hloss
  obtain ⟨hmake, hpending, -, -, hdistinct⟩ := hloss
  obtain ⟨hdiff, previous, hprevious, hlast⟩ := hinv hmake hpending
  have hpair : Event.tradingPair (.bookDiffSnapshot lost) = lost.tradingPair := rfl
  have hnextPair : Event.tradingPair (.bookDiffSnapshot (successor lost)) = lost.tradingPair :=
    rfl
  have hnextVenue : Event.exchangeId (.bookDiffSnapshot (successor lost)) = .kBinance := rfl
  -- the loss leaves the history alone and only moves the id
  have hstate := (generator policy).stateOf_concat_of_accepted events (.bookDiffSnapshot lost)
    hvenue
  rw [hpair, hreact] at hstate
  have hhistory := (generator policy).history_concat_of_accepted events
    (.bookDiffSnapshot lost) hvenue
  rw [hpair, hreact, List.append_nil] at hhistory
  have hemitted : (generator policy).machine.emitted (events ++ [.bookDiffSnapshot lost])
      (.bookDiffSnapshot (successor lost)) = [.diffCallback (successor lost)] := by
    rw [(generator policy).emitted_of_accepted hnextVenue, hnextPair, hstate]
    refine react_of_synchronised (by simp [hmake]) (by simp [hmake, hpending])
      (by simpa using hdiff) ?_
    cases policy <;> simp [PolicyPacketLoss.checkPacketLoss, successor]
  obtain ⟨found, hfound, hcontinues⟩ := hnoGap _ _ [] rfl (successor lost)
    (by rw [hemitted]; simp) (by rw [hemitted]; simp)
  rw [hnextPair, hhistory, hprevious, Option.some.injEq] at hfound
  subst hfound
  apply hdistinct
  rw [← hlast]
  cases policy <;> simpa [PolicyPacketLoss.Continues, successor] using hcontinues

end CryptoBot.Sync.Binance

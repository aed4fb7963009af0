/-
# Backtesting

`OHLCVI` loads a history of klines from a file and hands it out one kline at a time;
`KLineService` moves the klines from the internal queue to the external one, which the
trade engine reads.  Whether a queue takes a kline, and how many klines a bulk dequeue
returns, is not up to the service: the schedule says so.

The loop over a batch sends the first kline of the batch at every index.  Everything
else of the loop keeps the account: what has been sent, in number, and what is still
outstanding make up the history.
-/

import CryptoBot.Common.Conversions
import CryptoBot.Common.TradingPairs
import CryptoBot.Math.Machine

namespace CryptoBot.Strategy.Backtesting

open CryptoBot.Common CryptoBot.Math

structure OHLCV where
  opening : Price
  high : Price
  low : Price
  close : Price
  volume : Qty
  deriving DecidableEq, Repr

structure OHLCVExt where
  ohlcv : OHLCV
  tradingPair : TradingPair
  deriving DecidableEq, Repr

/-! ## The history -/

/-- The numbers of a line that matches the expression of the reader. -/
structure KlineTexts where
  opening : String
  high : String
  low : String
  close : String
  volume : String

namespace OHLCVI

/-- A number of the file, scaled in 32 bits and stored through an `int`. -/
def scale (precision : UInt8) (value : ℚ) : UInt64 :=
  .ofInt (doubleToInt (unsignedScale precision * value))

variable (stod : String → ℚ) (info : TradingPairInfo)

def readLine (tradingPair : TradingPair) (texts : KlineTexts) : OHLCVExt where
  ohlcv :=
    { opening := scale info.pricePrecission (stod texts.opening)
      high := scale info.pricePrecission (stod texts.high)
      low := scale info.pricePrecission (stod texts.low)
      close := scale info.pricePrecission (stod texts.close)
      volume := scale info.qtyPrecission (stod texts.volume) }
  tradingPair

/-- `OHLCVI::Init`; `fullMatch` is the match of a line against the expression. -/
def init (fullMatch : String → Option KlineTexts) (tradingPair : TradingPair)
    (lines : List String) : List OHLCVExt :=
  lines.filterMap fun line => (fullMatch line).map (readLine stod info tradingPair)

end OHLCVI

/-! ## The service -/

/-- Where the loop of the service stands. -/
inductive Phase
  | fetch
  | dequeue
  | relay (batch : List OHLCVExt) (i : ℕ)
  deriving DecidableEq, Repr

/-- The klines of the batch from the index on. -/
def Phase.rest : Phase → List OHLCVExt
  | relay batch i => batch.drop i
  | _ => []

/-- The queues and the history from the iterator on.  What was put on the external
queue is the output. -/
structure KLineService where
  pending : List OHLCVExt
  internal : List OHLCVExt := []
  needFetchMore : Bool := true
  phase : Phase := .fetch
  deriving DecidableEq, Repr

/-- What the queues answer: whether the next `try_enqueue` succeeds, and how many klines
the next `try_dequeue_bulk` returns. -/
structure Answer where
  enqueued : Bool := true
  count : ℕ := 0
  deriving DecidableEq, Repr

namespace KLineService

variable (service : KLineService) (answer : Answer)

/-- `OHLCVI::LaunchOne`. -/
def launchOne : KLineService :=
  match service.pending with
  | [] => { service with needFetchMore := false }
  | kline :: rest =>
    if answer.enqueued then
      { service with
        pending := rest
        internal := service.internal ++ [kline]
        needFetchMore := true }
    else { service with needFetchMore := true }

/-- One step of `KLineService::Run`. -/
def step : KLineService × List OHLCVExt :=
  match service.phase with
  | .fetch =>
    let service := if service.needFetchMore then service.launchOne answer else service
    ({ service with phase := .dequeue }, [])
  | .dequeue =>
    let count := min answer.count 50
    ({ service with
       internal := service.internal.drop count
       phase := .relay (service.internal.take count) 0 }, [])
  | .relay batch i =>
    if i < batch.length then
      -- `o_h_l_c_v_ext[0]`, at every index
      if answer.enqueued then ({ service with phase := .relay batch (i + 1) }, batch.head?.toList)
      else (service, [])
    else ({ service with phase := .fetch }, [])

/-- The klines that have not been sent, in the order in which they should be. -/
def outstanding : List OHLCVExt := service.phase.rest ++ (service.internal ++ service.pending)

/-- The kline at the index of the loop is the first of the batch, if one is sent. -/
def SendsOwn : Prop :=
  ∀ batch i, service.phase = .relay batch i → i < batch.length → answer.enqueued →
    batch[i]? = batch.head?

end KLineService

def relay (history : List OHLCVExt) : Machine KLineService Answer OHLCVExt where
  init := { pending := history }
  step := KLineService.step

theorem step_relay (history : List OHLCVExt) : (relay history).step = KLineService.step := rfl

/-! ## The account -/

namespace KLineService

variable {service : KLineService} {answer : Answer}

theorem launchOne_account (service : KLineService) (answer : Answer) :
    (service.launchOne answer).internal ++ (service.launchOne answer).pending =
      service.internal ++ service.pending := by
  unfold launchOne
  split
  · rfl
  · rename_i kline rest hpending
    split <;> simp [hpending]

/-- A step sends nothing and leaves the same klines outstanding, or it sends the first
kline of the batch in the place of the next. -/
theorem step_cases (service : KLineService) (answer : Answer) :
    (service.step answer).2 = [] ∧ (service.step answer).1.outstanding = service.outstanding ∧
        service.SendsOwn answer ∨
      ∃ first kline, (service.step answer).2 = [first] ∧
        service.outstanding = kline :: (service.step answer).1.outstanding ∧
        (service.SendsOwn answer ↔ kline = first) := by
  cases hphase : service.phase with
  | fetch =>
    refine .inl ⟨by simp only [step, hphase], ?_, by simp [SendsOwn, hphase]⟩
    simp only [step, hphase, outstanding, Phase.rest]
    split
    · rw [launchOne_account]
    · rfl
  | dequeue =>
    refine .inl ⟨by simp only [step, hphase], ?_, by simp [SendsOwn, hphase]⟩
    simp only [step, hphase, outstanding, Phase.rest, List.drop_zero, List.nil_append]
    rw [← List.append_assoc, List.take_append_drop]
  | relay batch i =>
    by_cases hlength : i < batch.length
    · cases henqueued : answer.enqueued with
      | false =>
        refine .inl ⟨?_, ?_, by simp [SendsOwn, hphase, henqueued]⟩ <;>
          simp [step, hphase, hlength, henqueued]
      | true =>
        obtain ⟨first, tail, hbatch⟩ := List.exists_cons_of_length_pos (by omega : 0 < batch.length)
        have hhead : batch.head? = some first := by rw [hbatch, List.head?_cons]
        refine .inr ⟨first, batch[i], ?_, ?_, ?_⟩
        · simp only [step, hphase, hlength, henqueued, if_true, hhead, Option.toList_some]
        · simp only [step, hphase, hlength, henqueued, outstanding, Phase.rest, if_true]
          rw [List.drop_eq_getElem_cons hlength, List.cons_append]
        · simp only [SendsOwn, hphase, Phase.relay.injEq, henqueued]
          constructor
          · intro hown
            have hequal := hown batch i ⟨rfl, rfl⟩ hlength trivial
            rw [List.getElem?_eq_getElem hlength, hhead] at hequal
            exact Option.some.inj hequal
          · rintro hkline _ _ ⟨rfl, rfl⟩ - -
            rw [List.getElem?_eq_getElem hlength, hhead, hkline]
    · refine .inl ⟨by simp [step, hphase, hlength], ?_, ?_⟩
      · have hrest : batch.drop i = [] := List.drop_eq_nil_of_le (by omega)
        simp [step, hphase, hlength, outstanding, Phase.rest, hrest]
      · rintro _ _ hrelay hlt
        rw [hphase, Phase.relay.injEq] at hrelay
        obtain ⟨rfl, rfl⟩ := hrelay
        exact absurd hlt hlength

end KLineService

variable (history : List OHLCVExt) (schedule : List Answer)

/-- What has been sent is what the history begins with, and all of it once nothing is
outstanding. -/
def Lossless : Prop :=
  (relay history).outputs schedule <+: history ∧
    (((relay history).run schedule).outstanding = [] → (relay history).outputs schedule = history)

/-- In number, the klines that were sent and those that are outstanding are always the
history. -/
theorem exists_sent_append_outstanding :
    ∃ sent, history = sent ++ ((relay history).run schedule).outstanding ∧
      sent.length = ((relay history).outputs schedule).length := by
  induction schedule using List.reverseRecOn with
  | nil => exact ⟨[], rfl, rfl⟩
  | append_singleton schedule answer ih =>
    obtain ⟨sent, hhistory, hlength⟩ := ih
    rw [Machine.run_concat, Machine.outputs_concat, Machine.emitted, step_relay]
    rcases ((relay history).run schedule).step_cases answer with
      ⟨hsends, hrest, -⟩ | ⟨first, kline, hsends, hrest, -⟩
    · rw [hsends, hrest, List.append_nil]
      exact ⟨sent, hhistory, hlength⟩
    · refine ⟨sent ++ [kline], ?_, ?_⟩
      · rwa [List.append_assoc, List.singleton_append, ← hrest]
      · rw [hsends, List.length_append, List.length_append, hlength, List.length_singleton,
          List.length_singleton]

theorem lossless_iff_append :
    Lossless history schedule ↔ history =
      (relay history).outputs schedule ++ ((relay history).run schedule).outstanding := by
  constructor
  · rintro ⟨⟨rest, hrest⟩, -⟩
    obtain ⟨sent, hhistory, hlength⟩ := exists_sent_append_outstanding history schedule
    have hsent := (List.append_inj (hrest.trans hhistory) hlength.symm).1
    rwa [hsent]
  · intro hhistory
    refine ⟨⟨_, hhistory.symm⟩, fun hdone => ?_⟩
    rw [hdone, List.append_nil] at hhistory
    exact hhistory.symm

/-- A step keeps the relay lossless when it sends the kline at its own index. -/
theorem lossless_concat_iff (answer : Answer) (h : Lossless history schedule) :
    Lossless history (schedule ++ [answer]) ↔
      ((relay history).run schedule).SendsOwn answer := by
  rw [lossless_iff_append] at h ⊢
  rw [Machine.run_concat, Machine.outputs_concat, Machine.emitted, step_relay]
  rcases ((relay history).run schedule).step_cases answer with
    ⟨hsends, hrest, hown⟩ | ⟨first, kline, hsends, hrest, hown⟩
  · refine iff_of_true ?_ hown
    rwa [hsends, hrest, List.append_nil]
  · rw [hrest] at h
    rw [hown, hsends, List.append_assoc, List.singleton_append]
    refine ⟨fun hhistory => ?_, fun hkline => ?_⟩
    · have hequal := List.append_cancel_left (h.symm.trans hhistory)
      exact (List.cons.inj hequal).1
    · rwa [← hkline]

/-- The relay is lossless at every moment exactly when every kline that is sent equals
the first of its batch. -/
theorem relay_lossless_iff :
    (∀ before, before <+: schedule → Lossless history before) ↔
      EveryStep (fun before answer => ((relay history).run before).SendsOwn answer) schedule := by
  apply EveryStep.forall_prefix_iff
  · rw [lossless_iff_append]
    rfl
  · intro before answer hbefore
    exact lossless_concat_iff history before answer hbefore

/-- A kline at one price. -/
def flatKline (price : Price) : OHLCVExt := ⟨⟨price, price, price, price, 1⟩, ⟨2, 1⟩⟩

/-- Both klines are in the internal queue when the first batch is taken. -/
def twoKlines : List Answer := [{}, {}, {}, {}, { count := 2 }, {}, {}]

theorem not_lossless_twoKlines : ¬ Lossless [flatKline 100, flatKline 101] twoKlines := by
  rintro ⟨hsent, -⟩
  have houtputs : (relay [flatKline 100, flatKline 101]).outputs twoKlines =
      [flatKline 100, flatKline 100] := by decide
  rw [houtputs] at hsent
  exact absurd hsent (by decide)

end CryptoBot.Strategy.Backtesting

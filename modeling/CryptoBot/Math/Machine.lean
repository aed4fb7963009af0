/-
# Deterministic event machines

A component of an event-driven program handles one event at a time: from its
current state and the event it computes the next state and emits some outputs.
This module gives that shape once, with the run and the trace of a finite event
list, and the two induction rules every safety proof over such a component
needs.

The invariant rule may read the whole trace, not only the current state.  A law
about what a component has *emitted* relates a step to earlier steps, and the
state usually remembers too little of them; the trace is the ghost variable that
carries the rest.

The simulation rule compares two machines over the same events.  It returns the
equality of the traces, so that a fact about the outputs of the abstract machine
is a fact about the outputs of the concrete one.
-/

import Mathlib.Data.List.Basic
import Mathlib.Data.List.Induction

namespace CryptoBot.Math

universe us ut ue uo

/-- `P` holds at every position of the list: of the events handled so far and
the event handled next. -/
def EveryStep {ε : Type ue} (P : List ε → ε → Prop) (events : List ε) : Prop :=
  ∀ before event after, events = before ++ event :: after → P before event

namespace EveryStep

variable {ε : Type ue} {P Q : List ε → ε → Prop}

@[simp]
theorem nil : EveryStep P [] := by
  intro before event after h
  simp at h

/-- The last event adds one obligation, at the events before it. -/
theorem concat_iff {events : List ε} {last : ε} :
    EveryStep P (events ++ [last]) ↔ EveryStep P events ∧ P events last := by
  constructor
  · intro h
    refine ⟨fun before event after heq => ?_, h events last [] rfl⟩
    exact h before event (after ++ [last]) (by simp [heq])
  · rintro ⟨hinit, hlast⟩ before event after heq
    rcases List.eq_nil_or_concat after with rfl | ⟨rest, final, rfl⟩
    · obtain ⟨rfl, hsingle⟩ := List.append_inj' heq rfl
      cases hsingle
      exact hlast
    · have hsplit : events ++ [last] = (before ++ event :: rest) ++ [final] := by
        simpa using heq
      exact hinit before event rest (List.append_inj' hsplit rfl).1

/-- The first part of a list. -/
theorem left {first second : List ε} (h : EveryStep P (first ++ second)) : EveryStep P first := by
  intro before event after heq
  exact h before event (after ++ second) (by simp [heq])

/-- The kept part of a list, when what is required of a kept event reads only the kept
events before it. -/
theorem filter {events : List ε} {keep : ε → Bool}
    (h : EveryStep (fun before event => keep event → P (before.filter keep) event) events) :
    EveryStep P (events.filter keep) := by
  induction events using List.reverseRecOn with
  | nil => exact nil
  | append_singleton events event ih =>
      obtain ⟨hbefore, hevent⟩ := concat_iff.mp h
      rw [List.filter_append]
      cases hkeep : keep event with
      | true =>
          rw [List.filter_cons_of_pos hkeep, List.filter_nil]
          exact concat_iff.mpr ⟨ih hbefore, hevent hkeep⟩
      | false =>
          rw [List.filter_cons_of_neg (by simp [hkeep]), List.filter_nil, List.append_nil]
          exact ih hbefore

/-- A property that a step has whenever the whole run up to it has `Q`. -/
theorem of_forall_before {events : List ε} (hQ : EveryStep Q events)
    (h : ∀ before event, EveryStep Q before → Q before event → P before event) :
    EveryStep P events := by
  intro before event after heq
  refine h before event (fun first middle last hfirst => ?_) (hQ before event after heq)
  exact hQ first middle (last ++ event :: after) (by simp [heq, hfirst])

/-- A property of lists that one more event keeps exactly when it satisfies `P` holds of
every prefix exactly when every event satisfies `P`. -/
theorem forall_prefix_iff {events : List ε} {R : List ε → Prop} (hnil : R [])
    (hconcat : ∀ before event, R before → (R (before ++ [event]) ↔ P before event)) :
    (∀ before, before <+: events → R before) ↔ EveryStep P events := by
  induction events using List.reverseRecOn with
  | nil =>
      refine iff_of_true (fun before hbefore => ?_) nil
      rw [List.prefix_nil.mp hbefore]
      exact hnil
  | append_singleton events event ih =>
      rw [concat_iff, ← ih]
      constructor
      · intro h
        have hevents := h events (List.prefix_append events [event])
        refine ⟨fun before hbefore => h before (hbefore.trans (List.prefix_append _ _)), ?_⟩
        exact (hconcat events event hevents).mp (h _ List.prefix_rfl)
      · rintro ⟨h, hevent⟩ before hbefore
        rcases List.prefix_concat_iff.mp hbefore with rfl | hbefore
        · exact (hconcat events event (h _ List.prefix_rfl)).mpr hevent
        · exact h before hbefore

/-- Indexing the positions of the list. -/
theorem iff_forall_fin {events : List ε} :
    EveryStep P events ↔ ∀ i : Fin events.length, P (events.take i) (events.get i) := by
  constructor
  · intro h i
    exact h _ _ (events.drop (i + 1)) (by simp)
  · rintro h before event after rfl
    simpa using h ⟨before.length, by simp⟩

instance [∀ before event, Decidable (P before event)] (events : List ε) :
    Decidable (EveryStep P events) :=
  decidable_of_iff _ iff_forall_fin.symm

/-- A condition on single events, required of every event of the list. -/
theorem of_forall_mem {events : List ε} {C : ε → Prop} (h : ∀ event ∈ events, C event) :
    EveryStep (fun _ event => C event) events := by
  rintro before event after rfl
  exact h event (by simp)

end EveryStep

/-- An initial state and, for each state and event, the next state together
with the outputs emitted while the event is handled. -/
structure Machine (σ : Type us) (ε : Type ue) (ω : Type uo) where
  init : σ
  step : σ → ε → σ × List ω

namespace Machine

variable {σ : Type us} {τ : Type ut} {ε : Type ue} {ω : Type uo}
variable (M : Machine σ ε ω) (N : Machine τ ε ω)

/-- The state reached from `state` by handling the events in order. -/
def runFrom (state : σ) (events : List ε) : σ :=
  events.foldl (fun current event => (M.step current event).1) state

/-- Each event of the run from `state` with the outputs its step emitted. -/
def traceFrom : σ → List ε → List (ε × List ω)
  | _, [] => []
  | state, event :: rest =>
      (event, (M.step state event).2) :: traceFrom (M.step state event).1 rest

/-- The state after handling `events` from the initial state. -/
def run (events : List ε) : σ := M.runFrom M.init events

/-- The trace of `events` from the initial state. -/
def trace (events : List ε) : List (ε × List ω) := M.traceFrom M.init events

/-- The outputs of the step that handles `event` after `before`. -/
def emitted (before : List ε) (event : ε) : List ω :=
  (M.step (M.run before) event).2

theorem runFrom_append (state : σ) (first second : List ε) :
    M.runFrom state (first ++ second) = M.runFrom (M.runFrom state first) second := by
  simp [runFrom]

theorem traceFrom_append (state : σ) (first second : List ε) :
    M.traceFrom state (first ++ second) =
      M.traceFrom state first ++ M.traceFrom (M.runFrom state first) second := by
  induction first generalizing state with
  | nil => rfl
  | cons event rest ih => simp only [List.cons_append, traceFrom, ih, runFrom, List.foldl_cons]

theorem run_concat (events : List ε) (event : ε) :
    M.run (events ++ [event]) = (M.step (M.run events) event).1 :=
  M.runFrom_append M.init events [event]

theorem trace_concat (events : List ε) (event : ε) :
    M.trace (events ++ [event]) =
      M.trace events ++ [(event, M.emitted events event)] :=
  M.traceFrom_append M.init events [event]

/-- The outputs of the run from `state`, in the order they were emitted. -/
def outputsFrom (state : σ) (events : List ε) : List ω :=
  (M.traceFrom state events).flatMap Prod.snd

/-- The outputs of a whole run. -/
def outputs (events : List ε) : List ω := M.outputsFrom M.init events

theorem outputsFrom_cons (state : σ) (event : ε) (rest : List ε) :
    M.outputsFrom state (event :: rest) =
      (M.step state event).2 ++ M.outputsFrom (M.step state event).1 rest := rfl

theorem outputs_append (first second : List ε) :
    M.outputs (first ++ second) = M.outputs first ++ M.outputsFrom (M.run first) second := by
  simp [outputs, outputsFrom, traceFrom_append, run]

theorem outputs_concat (events : List ε) (event : ε) :
    M.outputs (events ++ [event]) = M.outputs events ++ M.emitted events event := by
  rw [outputs_append, outputsFrom_cons]
  simp [outputsFrom, traceFrom, emitted]

/-- The invariant rule.  `Inv` may read the trace so far, and a step keeps it
under the side condition `C` on the state and the trace before the step. -/
theorem invariant_of_everyStep (C : σ → List (ε × List ω) → ε → Prop)
    (Inv : σ → List (ε × List ω) → Prop) (hinit : Inv M.init [])
    (hstep : ∀ state trace event, Inv state trace → C state trace event →
      Inv (M.step state event).1 (trace ++ [(event, (M.step state event).2)]))
    {events : List ε}
    (hC : EveryStep (fun before event => C (M.run before) (M.trace before) event) events) :
    Inv (M.run events) (M.trace events) := by
  induction events using List.reverseRecOn with
  | nil => exact hinit
  | append_singleton events event ih =>
      obtain ⟨hinitial, hlast⟩ := EveryStep.concat_iff.mp hC
      rw [run_concat, trace_concat]
      exact hstep _ _ _ (ih hinitial) hlast

/-- The invariant rule for outputs: a step from a state that satisfies `Inv`
emits only outputs that satisfy `P`. -/
theorem outputs_of_everyStep (C : σ → ε → Prop) (Inv : σ → Prop) (P : ω → Prop)
    (hinit : Inv M.init)
    (hstep : ∀ state event, Inv state → C state event →
      Inv (M.step state event).1 ∧ ∀ output ∈ (M.step state event).2, P output)
    {events : List ε} (hC : EveryStep (fun before event => C (M.run before) event) events) :
    Inv (M.run events) ∧ ∀ output ∈ M.outputs events, P output := by
  induction events using List.reverseRecOn with
  | nil => exact ⟨hinit, by simp [outputs, outputsFrom, traceFrom]⟩
  | append_singleton events event ih =>
      obtain ⟨hinitial, hlast⟩ := EveryStep.concat_iff.mp hC
      obtain ⟨hbefore, hearlier⟩ := ih hinitial
      obtain ⟨hafter, hemitted⟩ := hstep _ event hbefore hlast
      rw [run_concat, outputs_concat]
      refine ⟨hafter, fun output hmem => ?_⟩
      rcases List.mem_append.mp hmem with hold | hnew
      · exact hearlier output hold
      · exact hemitted output hnew

/-- The simulation rule.  Related states step to related states and emit the
same outputs on every event that satisfies `C`. -/
theorem simulation (C : ε → Prop) (R : σ → τ → Prop) (hinit : R M.init N.init)
    (hstep : ∀ concrete abstract event, R concrete abstract → C event →
      R (M.step concrete event).1 (N.step abstract event).1 ∧
        (M.step concrete event).2 = (N.step abstract event).2)
    {events : List ε} (hC : ∀ event ∈ events, C event) :
    R (M.run events) (N.run events) ∧ M.trace events = N.trace events := by
  induction events using List.reverseRecOn with
  | nil => exact ⟨hinit, rfl⟩
  | append_singleton events event ih =>
      obtain ⟨hstate, htrace⟩ := ih fun earlier hmem => hC earlier (by simp [hmem])
      obtain ⟨hnext, hout⟩ := hstep _ _ event hstate (hC event (by simp))
      refine ⟨by rwa [run_concat, run_concat], ?_⟩
      rw [trace_concat, trace_concat, htrace, emitted, emitted, hout]

end Machine

end CryptoBot.Math

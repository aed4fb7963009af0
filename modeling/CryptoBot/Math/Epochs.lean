/-
# Runs with resets

Some events of a machine are resets.  The epoch of a run is what happened since
the last reset, with the outputs: a law about what a component has done since it
was restarted reads the epoch and not the whole trace.
-/

import Mathlib.Data.List.DropRight
import CryptoBot.Math.Machine

namespace CryptoBot.Math.Machine

universe us ue uo

variable {σ : Type us} {ε : Type ue} {ω : Type uo}
variable (M : Machine σ ε ω) (resets : ε → Bool)

/-- The trace since the last reset, the reset excluded. -/
def epoch (events : List ε) : List (ε × List ω) :=
  (M.trace events).rtakeWhile fun step => !resets step.1

theorem epoch_concat_of_reset {event : ε} (h : resets event = true) (events : List ε) :
    M.epoch resets (events ++ [event]) = [] := by
  rw [epoch, trace_concat]
  exact List.rtakeWhile_concat_neg _ _ _ (by simp [h])

theorem epoch_concat {event : ε} (h : resets event = false) (events : List ε) :
    M.epoch resets (events ++ [event]) =
      M.epoch resets events ++ [(event, M.emitted events event)] := by
  rw [epoch, trace_concat]
  exact List.rtakeWhile_concat_pos _ _ _ (by simp [h])

/-- The invariant rule for epochs.  A reset starts the invariant anew, with
nothing done. -/
theorem epoch_invariant (C : ε → Prop) (Inv : σ → List (ε × List ω) → Prop) (hinit : Inv M.init [])
    (hreset : ∀ state trace event, Inv state trace → resets event = true →
      Inv (M.step state event).1 [])
    (hstep : ∀ state trace event, Inv state trace → C event → resets event = false →
      Inv (M.step state event).1 (trace ++ [(event, (M.step state event).2)]))
    {events : List ε} (hC : ∀ event ∈ events, C event) :
    Inv (M.run events) (M.epoch resets events) := by
  induction events using List.reverseRecOn with
  | nil => exact hinit
  | append_singleton events event ih =>
      have hbefore := ih fun earlier hmem => hC earlier (by simp [hmem])
      rw [run_concat]
      cases hevent : resets event with
      | true =>
          rw [epoch_concat_of_reset M resets hevent]
          exact hreset _ _ event hbefore hevent
      | false =>
          rw [epoch_concat M resets hevent]
          exact hstep _ _ event hbefore (hC event (by simp)) hevent

end CryptoBot.Math.Machine

/-
# Queues that are emptied in batches

A thread puts elements on a queue, and another takes as many as it gets, up to the size
of an array, and handles them one by one before it comes back.  What is pending is what
is left of the batch and then the queue.  The rule below is for a machine whose steps
take from the front of what is pending and give at its end.
-/

import CryptoBot.Math.Machine

namespace CryptoBot.Math

universe ua us ue uo

variable {α : Type ua} {σ : Type us} {ε : Type ue} {ω : Type uo}

/-- `try_dequeue_bulk` into an array of 50 elements: it may return fewer elements than
are there. -/
def tryDequeueBulk (queue : List α) (count : ℕ) : List α × List α := queue.splitAt (min count 50)

@[simp]
theorem append_tryDequeueBulk (queue : List α) (count : ℕ) :
    (tryDequeueBulk queue count).1 ++ (tryDequeueBulk queue count).2 = queue := by
  simp [tryDequeueBulk, List.splitAt_eq]

namespace Machine

variable (M : Machine σ ε ω)

/-- The queue rule.  Where each step takes from the front of what is pending and gives at
its end, what a run has taken and what is pending are what the run has given, in order. -/
theorem taken_append_pending (taken given : ω → Option α) (pending : σ → List α)
    (hinit : pending M.init = [])
    (hstep : ∀ state event, (M.step state event).2.filterMap taken ++
        pending (M.step state event).1 =
      pending state ++ (M.step state event).2.filterMap given)
    (events : List ε) :
    (M.outputs events).filterMap taken ++ pending (M.run events) =
      (M.outputs events).filterMap given := by
  induction events using List.reverseRecOn with
  | nil => exact hinit
  | append_singleton events event ih =>
      rw [run_concat, outputs_concat, List.filterMap_append, List.filterMap_append,
        List.append_assoc]
      calc (M.outputs events).filterMap taken ++ ((M.emitted events event).filterMap taken ++
            pending (M.step (M.run events) event).1)
        _ = (M.outputs events).filterMap taken ++ (pending (M.run events) ++
              (M.emitted events event).filterMap given) := by
            rw [emitted, hstep]
        _ = _ := by rw [← List.append_assoc, ih]

end Machine

end CryptoBot.Math

/-
# A copy refreshed through a queue

A source publishes its value each time it writes it, the published values wait in
a queue, and a copy takes them from the queue one at a time.  Producer and
consumer interleave freely, so the copy lags behind.

It lags in a simple way: at every time the copy is the source at some earlier
time, these times never go back, and once the queue is empty the copy is the
source as it is now.
-/

import Mathlib.Data.List.Chain
import Mathlib.Order.Monotone.Basic

namespace CryptoBot.Math

universe ub

variable {β : Type ub}

structure Mirror (β : Type ub) where
  source : β
  queue : List β
  copy : β

namespace Mirror

/-- The source is written and published, or the copy takes the oldest value, or
nothing happens. -/
inductive Step : Mirror β → Mirror β → Prop
  | publish (mirror : Mirror β) (value : β) :
      Step mirror ⟨value, mirror.queue ++ [value], mirror.copy⟩
  | consume (source copy value : β) (rest : List β) :
      Step ⟨source, value :: rest, copy⟩ ⟨source, rest, value⟩
  | idle (mirror : Mirror β) : Step mirror mirror

/-- The times that explain a state: the copy is the source at `point`, and the
values in the queue are the source at `times`. -/
structure Explains (run : Nat → Mirror β) (now point : Nat) (times : List Nat) : Prop where
  ordered : (point :: times).Pairwise (· ≤ ·)
  past : ∀ time ∈ point :: times, time ≤ now
  copy : (run now).copy = (run point).source
  queue : (run now).queue = times.map fun time => (run time).source
  source : (run now).source = (run (times.getLastD point)).source

variable {run : Nat → Mirror β} {now point : Nat} {times : List Nat}

theorem Explains.drained (h : Explains run now point times) (hempty : (run now).queue = []) :
    (run now).copy = (run now).source := by
  have hnone : times = [] := by
    rw [h.queue] at hempty
    simpa using hempty
  rw [h.copy, h.source, hnone]
  rfl

theorem Step.inv {mirror next : Mirror β} (h : Step mirror next) :
    (∃ value, next = ⟨value, mirror.queue ++ [value], mirror.copy⟩) ∨
      (∃ value rest, mirror.queue = value :: rest ∧ next = ⟨mirror.source, rest, value⟩) ∨
      next = mirror := by
  cases h with
  | publish _ value => exact .inl ⟨value, rfl⟩
  | consume source copy value rest => exact .inr (.inl ⟨value, rest, rfl, rfl⟩)
  | idle _ => exact .inr (.inr rfl)

/-- A published value is explained by the time of its publication. -/
theorem Explains.publish (h : Explains run now point times) {value : β}
    (hnext : run (now + 1) = ⟨value, (run now).queue ++ [value], (run now).copy⟩) :
    Explains run (now + 1) point (times ++ [now + 1]) where
  ordered := by
    rw [← List.cons_append, List.pairwise_append]
    refine ⟨h.ordered, List.pairwise_singleton _ _, ?_⟩
    intro time hmem last hlast
    rw [List.mem_singleton.mp hlast]
    exact (h.past time hmem).trans (Nat.le_succ now)
  past := by
    intro time hmem
    rw [← List.cons_append, List.mem_append] at hmem
    rcases hmem with hmem | hmem
    · exact (h.past time hmem).trans (Nat.le_succ now)
    · exact (List.mem_singleton.mp hmem).le
  copy := by rw [hnext, ← h.copy]
  queue := by
    have hvalue : (run (now + 1)).source = value := by rw [hnext]
    rw [List.map_append, List.map_singleton, hvalue, ← h.queue, hnext]
  source := by rw [List.getLastD_concat]

/-- The copy moves on to the time of the value it takes. -/
theorem Explains.consume (h : Explains run now point times) {value : β} {rest : List β}
    (hqueue : (run now).queue = value :: rest)
    (hnext : run (now + 1) = ⟨(run now).source, rest, value⟩) :
    ∃ nextPoint nextTimes, Explains run (now + 1) nextPoint nextTimes ∧ point ≤ nextPoint := by
  cases times with
  | nil =>
      rw [h.queue] at hqueue
      cases hqueue
  | cons first later =>
      have hvalues := h.queue
      rw [hqueue, List.map_cons, List.cons.injEq] at hvalues
      obtain ⟨hhead, htail⟩ := List.pairwise_cons.mp h.ordered
      refine ⟨first, later, ?_, hhead first List.mem_cons_self⟩
      exact
        { ordered := htail
          past := by
            intro time hmem
            exact (h.past time (List.mem_cons_of_mem _ hmem)).trans (Nat.le_succ now)
          copy := by rw [hnext, ← hvalues.1]
          queue := by rw [hnext, ← hvalues.2]
          source := by
            have hsource := h.source
            rw [List.getLastD_cons] at hsource
            rw [← hsource, hnext] }

theorem Explains.idle (h : Explains run now point times) (hnext : run (now + 1) = run now) :
    Explains run (now + 1) point times where
  ordered := h.ordered
  past := fun time hmem => (h.past time hmem).trans (Nat.le_succ now)
  copy := by rw [hnext, h.copy]
  queue := by rw [hnext, h.queue]
  source := by rw [hnext, h.source]

theorem Explains.next (h : Explains run now point times)
    (hstep : Step (run now) (run (now + 1))) :
    ∃ nextPoint nextTimes, Explains run (now + 1) nextPoint nextTimes ∧ point ≤ nextPoint := by
  rcases hstep.inv with ⟨value, hnext⟩ | ⟨value, rest, hqueue, hnext⟩ | hnext
  · exact ⟨point, _, h.publish hnext, le_rfl⟩
  · exact h.consume hqueue hnext
  · exact ⟨point, times, h.idle hnext, le_rfl⟩

/-- The copy follows the source. -/
theorem exists_points (hsource : (run 0).copy = (run 0).source) (hqueue : (run 0).queue = [])
    (hstep : ∀ now, Step (run now) (run (now + 1))) :
    ∃ point : Nat → Nat, Monotone point ∧ ∀ now, point now ≤ now ∧
      (run now).copy = (run (point now)).source ∧
      ((run now).queue = [] → (run now).copy = (run now).source) := by
  have hstart : Explains run 0 0 [] :=
    { ordered := List.pairwise_singleton _ _
      past := by simp
      copy := hsource
      queue := by simpa using hqueue
      source := rfl }
  -- The explanations of all times, each chosen to continue the one before.
  have hnext (now : Nat) (explained : { ghost : Nat × List Nat //
      Explains run now ghost.1 ghost.2 }) : ∃ following : { ghost : Nat × List Nat //
        Explains run (now + 1) ghost.1 ghost.2 }, explained.1.1 ≤ following.1.1 := by
    obtain ⟨nextPoint, nextTimes, hexplains, hle⟩ := explained.2.next (hstep now)
    exact ⟨⟨(nextPoint, nextTimes), hexplains⟩, hle⟩
  choose following hle using hnext
  let explained (now : Nat) : { ghost : Nat × List Nat // Explains run now ghost.1 ghost.2 } :=
    Nat.rec ⟨(0, []), hstart⟩ following now
  refine ⟨fun now => (explained now).1.1, ?_, ?_⟩
  · exact monotone_nat_of_le_succ fun now => hle now (explained now)
  · intro now
    have hexplains := (explained now).2
    exact ⟨hexplains.past _ List.mem_cons_self, hexplains.copy, hexplains.drained⟩

end Mirror

end CryptoBot.Math

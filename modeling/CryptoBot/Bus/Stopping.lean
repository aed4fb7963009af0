/-
# Stopping the bus

`CoBus` keeps for every publisher the components that subscribed to it, with repetitions.
`StopSubscribersForPublisher` and `StopAllSubscribers` call `AsyncStop` of the subscribers
and leave out those already processed in the same call.  The `AsyncStop` of a generator
emits its cancellation signal, whose handler runs at once and stops the subscribers of
the generator, with a set of processed subscribers of its own.

So stopping is a traversal with a local filter.  A generator in a cycle never comes to an
end, and a component that two callers stop is stopped twice.
-/

import Mathlib.Data.List.ReduceOption
import CryptoBot.Math.Traversal
import CryptoBot.Math.UnorderedMap

namespace CryptoBot.Bus

open CryptoBot.Math CryptoBot.Math.Traversal

universe u

/-- The bus and the components on it; `none` is the null pointer. -/
structure CoBus (κ : Type u) where
  subscribers : UnorderedMap (Option κ) (List (Option κ))
  /-- The components whose `AsyncStop` runs `HandleCancellation`. -/
  generator : κ → Bool

namespace CoBus

variable {κ : Type u} [DecidableEq κ]

/-- The loop over subscribers, with the components whose `AsyncStop` is called, in the
order of the calls. -/
def stopEach (asyncStop : κ → Option (List κ)) (processedSubscribers : List κ) :
    List (Option κ) → Option (List κ)
  | [] => some []
  -- "Subscriber is nullptr, skipping."
  | none :: rest => stopEach asyncStop processedSubscribers rest
  | some subscriber :: rest =>
      if subscriber ∈ processedSubscribers then stopEach asyncStop processedSubscribers rest
      else do
        let stopped ← asyncStop subscriber
        let later ← stopEach asyncStop (subscriber :: processedSubscribers) rest
        return stopped ++ later

variable (bus : CoBus κ)

/-- The subscribers of a publisher; a publisher that is not in the map has none. -/
def subscribersOf (publisher : Option κ) : List (Option κ) :=
  (bus.subscribers.find publisher).getD []

def subscribe (placement : Placement (Option κ × List (Option κ)))
    (publisher subscriber : Option κ) : CoBus κ :=
  { bus with
    subscribers :=
      bus.subscribers.set placement publisher (bus.subscribersOf publisher ++ [subscriber]) }

/-- `StopSubscribersForPublisher`, for components that stop in the given way. -/
def stopSubscribersWith (asyncStop : κ → Option (List κ)) : Option κ → Option (List κ)
  -- "Publisher is nullptr, skipping."
  | none => some []
  | some publisher => stopEach asyncStop [] (bus.subscribersOf (some publisher))

/-- `AsyncStop` with at most `fuel` calls of `AsyncStop` inside each other. -/
def asyncStop : ℕ → κ → Option (List κ)
  | 0, _ => none
  | fuel + 1, component =>
      if bus.generator component then
        (bus.stopSubscribersWith (asyncStop fuel) (some component)).map (component :: ·)
      else some [component]

def stopSubscribersForPublisher (publisher : Option κ) (fuel : ℕ) : Option (List κ) :=
  bus.stopSubscribersWith (bus.asyncStop fuel) publisher

/-- The loops over the publishers and their subscribers share one set. -/
def stopAllSubscribers (fuel : ℕ) : Option (List κ) :=
  stopEach (bus.asyncStop fuel) [] (bus.subscribers.entries.flatMap Prod.snd)

/-! ### Stopping as a traversal -/

/-- The components that the subscribers of a publisher are. -/
def targets : Option κ → List κ
  | none => []
  | some publisher => (bus.subscribersOf (some publisher)).reduceOption

/-- The components that the `AsyncStop` of a component stops. -/
def stoppedBy (component : κ) : List κ :=
  if bus.generator component then bus.targets (some component) else []

/-- All the subscribers on the bus. -/
def allTargets : List κ := (bus.subscribers.entries.flatMap Prod.snd).reduceOption

theorem stopEach_eq_visitEach (asyncStop : κ → Option (List κ)) (processed : List κ)
    (subscribers : List (Option κ)) :
    stopEach asyncStop processed subscribers =
      visitEach asyncStop processed subscribers.reduceOption := by
  induction subscribers generalizing processed with
  | nil => rfl
  | cons subscriber rest ih =>
      cases subscriber with
      | none => rw [stopEach, ih, List.reduceOption_cons_of_none]
      | some subscriber =>
          rw [stopEach, List.reduceOption_cons_of_some, visitEach, ih, ih]

theorem stopSubscribersWith_eq_visitEach (asyncStop : κ → Option (List κ))
    (publisher : Option κ) :
    bus.stopSubscribersWith asyncStop publisher =
      visitEach asyncStop [] (bus.targets publisher) := by
  cases publisher with
  | none => rfl
  | some publisher => exact stopEach_eq_visitEach asyncStop [] _

theorem asyncStop_eq_visit (fuel : ℕ) : bus.asyncStop fuel = visit bus.stoppedBy fuel := by
  induction fuel with
  | zero => rfl
  | succ fuel ih =>
      funext component
      rw [asyncStop, visit, stoppedBy, ih, stopSubscribersWith_eq_visitEach]
      split
      · rfl
      · rfl

theorem stopSubscribersForPublisher_eq_run (publisher : Option κ) :
    bus.stopSubscribersForPublisher publisher = run bus.stoppedBy (bus.targets publisher) := by
  funext fuel
  rw [stopSubscribersForPublisher, stopSubscribersWith_eq_visitEach, asyncStop_eq_visit, run]

theorem stopAllSubscribers_eq_run :
    bus.stopAllSubscribers = run bus.stoppedBy bus.allTargets := by
  funext fuel
  rw [stopAllSubscribers, stopEach_eq_visitEach, asyncStop_eq_visit, run, allTargets]

/-! ### The reached components -/

variable {bus} {component caller : κ}

theorem mem_allTargets_of_mem_targets {publisher : Option κ}
    (h : component ∈ bus.targets publisher) : component ∈ bus.allTargets := by
  cases publisher with
  | none => cases h
  | some publisher =>
      rw [targets, List.reduceOption_mem_iff, subscribersOf] at h
      cases hfind : bus.subscribers.find (some publisher) with
      | none => simp [hfind] at h
      | some subscribers =>
          rw [hfind, Option.getD_some] at h
          rw [allTargets, List.reduceOption_mem_iff, List.mem_flatMap]
          exact ⟨(some publisher, subscribers), bus.subscribers.mem_entries_iff.mpr hfind, h⟩

theorem mem_stoppedBy_iff : component ∈ bus.stoppedBy caller ↔
    bus.generator caller ∧ component ∈ bus.targets (some caller) := by
  rw [stoppedBy]
  split
  · simp [*]
  · simp [*]

/-- Whatever is stopped is a subscriber. -/
theorem mem_allTargets_of_reached {roots : List κ} (hroots : roots ⊆ bus.allTargets)
    (h : Reached bus.stoppedBy roots component) : component ∈ bus.allTargets := by
  cases h with
  | root hmem => exact hroots hmem
  | step _ hmem => exact mem_allTargets_of_mem_targets (mem_stoppedBy_iff.mp hmem).2

theorem finite_reached {roots : List κ} (hroots : roots ⊆ bus.allTargets) :
    {component | Reached bus.stoppedBy roots component}.Finite :=
  bus.allTargets.finite_toSet.subset fun _ => mem_allTargets_of_reached hroots

/-- Every subscriber is a root of `StopAllSubscribers`, so a call from a generator is a
second one. -/
theorem uniqueCallers_allTargets_iff : UniqueCallers bus.stoppedBy bus.allTargets ↔
    ∀ caller ∈ bus.allTargets, bus.generator caller → bus.targets (some caller) = [] := by
  constructor
  · intro hunique caller hcaller hgenerator
    rw [List.eq_nil_iff_forall_not_mem]
    intro component hmem
    have hcall : Calls bus.stoppedBy bus.allTargets (some caller) component :=
      ⟨.root hcaller, mem_stoppedBy_iff.mpr ⟨hgenerator, hmem⟩⟩
    cases hunique component none (some caller) (mem_allTargets_of_mem_targets hmem) hcall
  · intro hnone
    have hcalls : ∀ component first, Calls bus.stoppedBy bus.allTargets first component →
        first = none := by
      rintro component (_ | caller) hcall
      · rfl
      · obtain ⟨hgenerator, hmem⟩ := mem_stoppedBy_iff.mp hcall.2
        have hcaller := mem_allTargets_of_reached (List.Subset.refl _) hcall.1
        rw [hnone caller hcaller hgenerator] at hmem
        cases hmem
    intro component first second hfirst hsecond
    rw [hcalls component first hfirst, hcalls component second hsecond]

/-- Stopping the subscribers of a publisher ends and stops every reached component once
precisely when no component has two callers, and stopping all of them when no generator
among the subscribers has a subscriber itself. -/
theorem stopping_visitsOnce_iff (bus : CoBus κ) :
    (∀ publisher,
      VisitsOnce bus.stoppedBy (bus.targets publisher)
          (bus.stopSubscribersForPublisher publisher) ↔
        UniqueCallers bus.stoppedBy (bus.targets publisher)) ∧
    (VisitsOnce bus.stoppedBy bus.allTargets bus.stopAllSubscribers ↔
      ∀ caller ∈ bus.allTargets, bus.generator caller → bus.targets (some caller) = []) := by
  constructor
  · intro publisher
    rw [stopSubscribersForPublisher_eq_run]
    exact visitsOnce_run_iff (finite_reached fun _ => mem_allTargets_of_mem_targets)
  · rw [stopAllSubscribers_eq_run, ← uniqueCallers_allTargets_iff]
    exact visitsOnce_run_iff (finite_reached (List.Subset.refl _))

/-! ### Two generators that subscribe to each other -/

def twoGenerators : CoBus ℕ :=
  (({ subscribers := .empty, generator := fun _ => true } : CoBus ℕ).subscribe .back
    (some 0) (some 1)).subscribe .back (some 1) (some 0)

/-- Each of the two stops the other one again. -/
theorem asyncStop_twoGenerators (fuel : ℕ) :
    twoGenerators.asyncStop fuel 0 = none ∧ twoGenerators.asyncStop fuel 1 = none := by
  induction fuel with
  | zero => exact ⟨rfl, rfl⟩
  | succ fuel ih =>
      have hgenerator : ∀ component, twoGenerators.generator component = true := fun _ => rfl
      have hzero : twoGenerators.subscribersOf (some 0) = [some 1] := rfl
      have hone : twoGenerators.subscribersOf (some 1) = [some 0] := rfl
      constructor
      · simp [asyncStop, hgenerator, stopSubscribersWith, hzero, stopEach, ih.2]
      · simp [asyncStop, hgenerator, stopSubscribersWith, hone, stopEach, ih.1]

theorem not_visitsOnce_twoGenerators :
    ¬ VisitsOnce twoGenerators.stoppedBy (twoGenerators.targets (some 0))
      (twoGenerators.stopSubscribersForPublisher (some 0)) := by
  rintro ⟨log, ⟨bound, hlog⟩, -, -⟩
  have hzero : twoGenerators.subscribersOf (some 0) = [some 1] := rfl
  have hnone : twoGenerators.stopSubscribersForPublisher (some 0) bound = none := by
    simp [stopSubscribersForPublisher, stopSubscribersWith, hzero, stopEach,
      (asyncStop_twoGenerators bound).2]
  rw [hlog bound le_rfl] at hnone
  cases hnone

end CoBus

end CryptoBot.Bus

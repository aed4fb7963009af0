/-
# Ledgers

The two sums of an accounting proof.  `entriesTotal` adds a weight over the
entries of a finite map; an insertion and an erasure change it by the weight
they write and the weight they overwrite.  `Machine.tally` adds a flow over the
steps of a run, each read in the state before its step; `Machine.carry` carries
any other value along a run.

The conservation rule joins them to a value of the state: when every step
changes the value by its flow, a whole run changes it by the tally.
-/

import Mathlib.Data.List.AList
import Mathlib.Algebra.BigOperators.Group.List.Basic
import Mathlib.Tactic.Abel
import CryptoBot.Math.Machine

namespace CryptoBot.Math

universe uk uv us ue uo ua

section Entries

variable {K : Type uk} {V : Type uv} {A : Type ua} [AddCommGroup A] (weight : V → A)

/-- The weight of all entries of a map. -/
def entriesTotal (map : AList fun _ : K => V) : A :=
  (map.entries.map fun entry => weight entry.2).sum

@[simp]
theorem entriesTotal_empty : entriesTotal weight (∅ : AList fun _ : K => V) = 0 := rfl

variable [DecidableEq K]

/-- The weight a map holds at a key. -/
def weightAt (map : AList fun _ : K => V) (key : K) : A :=
  (map.lookup key).elim 0 weight

/-- Erasing a key takes off what the map held there. -/
theorem entriesTotal_erase (map : AList fun _ : K => V) (key : K) :
    entriesTotal weight (map.erase key) = entriesTotal weight map - weightAt weight map key := by
  by_cases hmem : key ∈ map
  · obtain ⟨value, before, after, hfirst, hentries, herase⟩ := List.exists_of_kerase hmem
    have hlookup : map.lookup key = some value := by
      have hfound : Sigma.mk key value ∈ map.entries := by simp [hentries]
      exact List.mem_dlookup map.nodupKeys hfound
    have hkept : (map.erase key).entries = before ++ after := herase
    simp only [entriesTotal, weightAt, hlookup, hkept, hentries, List.map_append, List.map_cons,
      List.sum_append, List.sum_cons, Option.elim_some]
    abel
  · have hkept : (map.erase key).entries = map.entries := List.kerase_of_notMem_keys hmem
    simp [entriesTotal, weightAt, hkept, AList.lookup_eq_none.mpr hmem]

/-- Inserting overwrites what the map held at the key. -/
theorem entriesTotal_insert (map : AList fun _ : K => V) (key : K) (value : V) :
    entriesTotal weight (map.insert key value) =
      entriesTotal weight map - weightAt weight map key + weight value := by
  rw [← entriesTotal_erase]
  have hentries : (map.insert key value).entries = ⟨key, value⟩ :: (map.erase key).entries :=
    AList.entries_insert
  simp only [entriesTotal, hentries, List.map_cons, List.sum_cons]
  abel

end Entries

namespace Machine

variable {σ : Type us} {ε : Type ue} {ω : Type uo} {A : Type ua} [AddCommMonoid A]
variable (M : Machine σ ε ω)

/-- The flows of the steps from `state`, added up. -/
def tallyFrom (flow : σ → ε → A) : σ → List ε → A
  | _, [] => 0
  | state, event :: rest => flow state event + tallyFrom flow (M.step state event).1 rest

/-- The flows of a whole run, added up. -/
def tally (flow : σ → ε → A) (events : List ε) : A := M.tallyFrom flow M.init events

@[simp]
theorem tally_nil (flow : σ → ε → A) : M.tally flow [] = 0 := rfl

theorem tallyFrom_append (flow : σ → ε → A) (state : σ) (first second : List ε) :
    M.tallyFrom flow state (first ++ second) =
      M.tallyFrom flow state first + M.tallyFrom flow (M.runFrom state first) second := by
  induction first generalizing state with
  | nil => simp [tallyFrom, runFrom]
  | cons event rest ih =>
      simp only [List.cons_append, tallyFrom, ih, runFrom, List.foldl_cons, add_assoc]

theorem tally_concat (flow : σ → ε → A) (events : List ε) (event : ε) :
    M.tally flow (events ++ [event]) = M.tally flow events + flow (M.run events) event := by
  rw [tally, tallyFrom_append]
  simp [tallyFrom, tally, run]

theorem tally_sub {B : Type ua} [AddCommGroup B] (first second : σ → ε → B) (events : List ε) :
    M.tally (fun state event => first state event - second state event) events =
      M.tally first events - M.tally second events := by
  induction events using List.reverseRecOn with
  | nil => simp
  | append_singleton events event ih =>
      simp only [tally_concat, ih]
      abel

/-- A value carried along the steps from `state`, each step read in the state
before it. -/
def carryFrom {α : Type ua} (update : σ → α → ε → α) : σ → α → List ε → α
  | _, value, [] => value
  | state, value, event :: rest =>
      carryFrom update (M.step state event).1 (update state value event) rest

/-- A value carried along a run. -/
def carry {α : Type ua} (update : σ → α → ε → α) (value : α) (events : List ε) : α :=
  M.carryFrom update M.init value events

theorem carryFrom_append {α : Type ua} (update : σ → α → ε → α) (state : σ) (value : α)
    (first second : List ε) :
    M.carryFrom update state value (first ++ second) =
      M.carryFrom update (M.runFrom state first) (M.carryFrom update state value first) second := by
  induction first generalizing state value with
  | nil => rfl
  | cons event rest ih => simp only [List.cons_append, carryFrom, ih, runFrom, List.foldl_cons]

theorem carry_concat {α : Type ua} (update : σ → α → ε → α) (value : α) (events : List ε)
    (event : ε) : M.carry update value (events ++ [event]) =
      update (M.run events) (M.carry update value events) event :=
  M.carryFrom_append update M.init value events [event]

/-- The conservation rule.  A step that keeps `Inv` and meets `C` changes the
value of the state by its flow. -/
theorem value_eq_add_tally (C : σ → ε → Prop) (Inv : σ → Prop) (value : σ → A)
    (flow : σ → ε → A) (hinit : Inv M.init)
    (hinv : ∀ state event, Inv state → C state event → Inv (M.step state event).1)
    (hflow : ∀ state event, Inv state → C state event →
      value (M.step state event).1 = value state + flow state event)
    {events : List ε} (hC : EveryStep (fun before event => C (M.run before) event) events) :
    Inv (M.run events) ∧ value (M.run events) = value M.init + M.tally flow events := by
  induction events using List.reverseRecOn with
  | nil => exact ⟨hinit, (add_zero _).symm⟩
  | append_singleton events event ih =>
      obtain ⟨hbefore, hlast⟩ := EveryStep.concat_iff.mp hC
      obtain ⟨hkept, hvalue⟩ := ih hbefore
      rw [run_concat, tally_concat]
      refine ⟨hinv _ _ hkept hlast, ?_⟩
      rw [hflow _ _ hkept hlast, hvalue, add_assoc]

end Machine

end CryptoBot.Math

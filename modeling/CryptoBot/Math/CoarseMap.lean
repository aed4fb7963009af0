/-
# Maps over a coarse equality

A hash table compares keys through a hash and an equality that its user gives.
Where the two together identify different keys, the table has one slot for all
of them: the first insertion takes it, later ones are dropped, and a lookup
finds it under every key of the class.

`CoarseMap` is such a table over a setoid of keys.  The order of its entries
cannot be observed, because no two of them share a slot.  The main result says
which tables may be read as if their keys were compared exactly.
-/

import Mathlib.Data.List.Induction
import Mathlib.Data.List.Nodup
import Mathlib.Data.Setoid.Basic

namespace CryptoBot.Math

universe uk uv

structure CoarseMap {K : Type uk} (slot : Setoid K) (V : Type uv) where
  entries : List (K × V)
  distinct : entries.Pairwise fun first second => ¬ slot first.1 second.1

namespace CoarseMap

variable {K : Type uk} {V : Type uv} {slot : Setoid K}

def empty : CoarseMap slot V := ⟨[], .nil⟩

variable [DecidableRel slot] (map : CoarseMap slot V)

def find (key : K) : Option V :=
  (map.entries.find? fun entry => slot entry.1 key).map Prod.snd

theorem find_eq_none_iff {key : K} :
    map.find key = none ↔ ∀ entry ∈ map.entries, ¬ slot entry.1 key := by
  simp [find]

/-- Insert an entry unless its slot is taken. -/
def insert (key : K) (value : V) : CoarseMap slot V :=
  if h : map.find key = none then
    { entries := map.entries ++ [(key, value)]
      distinct := by
        apply List.pairwise_append.mpr
        refine ⟨map.distinct, List.pairwise_singleton _ _, fun first hfirst second hsecond => ?_⟩
        rw [List.mem_singleton.mp hsecond]
        exact map.find_eq_none_iff.mp h first hfirst }
  else map

/-- Insert the entries one after the other. -/
def ofEntries (slot : Setoid K) [DecidableRel slot] (entries : List (K × V)) : CoarseMap slot V :=
  entries.foldl (fun map entry => map.insert entry.1 entry.2) empty

/-- A lookup cannot tell the keys of a slot apart. -/
theorem find_congr {key other : K} (h : slot key other) : map.find key = map.find other := by
  have hsame : ∀ entry : K × V, slot entry.1 key ↔ slot entry.1 other := fun entry =>
    ⟨fun hentry => slot.trans hentry h, fun hentry => slot.trans hentry (slot.symm h)⟩
  simp only [find, hsame]

theorem find_insert (key other : K) (value : V) :
    (map.insert key value).find other =
      (map.find other).or (if slot key other then some value else none) := by
  rw [insert]
  split
  · rename_i hfree
    simp only [find, List.find?_append, Option.map_or, List.find?_singleton]
    congr 1
    split <;> simp_all
  · rename_i htaken
    by_cases hslot : slot key other
    · rw [map.find_congr hslot] at htaken
      obtain ⟨stored, hstored⟩ := Option.ne_none_iff_exists'.mp htaken
      rw [hstored, Option.some_or]
    · rw [if_neg hslot, Option.or_none]

/-- Of the entries of a slot, the first one is found. -/
theorem find_ofEntries (entries : List (K × V)) (key : K) :
    (ofEntries slot entries).find key =
      (entries.find? fun entry => slot entry.1 key).map Prod.snd := by
  induction entries using List.reverseRecOn with
  | nil => rfl
  | append_singleton entries entry ih =>
      rw [ofEntries, List.foldl_concat, ← ofEntries, find_insert, ih, List.find?_append,
        Option.map_or, List.find?_singleton]
      congr 1
      split <;> simp_all

/-- What is found was inserted, under some key of the slot. -/
theorem mem_of_find_ofEntries {entries : List (K × V)} {key : K} {value : V}
    (h : (ofEntries slot entries).find key = some value) :
    ∃ inserted, slot inserted key ∧ (inserted, value) ∈ entries := by
  rw [find_ofEntries, Option.map_eq_some_iff] at h
  obtain ⟨⟨inserted, _⟩, hfind, rfl⟩ := h
  have hslot := List.find?_some hfind
  exact ⟨inserted, of_decide_eq_true hslot, List.mem_of_find?_eq_some hfind⟩

/-- The table finds each entry under its own key, and nothing under a key that was never
inserted. -/
def Exact (slot : Setoid K) [DecidableRel slot] (entries : List (K × V)) : Prop :=
  (∀ key value, (key, value) ∈ entries → (ofEntries slot entries).find key = some value) ∧
    ∀ key, key ∉ entries.map Prod.fst → (ofEntries slot entries).find key = none

/-- A table is exact when each of its values was inserted under all the keys of its slot. -/
theorem exact_iff {entries : List (K × V)} (hkeys : (entries.map Prod.fst).Nodup) :
    Exact slot entries ↔
      ∀ key value, (key, value) ∈ entries → ∀ other, slot key other → (other, value) ∈ entries := by
  constructor
  · rintro ⟨hinserted, habsent⟩ key value hmem other hslot
    have hfind : (ofEntries slot entries).find other = some value := by
      rw [← find_congr _ hslot]
      exact hinserted key value hmem
    by_cases hother : other ∈ entries.map Prod.fst
    · obtain ⟨⟨_, stored⟩, hstored, rfl⟩ := List.mem_map.mp hother
      have hsame := (hinserted _ stored hstored).symm.trans hfind
      rwa [Option.some.inj hsame] at hstored
    · rw [habsent other hother] at hfind
      cases hfind
  · intro hclosed
    refine ⟨fun key value hmem => ?_, fun key habsent => ?_⟩
    · have hsome : (ofEntries slot entries).find key ≠ none := by
        rw [find_ofEntries, Ne, Option.map_eq_none_iff, List.find?_eq_none]
        exact fun hnone => hnone _ hmem (decide_eq_true (slot.refl key))
      obtain ⟨stored, hstored⟩ := Option.ne_none_iff_exists'.mp hsome
      obtain ⟨inserted, hslot, hinserted⟩ := mem_of_find_ofEntries hstored
      have hkey := hclosed inserted stored hinserted key hslot
      have hsame := List.inj_on_of_nodup_map hkeys hkey hmem rfl
      rw [hstored, (Prod.mk.inj hsame).2]
    · apply Option.eq_none_iff_forall_ne_some.mpr
      intro value hfind
      obtain ⟨inserted, hslot, hinserted⟩ := mem_of_find_ofEntries hfind
      exact habsent (List.mem_map.mpr ⟨_, hclosed inserted value hinserted key hslot, rfl⟩)

end CoarseMap

end CryptoBot.Math

/-
# Hash tables with an order of iteration

A hash table enumerates its elements in an order of its own.  The order is fixed
while the table is not changed; a new element may end up anywhere, and when the
table grows the others may move as well.  A `Placement` is such a table's choice:
for every content and every new element an arrangement of all of them.

An `UnorderedMap` is the list of entries as the table enumerates them, with the
fact that no key occurs twice.  An assignment to a present key stays in place.
-/

import Mathlib.Data.List.Dedup
import Mathlib.Data.List.Perm.Basic
import Mathlib.Data.Set.Function
import CryptoBot.Math.LastWrite

namespace CryptoBot.Math

universe uk uv

/-- Different items with different keys have no key twice. -/
theorem nodup_map_dedup {ι : Type uk} {K : Type uv} [DecidableEq ι] {items : List ι} {key : ι → K}
    (h : Set.InjOn key { item | item ∈ items }) : (items.dedup.map key).Nodup := by
  apply items.nodup_dedup.map_on
  intro first hfirst second hsecond hkey
  exact h (List.mem_dedup.mp hfirst) (List.mem_dedup.mp hsecond) hkey

/-- The arrangement of the elements after an insertion. -/
structure Placement (α : Type uk) where
  insert : List α → α → List α
  perm : ∀ elements element, (insert elements element).Perm (element :: elements)

namespace Placement

variable {α : Type uk}

/-- New elements come last. -/
def back : Placement α where
  insert elements element := elements ++ [element]
  perm elements element := List.perm_append_singleton element elements

/-- New elements come first. -/
def front : Placement α where
  insert elements element := element :: elements
  perm elements element := .refl (element :: elements)

theorem mem_insert (placement : Placement α) {elements : List α} {element other : α} :
    other ∈ placement.insert elements element ↔ other = element ∨ other ∈ elements := by
  rw [(placement.perm elements element).mem_iff, List.mem_cons]

/-! ### Insertions of absent elements -/

section Absent

variable [DecidableEq α] (placement : Placement α)

/-- Insert an element unless it is there. -/
def insertAbsent (elements : List α) (element : α) : List α :=
  if element ∈ elements then elements else placement.insert elements element

/-- Insert several elements, one after the other. -/
def insertAll (elements news : List α) : List α := news.foldl placement.insertAbsent elements

variable {elements news : List α} {element other : α}

theorem mem_insertAbsent :
    other ∈ placement.insertAbsent elements element ↔ other = element ∨ other ∈ elements := by
  rw [insertAbsent]
  split
  · rename_i hmem
    exact ⟨.inr, fun h => h.elim (fun heq => heq ▸ hmem) id⟩
  · exact placement.mem_insert

theorem nodup_insertAbsent (h : elements.Nodup) :
    (placement.insertAbsent elements element).Nodup := by
  rw [insertAbsent]
  split
  · exact h
  · rename_i hmem
    exact (placement.perm elements element).nodup_iff.mpr (List.nodup_cons.mpr ⟨hmem, h⟩)

theorem mem_insertAll : other ∈ placement.insertAll elements news ↔
    other ∈ elements ∨ other ∈ news := by
  induction news generalizing elements with
  | nil => simp [insertAll]
  | cons element news ih =>
      rw [insertAll, List.foldl_cons, ← insertAll, ih, mem_insertAbsent, List.mem_cons]
      tauto

theorem nodup_insertAll (h : elements.Nodup) : (placement.insertAll elements news).Nodup := by
  induction news generalizing elements with
  | nil => exact h
  | cons element news ih => exact ih (placement.nodup_insertAbsent h)

/-- Nothing happens when all the elements are there. -/
theorem insertAll_of_subset (h : ∀ element ∈ news, element ∈ elements) :
    placement.insertAll elements news = elements := by
  induction news with
  | nil => rfl
  | cons element news ih =>
      have hpresent : placement.insertAbsent elements element = elements :=
        if_pos (h element List.mem_cons_self)
      rw [insertAll, List.foldl_cons, hpresent]
      exact ih fun other hother => h other (List.mem_cons_of_mem _ hother)

end Absent

end Placement

structure UnorderedMap (K : Type uk) (V : Type uv) where
  entries : List (K × V)
  nodup : (entries.map Prod.fst).Nodup

namespace UnorderedMap

variable {K : Type uk} {V : Type uv}

def empty : UnorderedMap K V := ⟨[], List.nodup_nil⟩

/-- The keys in the order of iteration. -/
def keys (map : UnorderedMap K V) : List K := map.entries.map Prod.fst

variable (map : UnorderedMap K V)

/-- The keys of a table that holds one entry for each of some items. -/
theorem keys_perm {ι : Type*} [DecidableEq ι] {items : List ι} {key : ι → K}
    (hmem : ∀ other, other ∈ map.keys ↔ other ∈ items.map key)
    (hinjective : Set.InjOn key { item | item ∈ items }) :
    map.keys.Perm (items.dedup.map key) := by
  apply (List.perm_ext_iff_of_nodup map.nodup (nodup_map_dedup hinjective)).mpr
  intro other
  change other ∈ map.keys ↔ _
  rw [hmem, List.mem_map, List.mem_map]
  simp only [List.mem_dedup]

variable [DecidableEq K]

def find (key : K) : Option V := map.entries.lookup key

/-- Change the value of a key in place. -/
def modify (key : K) (change : V → V) : UnorderedMap K V where
  entries := map.entries.map fun entry =>
    if entry.1 = key then (entry.1, change entry.2) else entry
  nodup := by
    have hkeys : (map.entries.map fun entry =>
        if entry.1 = key then (entry.1, change entry.2) else entry).map Prod.fst =
          map.entries.map Prod.fst := by
      rw [List.map_map]
      apply List.map_congr_left
      intro entry _
      simp only [Function.comp_apply]
      split <;> rfl
    rw [hkeys]
    exact map.nodup

theorem find_eq_none_iff {key : K} : map.find key = none ↔ key ∉ map.keys := by
  rw [find, List.lookup_eq_none_iff]
  simp only [keys, List.mem_map, not_exists, not_and]
  grind

theorem mem_keys_iff {key : K} : key ∈ map.keys ↔ (map.find key).isSome := by
  rw [← not_iff_not, ← find_eq_none_iff, Option.not_isSome_iff_eq_none]

/-- `map[key] = value`. -/
def set (placement : Placement (K × V)) (key : K) (value : V) : UnorderedMap K V :=
  if h : (map.find key).isSome then map.modify key fun _ => value
  else
    { entries := placement.insert map.entries (key, value)
      nodup := by
        have habsent : key ∉ map.keys := by rwa [mem_keys_iff]
        rw [((placement.perm map.entries (key, value)).map Prod.fst).nodup_iff, List.map_cons,
          List.nodup_cons]
        exact ⟨habsent, map.nodup⟩ }

@[simp]
theorem find_empty (key : K) : (empty : UnorderedMap K V).find key = none := rfl

/-- The entries are what `find` finds. -/
theorem mem_entries_iff {key : K} {value : V} :
    (key, value) ∈ map.entries ↔ map.find key = some value := by
  obtain ⟨entries, hnodup⟩ := map
  simp only [find]
  induction entries with
  | nil => simp
  | cons entry rest ih =>
      obtain ⟨first, stored⟩ := entry
      rw [List.map_cons, List.nodup_cons] at hnodup
      rw [List.lookup_cons, List.mem_cons, ih hnodup.2]
      by_cases hkey : key = first
      · subst hkey
        have hrest : rest.lookup key ≠ some value := by
          rw [Ne, ← ih hnodup.2]
          intro hmem
          exact hnodup.1 (List.mem_map.mpr ⟨_, hmem, rfl⟩)
        simp only [beq_self_eq_true, Prod.mk.injEq, true_and, Option.some.injEq, hrest, or_false]
        exact eq_comm
      · have hbeq : (key == first) = false := beq_false_of_ne hkey
        simp only [hbeq, Prod.mk.injEq, hkey, false_and, false_or]

/-- A table with two keys. -/
theorem entries_perm_pair {first second : K} {firstValue secondValue : V} (hne : first ≠ second)
    (hfirst : map.find first = some firstValue) (hsecond : map.find second = some secondValue)
    (honly : ∀ key ∈ map.keys, key = first ∨ key = second) :
    map.entries.Perm [(first, firstValue), (second, secondValue)] := by
  have hpair : [(first, firstValue), (second, secondValue)].Nodup := by simp [hne]
  rw [List.perm_ext_iff_of_nodup map.nodup.of_map hpair]
  rintro ⟨key, value⟩
  rw [mem_entries_iff]
  constructor
  · intro hfind
    have hkey : key ∈ map.keys := map.mem_keys_iff.mpr (by rw [hfind, Option.isSome_some])
    rcases honly key hkey with rfl | rfl
    · simp_all
    · simp_all
  · intro hmem
    simp only [List.mem_cons, Prod.mk.injEq, List.not_mem_nil, or_false] at hmem
    obtain ⟨rfl, rfl⟩ | ⟨rfl, rfl⟩ := hmem
    · exact hfirst
    · exact hsecond

@[simp]
theorem keys_modify (key : K) (change : V → V) : (map.modify key change).keys = map.keys := by
  rw [keys, keys, modify, List.map_map]
  apply List.map_congr_left
  intro entry _
  simp only [Function.comp_apply]
  split <;> rfl

@[simp]
theorem find_modify (key other : K) (change : V → V) :
    (map.modify key change).find other =
      if other = key then (map.find other).map change else map.find other := by
  simp only [find, modify]
  induction map.entries with
  | nil => simp
  | cons entry rest ih =>
      obtain ⟨first, stored⟩ := entry
      rw [List.map_cons]
      by_cases hfirst : first = key
      · subst hfirst
        rw [if_pos rfl, List.lookup_cons, List.lookup_cons, ih]
        by_cases hother : other = first
        · simp [hother]
        · simp [hother, beq_false_of_ne hother]
      · rw [if_neg hfirst, List.lookup_cons, List.lookup_cons, ih]
        by_cases hother : other = first
        · simp [hother, hfirst]
        · simp [beq_false_of_ne hother]

variable (placement : Placement (K × V))

@[simp]
theorem find_set (key other : K) (value : V) :
    (map.set placement key value).find other =
      if other = key then some value else map.find other := by
  by_cases h : (map.find key).isSome
  · rw [set, dif_pos h, find_modify]
    split
    · rename_i hother
      rw [hother]
      obtain ⟨stored, hstored⟩ := Option.isSome_iff_exists.mp h
      rw [hstored, Option.map_some]
    · rfl
  · rw [set, dif_neg h]
    ext found
    rw [← mem_entries_iff, (placement.perm map.entries (key, value)).mem_iff, List.mem_cons,
      mem_entries_iff]
    have hnone : map.find key = none := by simpa using h
    by_cases hother : other = key
    · simp [hother, hnone, eq_comm]
    · simp [hother]

/-- Assignments one after the other: the last one to a key wins. -/
theorem find_foldl_set {ι : Type*} (items : List ι) (key : ι → K) (value : ι → V) :
    (items.foldl (fun map item => map.set placement (key item) (value item)) map).find =
      writes map.find (items.map fun item => (key item, some (value item))) := by
  induction items generalizing map with
  | nil => rfl
  | cons item items ih =>
      rw [List.foldl_cons, ih, List.map_cons, writes_cons]
      congr 1
      funext other
      rw [find_set, Function.update_apply]

end UnorderedMap

end CryptoBot.Math

/-
# Container interfaces

What a client may assume of the containers it does not implement: a map with
unique keys, an ordered intrusive tree and a chunk pool.  Each is a structure
that packs an implementation with its documented laws, so a development over
these structures holds for every implementation that keeps the documentation.

An intrusive tree stores nodes and compares them through a relation given at
each call, because the keys live in the nodes and may be changed behind the
tree's back.  Its laws therefore ask that the enumeration is sorted by the
relation of the call, and say nothing otherwise.  Likewise `emplaceUnique`
promises nothing for a key that is already present.

The instances at the end are the list implementations.
-/

import Mathlib.Data.List.AList
import Mathlib.Data.List.Sort
import Mathlib.Data.Finset.Image
import Mathlib.Data.Finset.Range
import Mathlib.Order.RelClasses

namespace CryptoBot.Math

universe ua uk uv

/-- A map with unique keys. -/
structure KeyedMap (K : Type uk) [DecidableEq K] (V : Type uv) where
  Carrier : Type (max uk uv)
  new : Carrier
  find : Carrier → K → Option V
  /-- Overwrite the value of a present key. -/
  assign : Carrier → K → V → Carrier
  /-- Insert a key that is not present. -/
  emplaceUnique : Carrier → K → V → Carrier
  erase : Carrier → K → Carrier
  clear : Carrier → Carrier
  /-- The entries, in the order of iteration. -/
  entries : Carrier → List (K × V)
  find_new : find new = fun _ => none
  find_assign : ∀ (map : Carrier) (key : K) (value : V), find map key ≠ none →
    find (assign map key value) = Function.update (find map) key (some value)
  find_emplaceUnique : ∀ (map : Carrier) (key : K) (value : V), find map key = none →
    find (emplaceUnique map key value) = Function.update (find map) key (some value)
  find_erase : ∀ (map : Carrier) (key : K),
    find (erase map key) = Function.update (find map) key none
  find_clear : ∀ map : Carrier, find (clear map) = fun _ => none
  mem_entries : ∀ (map : Carrier) (key : K) (value : V),
    (key, value) ∈ entries map ↔ find map key = some value
  nodup_entries : ∀ map : Carrier, ((entries map).map Prod.fst).Nodup

/-- An ordered tree of nodes that allows equivalent nodes. -/
structure OrderedTree (N : Type ua) where
  Carrier : Type ua
  new : Carrier
  /-- The nodes from `begin` to `end`. -/
  toList : Carrier → List N
  /-- Insert a node at the upper bound of its equivalence class. -/
  insertEqual : (lt : N → N → Prop) → [DecidableRel lt] → Carrier → N → Carrier
  /-- Erase every node equivalent to the given one. -/
  erase : (lt : N → N → Prop) → [DecidableRel lt] → Carrier → N → Carrier
  /-- The number of nodes equivalent to the given one. -/
  count : (lt : N → N → Prop) → [DecidableRel lt] → Carrier → N → Nat
  clear : Carrier → Carrier
  toList_new : toList new = []
  toList_insertEqual : ∀ (lt : N → N → Prop) [DecidableRel lt] [IsStrictWeakOrder N lt]
    (tree : Carrier) (node : N), (toList tree).Pairwise (fun first second => ¬ lt second first) →
    toList (insertEqual lt tree node) = (toList tree).orderedInsert lt node
  toList_erase : ∀ (lt : N → N → Prop) [DecidableRel lt] [IsStrictWeakOrder N lt]
    (tree : Carrier) (node : N), (toList tree).Pairwise (fun first second => ¬ lt second first) →
    toList (erase lt tree node) =
      (toList tree).filter (fun other => lt other node ∨ lt node other)
  count_eq : ∀ (lt : N → N → Prop) [DecidableRel lt] [IsStrictWeakOrder N lt]
    (tree : Carrier) (node : N), (toList tree).Pairwise (fun first second => ¬ lt second first) →
    count lt tree node =
      (toList tree).countP (fun other => ¬ lt other node ∧ ¬ lt node other)
  toList_clear : ∀ tree : Carrier, toList (clear tree) = []

/-- A pool that hands out chunks of memory, each of them once; a request may
fail. -/
structure ChunkPool (A : Type ua) [DecidableEq A] where
  Carrier : Type ua
  new : Carrier
  malloc : Carrier → Option (A × Carrier)
  /-- The chunks handed out so far. -/
  outstanding : Carrier → Finset A
  outstanding_new : outstanding new = ∅
  malloc_fresh : ∀ (pool next : Carrier) (chunk : A), malloc pool = some (chunk, next) →
    chunk ∉ outstanding pool
  outstanding_malloc : ∀ (pool next : Carrier) (chunk : A), malloc pool = some (chunk, next) →
    outstanding next = insert chunk (outstanding pool)

/-- A chunk pool that can give memory back.  What counts as handed out are the chunks since the
last purge. -/
structure ReleasingPool (A : Type ua) [DecidableEq A] extends ChunkPool A where
  /-- The chunks in the memory that the pool holds. -/
  owned : Carrier → Set A
  /-- Free the memory blocks with no chunk handed out. -/
  releaseMemory : Carrier → Carrier
  /-- Free every memory block. -/
  purgeMemory : Carrier → Carrier
  mem_owned : ∀ (pool : Carrier) (chunk : A), chunk ∈ outstanding pool → chunk ∈ owned pool
  outstanding_releaseMemory : ∀ pool : Carrier, outstanding (releaseMemory pool) = outstanding pool
  owned_releaseMemory : ∀ pool : Carrier, owned (releaseMemory pool) ⊆ owned pool
  outstanding_purgeMemory : ∀ pool : Carrier, outstanding (purgeMemory pool) = ∅
  owned_purgeMemory : ∀ pool : Carrier, owned (purgeMemory pool) = ∅

/-- No request fails. -/
def ChunkPool.Unlimited {A : Type ua} [DecidableEq A] (chunks : ChunkPool A) : Prop :=
  ∀ pool, chunks.malloc pool ≠ none

/-! ## Strict orders -/

section Strict

variable {N : Type ua} {lt : N → N → Prop}

/-- A strictly ordered enumeration is sorted in the sense of the tree's laws. -/
theorem pairwise_not_gt [Std.Asymm lt] {nodes : List N} (h : nodes.Pairwise lt) :
    nodes.Pairwise fun first second => ¬ lt second first :=
  h.imp fun hlt hgt => asymm_of lt hlt hgt

/-- Inserting a node that is comparable to all others keeps a strict order. -/
theorem pairwise_orderedInsert [DecidableRel lt] [IsTrans N lt] {nodes : List N} {node : N}
    (hsorted : nodes.Pairwise lt) (hcomparable : ∀ other ∈ nodes, lt node other ∨ lt other node) :
    (nodes.orderedInsert lt node).Pairwise lt := by
  induction nodes with
  | nil => simp
  | cons head rest ih =>
      obtain ⟨hhead, hrest⟩ := List.pairwise_cons.mp hsorted
      rw [List.orderedInsert_cons]
      by_cases hbefore : lt node head
      · rw [if_pos hbefore]
        refine List.pairwise_cons.mpr ⟨fun other hother => ?_, hsorted⟩
        rcases List.mem_cons.mp hother with rfl | hlater
        · exact hbefore
        · exact trans_of lt hbefore (hhead other hlater)
      · rw [if_neg hbefore]
        refine List.pairwise_cons.mpr
          ⟨fun other hother => ?_, ih hrest fun other h => hcomparable other (by simp [h])⟩
        rcases (List.mem_orderedInsert lt).mp hother with rfl | hlater
        · exact (hcomparable head (by simp)).resolve_left hbefore
        · exact hhead other hlater

end Strict

/-! ## List implementations -/

/-- Association lists with unique keys. -/
def KeyedMap.alist (K : Type uk) [DecidableEq K] (V : Type uv) : KeyedMap K V where
  Carrier := AList fun _ : K => V
  new := ∅
  find map key := map.lookup key
  assign map key value := map.insert key value
  emplaceUnique map key value := map.insert key value
  erase map key := map.erase key
  clear _ := ∅
  entries map := map.entries.map fun entry => (entry.1, entry.2)
  find_new := rfl
  find_assign map key value _ := by
    funext other
    by_cases h : other = key
    · subst h; simp
    · rw [Function.update_of_ne h, AList.lookup_insert_ne h]
  find_emplaceUnique map key value _ := by
    funext other
    by_cases h : other = key
    · subst h; simp
    · rw [Function.update_of_ne h, AList.lookup_insert_ne h]
  find_erase map key := by
    funext other
    by_cases h : other = key
    · subst h; simp
    · rw [Function.update_of_ne h, AList.lookup_erase_ne h]
  find_clear _ := rfl
  mem_entries map key value := by
    rw [← Option.mem_def, AList.mem_lookup_iff]
    simp [Sigma.exists]
  nodup_entries map := by
    have h := map.keys_nodup
    rwa [List.map_map]

/-- Sorted lists. -/
def OrderedTree.list (N : Type ua) : OrderedTree N where
  Carrier := List N
  new := []
  toList nodes := nodes
  insertEqual lt _ nodes node := nodes.orderedInsert lt node
  erase lt _ nodes node := nodes.filter (fun other => lt other node ∨ lt node other)
  count lt _ nodes node := nodes.countP (fun other => ¬ lt other node ∧ ¬ lt node other)
  clear _ := []
  toList_new := rfl
  toList_insertEqual _ _ _ _ _ _ := rfl
  toList_erase _ _ _ _ _ _ := rfl
  count_eq _ _ _ _ _ _ := rfl
  toList_clear _ := rfl

/-- Chunks numbered in the order they are handed out. -/
def ChunkPool.counter : ChunkPool Nat where
  Carrier := Nat
  new := 0
  malloc next := some (next, next + 1)
  outstanding next := Finset.range next
  outstanding_new := rfl
  malloc_fresh pool next chunk h := by
    cases h
    simp
  outstanding_malloc pool next chunk h := by
    cases h
    exact Finset.range_add_one

theorem ChunkPool.unlimited_counter : ChunkPool.counter.Unlimited :=
  fun _ => Option.some_ne_none _

/-- The counter goes on after a purge.  A pool is the first number since then and how many were
handed out; it holds these and no others. -/
def ReleasingPool.counter : ReleasingPool Nat where
  Carrier := Nat × Nat
  new := (0, 0)
  malloc pool := some (pool.1 + pool.2, (pool.1, pool.2 + 1))
  outstanding pool := (Finset.range pool.2).image (pool.1 + ·)
  owned pool := { chunk | pool.1 ≤ chunk ∧ chunk < pool.1 + pool.2 }
  releaseMemory pool := pool
  purgeMemory pool := (pool.1 + pool.2, 0)
  outstanding_new := rfl
  malloc_fresh pool next chunk h := by
    cases h
    simp
  outstanding_malloc pool next chunk h := by
    cases h
    rw [Finset.range_add_one, Finset.image_insert]
  mem_owned pool chunk h := by
    obtain ⟨number, hnumber, rfl⟩ := Finset.mem_image.mp h
    exact ⟨Nat.le_add_right _ _, Nat.add_lt_add_left (Finset.mem_range.mp hnumber) _⟩
  outstanding_releaseMemory _ := rfl
  owned_releaseMemory _ := subset_rfl
  outstanding_purgeMemory _ := rfl
  owned_purgeMemory pool := by
    apply Set.eq_empty_of_forall_notMem
    rintro chunk ⟨hle, hlt⟩
    exact absurd hlt (Nat.not_lt.mpr hle)

end CryptoBot.Math

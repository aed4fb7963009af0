/-
# Giving the memory of a pool back

`Reset` and `Clear` of `MemoryPoolThreadSafety` act on the underlying pool only:
the first frees the memory blocks of it that hold no chunk handed out, the
second all of them.  The free list of the recycled blocks is left as it is.  A
block on it counts as handed out, so `Reset` does no harm; after `Clear` the
head of the list points into memory that is gone, and the next allocation
returns it.

After `Clear` nothing is known of the memory, so the call carries the contents
that are found there.
-/

import CryptoBot.Common.MemoryPool
import CryptoBot.Math.Machine

namespace CryptoBot.Common

open CryptoBot.Math

universe ua ut

inductive MemoryPoolCall (A : Type ua) (T : Type ut)
  | allocate (value : T)
  | deallocate (obj : Option A)
  | reset
  | clear (contents : A → Block A T)

namespace MemoryPoolCall

variable {A : Type ua} {T : Type ut}

def isAllocate : MemoryPoolCall A T → Bool
  | allocate _ => true
  | _ => false

def isClear : MemoryPoolCall A T → Bool
  | clear _ => true
  | _ => false

theorem exists_of_isAllocate {call : MemoryPoolCall A T} (h : call.isAllocate) :
    ∃ value, call = .allocate value := by
  cases call with
  | allocate value => exact ⟨value, rfl⟩
  | deallocate obj => cases h
  | reset => cases h
  | clear contents => cases h

theorem exists_of_isClear {call : MemoryPoolCall A T} (h : call.isClear) :
    ∃ contents, call = .clear contents := by
  cases call with
  | clear contents => exact ⟨contents, rfl⟩
  | allocate value => cases h
  | deallocate obj => cases h
  | reset => cases h

end MemoryPoolCall

namespace MemoryPool

variable {A : Type ua} [DecidableEq A] {chunks : ReleasingPool A} {T : Type ut}

section Operations

variable (memPool : MemoryPool chunks.toChunkPool T)

def reset : MemoryPool chunks.toChunkPool T :=
  { memPool with pool := chunks.releaseMemory memPool.pool }

/-- All objects are gone; the head of the free list stays. -/
def clear (contents : A → Block A T) : MemoryPool chunks.toChunkPool T :=
  { memPool with
    pool := chunks.purgeMemory memPool.pool
    memory := contents
    live := ∅ }

/-- One call, with the pointer that an allocation returns. -/
def step : MemoryPoolCall A T → MemoryPool chunks.toChunkPool T × List (Option A)
  | .allocate value => ((memPool.allocate value).2, [(memPool.allocate value).1])
  | .deallocate obj => (memPool.deallocate obj, [])
  | .reset => (memPool.reset, [])
  | .clear contents => (memPool.clear contents, [])

/-- Only live blocks are deallocated; the null pointer always may be. -/
def Legal : MemoryPoolCall A T → Prop
  | .deallocate (some obj) => obj ∈ memPool.live
  | _ => True

instance (call : MemoryPoolCall A T) : Decidable (memPool.Legal call) :=
  match call with
  | .deallocate (some obj) => inferInstanceAs (Decidable (obj ∈ memPool.live))
  | .deallocate none => .isTrue trivial
  | .allocate _ => .isTrue trivial
  | .reset => .isTrue trivial
  | .clear _ => .isTrue trivial

/-- A pointer that the call returns is to a block that is not live, in memory that the
underlying pool holds. -/
def HandsOutFresh (call : MemoryPoolCall A T) : Prop :=
  ∀ block, some block ∈ (memPool.step call).2 →
    block ∉ memPool.live ∧ block ∈ chunks.owned (memPool.step call).1.pool

end Operations

/-- The calls on a new pool. -/
def machine (chunks : ReleasingPool A) (T : Type ut) (poolSize : Nat) :
    Machine (MemoryPool chunks.toChunkPool T) (MemoryPoolCall A T) (Option A) where
  init := .new chunks.toChunkPool T poolSize
  step := step

variable {memPool : MemoryPool chunks.toChunkPool T}

theorem poolSize_step (call : MemoryPoolCall A T) :
    (memPool.step call).1.poolSize = memPool.poolSize := by
  cases call with
  | allocate value =>
      rw [step, allocate]
      split_ifs
      · rfl
      · split
        · rfl
        · split <;> rfl
  | deallocate obj => cases obj <;> rfl
  | reset => rfl
  | clear contents => rfl

/-! ## Calls that keep the pool valid -/

theorem Valid.reset (hvalid : memPool.Valid) : memPool.reset.Valid := by
  obtain ⟨hsize, ⟨free, hfree, hnodup, hdisjoint, hblocks⟩, hdouble⟩ := hvalid
  refine ⟨hsize, ⟨free, hfree, hnodup, hdisjoint, fun block => ?_⟩, hdouble⟩
  change block ∈ chunks.outstanding (chunks.releaseMemory memPool.pool) ↔ _
  rw [chunks.outstanding_releaseMemory]
  exact hblocks block

/-- With an empty free list there is nothing that `Clear` forgets. -/
theorem Valid.clear (hvalid : memPool.Valid) (hhead : memPool.head = none)
    (contents : A → Block A T) : (memPool.clear contents).Valid := by
  refine ⟨hvalid.poolSize, ⟨[], ?_, .nil, by simp, fun block => ?_⟩, hvalid.doubleFree⟩
  · rw [MemoryPool.clear, hhead]
    exact .nil
  · simp [MemoryPool.clear, chunks.outstanding_purgeMemory]

theorem Valid.step (hvalid : memPool.Valid) {call : MemoryPoolCall A T}
    (hlegal : memPool.Legal call) (hclear : call.isClear → memPool.head = none) :
    (memPool.step call).1.Valid := by
  cases call with
  | allocate value =>
      rcases hvalid.allocate_or_fail value with hfail | ⟨block, hallocated⟩
      · rw [MemoryPool.step, hfail]
        exact hvalid
      · exact hallocated.valid
  | deallocate obj =>
      cases obj with
      | none => exact hvalid
      | some obj => exact hvalid.deallocate hlegal
  | reset => exact hvalid.reset
  | clear contents => exact hvalid.clear (hclear rfl) contents

/-- Only allocations return pointers. -/
theorem handsOutFresh_of_not_isAllocate {call : MemoryPoolCall A T} (h : ¬ call.isAllocate) :
    memPool.HandsOutFresh call := by
  intro block hblock
  cases call with
  | allocate value => exact absurd rfl h
  | deallocate obj => cases hblock
  | reset => cases hblock
  | clear contents => cases hblock

/-- A pool of size zero never returns a block. -/
theorem handsOutFresh_of_poolSize_eq_zero (hsize : memPool.poolSize = 0) (value : T) :
    memPool.HandsOutFresh (.allocate value) := by
  intro block hblock
  rw [MemoryPool.step, MemoryPool.allocate, if_pos hsize] at hblock
  cases List.mem_singleton.mp hblock

theorem Valid.handsOutFresh (hvalid : memPool.Valid) (value : T) :
    memPool.HandsOutFresh (.allocate value) := by
  intro block hblock
  have hresult : (memPool.allocate value).1 = some block := (List.mem_singleton.mp hblock).symm
  rcases hvalid.allocate_or_fail value with hfail | ⟨other, hallocated⟩
  · rw [hfail] at hresult
    cases hresult
  · cases hallocated.result.symm.trans hresult
    obtain ⟨-, ⟨free, -, -, -, hblocks⟩, -⟩ := hallocated.valid
    refine ⟨hallocated.notLive, chunks.mem_owned _ _ ((hblocks block).mpr (.inl ?_))⟩
    rw [hallocated.live]
    exact Finset.mem_insert_self _ _

/-! ## A free list in released memory -/

/-- Every block of the pool is gone, but the free list still has a head. -/
structure Stranded (memPool : MemoryPool chunks.toChunkPool T) : Prop where
  poolSize : memPool.poolSize ≠ 0
  head : memPool.head ≠ none
  live : memPool.live = ∅
  owned : chunks.owned memPool.pool = ∅

theorem stranded_clear (hsize : memPool.poolSize ≠ 0) (hhead : memPool.head ≠ none)
    (contents : A → Block A T) : (memPool.clear contents).Stranded where
  poolSize := hsize
  head := hhead
  live := rfl
  owned := chunks.owned_purgeMemory memPool.pool

/-- An allocation returns the head. -/
theorem Stranded.not_handsOutFresh (hstranded : memPool.Stranded) (value : T) :
    ¬ memPool.HandsOutFresh (.allocate value) := by
  intro hfresh
  obtain ⟨block, hhead⟩ := Option.ne_none_iff_exists'.mp hstranded.head
  have hresult : memPool.allocate value =
      (some block, { memPool with head := (memPool.memory block).next }.construct block value) := by
    rw [MemoryPool.allocate, if_neg hstranded.poolSize, hhead]
  have hmem : some block ∈ (memPool.step (.allocate value)).2 := by
    rw [MemoryPool.step, hresult]
    exact List.mem_singleton_self _
  have howned := (hfresh block hmem).2
  rw [MemoryPool.step, hresult] at howned
  change block ∈ chunks.owned memPool.pool at howned
  rw [hstranded.owned] at howned
  exact howned

/-- Nothing else repairs the pool: there is no live block to deallocate. -/
theorem Stranded.step (hstranded : memPool.Stranded) {call : MemoryPoolCall A T}
    (hlegal : memPool.Legal call) (hallocate : ¬ call.isAllocate) :
    (memPool.step call).1.Stranded := by
  cases call with
  | allocate value => exact absurd rfl hallocate
  | deallocate obj =>
      cases obj with
      | none => exact hstranded
      | some obj =>
          have hlive : obj ∈ memPool.live := hlegal
          rw [hstranded.live] at hlive
          exact absurd hlive (Finset.notMem_empty obj)
  | reset =>
      refine ⟨hstranded.poolSize, hstranded.head, hstranded.live, ?_⟩
      apply Set.subset_empty_iff.mp
      rw [← hstranded.owned]
      exact chunks.owned_releaseMemory memPool.pool
  | clear contents => exact stranded_clear hstranded.poolSize hstranded.head contents

/-! ## Runs -/

section Run

variable (chunks T) (poolSize : Nat)

/-- The pool after the calls. -/
def run (calls : List (MemoryPoolCall A T)) : MemoryPool chunks.toChunkPool T :=
  (machine chunks T poolSize).run calls

def LegalRun (calls : List (MemoryPoolCall A T)) : Prop :=
  EveryStep (fun before call => (run chunks T poolSize before).Legal call) calls

/-- Every `Clear` so far found the free list empty. -/
def ClearsEmpty (calls : List (MemoryPoolCall A T)) : Prop :=
  EveryStep (fun before call => call.isClear → (run chunks T poolSize before).head = none) calls

variable {chunks T poolSize} {calls : List (MemoryPoolCall A T)}

instance : Decidable (LegalRun chunks T poolSize calls) :=
  inferInstanceAs (Decidable (EveryStep _ calls))

instance : Decidable (ClearsEmpty chunks T poolSize calls) :=
  inferInstanceAs (Decidable (EveryStep _ calls))

theorem run_concat (calls : List (MemoryPoolCall A T)) (call : MemoryPoolCall A T) :
    run chunks T poolSize (calls ++ [call]) = ((run chunks T poolSize calls).step call).1 :=
  (machine chunks T poolSize).run_concat calls call

theorem poolSize_run (calls : List (MemoryPoolCall A T)) :
    (run chunks T poolSize calls).poolSize = poolSize := by
  induction calls using List.reverseRecOn with
  | nil => rfl
  | append_singleton calls call ih => rw [run_concat, poolSize_step, ih]

/-- The pool is valid as long as no `Clear` found blocks on the free list. -/
theorem valid_run_of_clearsEmpty (hsize : poolSize ≠ 0) (hlegal : LegalRun chunks T poolSize calls)
    (hclears : ClearsEmpty chunks T poolSize calls) : (run chunks T poolSize calls).Valid := by
  induction calls using List.reverseRecOn with
  | nil => exact valid_new hsize
  | append_singleton calls call ih =>
      obtain ⟨hinit, hlast⟩ := EveryStep.concat_iff.mp hlegal
      obtain ⟨hearlier, hclear⟩ := EveryStep.concat_iff.mp hclears
      rw [run_concat]
      exact (ih hinit hearlier).step hlast hclear

/-- Calls after a `Clear` that left a head behind, as long as all pointers are good. -/
theorem stranded_run (hsize : poolSize ≠ 0) {before after : List (MemoryPoolCall A T)}
    {contents : A → Block A T} (hhead : (run chunks T poolSize before).head ≠ none)
    (hlegal : LegalRun chunks T poolSize (before ++ .clear contents :: after))
    (hfresh : EveryStep (fun before call => (run chunks T poolSize before).HandsOutFresh call)
      (before ++ .clear contents :: after)) :
    (run chunks T poolSize (before ++ .clear contents :: after)).Stranded := by
  induction after using List.reverseRecOn with
  | nil =>
      rw [run_concat]
      exact stranded_clear ((poolSize_run before).symm ▸ hsize) hhead contents
  | append_singleton after call ih =>
      rw [← List.cons_append, ← List.append_assoc] at hlegal hfresh ⊢
      obtain ⟨hinit, hlast⟩ := EveryStep.concat_iff.mp hlegal
      obtain ⟨hearlier, hcall⟩ := EveryStep.concat_iff.mp hfresh
      have hstranded := ih hinit hearlier
      rw [run_concat]
      apply hstranded.step hlast
      intro hallocate
      obtain ⟨value, rfl⟩ := MemoryPoolCall.exists_of_isAllocate hallocate
      exact hstranded.not_handsOutFresh value hcall

/-- The pool hands out fresh memory as long as it allocates nothing after a `Clear` that found
blocks on the free list. -/
theorem handsOutFresh_run_iff (hlegal : LegalRun chunks T poolSize calls) :
    EveryStep (fun before call => (run chunks T poolSize before).HandsOutFresh call) calls ↔
      EveryStep (fun before call => call.isAllocate →
        poolSize = 0 ∨ ClearsEmpty chunks T poolSize before) calls := by
  constructor
  · intro hfresh before call after heq hallocate
    by_cases hsize : poolSize = 0
    · exact .inl hsize
    refine .inr fun first cleared last hbefore hclear => ?_
    by_contra hhead
    obtain ⟨value, rfl⟩ := MemoryPoolCall.exists_of_isAllocate hallocate
    obtain ⟨contents, rfl⟩ := MemoryPoolCall.exists_of_isClear hclear
    subst heq hbefore
    have hstranded := stranded_run hsize hhead (EveryStep.left hlegal) (EveryStep.left hfresh)
    exact hstranded.not_handsOutFresh value (hfresh _ _ after rfl)
  · intro hcondition before call after heq
    subst heq
    by_cases hallocate : call.isAllocate
    · have hcall := hcondition before call after rfl hallocate
      obtain ⟨value, rfl⟩ := MemoryPoolCall.exists_of_isAllocate hallocate
      by_cases hsize : poolSize = 0
      · exact handsOutFresh_of_poolSize_eq_zero ((poolSize_run before).trans hsize) value
      · have hclears := hcall.resolve_left hsize
        exact (valid_run_of_clearsEmpty hsize (EveryStep.left hlegal) hclears).handsOutFresh value
    · exact handsOutFresh_of_not_isAllocate hallocate

/-- Blocks are recycled, the pool is reset and, with no block on the free list, cleared. -/
theorem handsOutFresh_run_recycled :
    EveryStep (fun before call =>
        (run ReleasingPool.counter Nat 2 before).HandsOutFresh call)
      [.allocate 7, .allocate 8, .deallocate (some 0), .allocate 9, .reset,
        .clear fun _ => .link none, .allocate 10] :=
  (handsOutFresh_run_iff (by decide)).mpr (by decide)

/-- A block on the free list when the pool is cleared is returned by the next allocation. -/
theorem not_handsOutFresh_after_clear :
    let calls : List (MemoryPoolCall Nat Nat) :=
      [.allocate 7, .deallocate (some 0), .clear fun _ => .link none, .allocate 8]
    LegalRun ReleasingPool.counter Nat 2 calls ∧
      ¬ EveryStep (fun before call =>
          (run ReleasingPool.counter Nat 2 before).HandsOutFresh call) calls := by
  refine ⟨by decide, fun hfresh => ?_⟩
  have hstranded : (run ReleasingPool.counter Nat 2
      [.allocate 7, .deallocate (some 0), .clear fun _ => .link none]).Stranded :=
    stranded_clear (by decide) (by decide) _
  exact hstranded.not_handsOutFresh 8 (hfresh _ _ [] rfl)

end Run

end MemoryPool

end CryptoBot.Common

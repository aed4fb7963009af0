/-
# The memory pool

`MemoryPoolThreadSafety` keeps a free list inside the blocks it recycles: a
deallocated block stores the previous head of the list in its first word.  A
block is therefore either a constructed object or a link, and reading a block
the wrong way is what the validity of a pool has to exclude.

The compare-and-exchange loops are modelled by their sequential effect; a pool
of the order book is used by one strand only.  Two ghost fields account for the
blocks: `live` holds the blocks between their construction and their
deallocation, and `doubleFree` records a deallocation outside of it.
-/

import CryptoBot.Math.Containers
import Mathlib.Data.Finset.Basic

namespace CryptoBot.Common

open CryptoBot.Math

universe ua ut

/-- The contents of a block: an object, or the link of the free list. -/
inductive Block (A : Type ua) (T : Type ut)
  | object (value : T)
  | link (next : Option A)

namespace Block

variable {A : Type ua} {T : Type ut}

/-- The first word of the block, read as a pointer. -/
def next : Block A T → Option A
  | .object _ => none
  | .link next => next

/-- The block, read as an object. -/
def value [Inhabited T] : Block A T → T
  | .object value => value
  | .link _ => default

end Block

structure MemoryPool {A : Type ua} [DecidableEq A] (chunks : ChunkPool A) (T : Type ut) where
  pool : chunks.Carrier
  head : Option A
  poolSize : Nat
  memory : A → Block A T
  live : Finset A
  doubleFree : Bool

namespace MemoryPool

variable {A : Type ua} [DecidableEq A] {chunks : ChunkPool A} {T : Type ut}

def new (chunks : ChunkPool A) (T : Type ut) (poolSize : Nat) : MemoryPool chunks T where
  pool := chunks.new
  head := none
  poolSize := poolSize
  memory _ := .link none
  live := ∅
  doubleFree := false

variable (memPool : MemoryPool chunks T)

/-- `new (block) T(args...)`. -/
def construct (block : A) (value : T) : MemoryPool chunks T :=
  { memPool with
    memory := Function.update memPool.memory block (.object value)
    live := insert block memPool.live }

/-- Take the head of the free list, or else a chunk of the underlying pool. -/
def allocate (value : T) : Option A × MemoryPool chunks T :=
  if memPool.poolSize = 0 then (none, memPool)
  else
    match memPool.head with
    | some block =>
        (some block, { memPool with head := (memPool.memory block).next }.construct block value)
    | none =>
        match chunks.malloc memPool.pool with
        | some (obj, pool) => (some obj, { memPool with pool := pool }.construct obj value)
        | none => (none, memPool)

/-- Push a block on the free list; the null pointer is ignored. -/
def deallocate : Option A → MemoryPool chunks T
  | none => memPool
  | some obj =>
      { memPool with
        memory := Function.update memPool.memory obj (.link memPool.head)
        head := some obj
        live := memPool.live.erase obj
        doubleFree := memPool.doubleFree || decide (obj ∉ memPool.live) }

section Object

variable [Inhabited T]

/-- The object a pointer refers to. -/
def deref (block : A) : T := (memPool.memory block).value

/-- Write to the object a pointer refers to. -/
def modify (block : A) (change : T → T) : MemoryPool chunks T :=
  { memPool with
    memory := Function.update memPool.memory block (.object (change (memPool.deref block))) }

end Object

/-! ## Validity -/

/-- The blocks reached from a head through the links, in order. -/
inductive FreeList (memory : A → Block A T) : Option A → List A → Prop
  | nil : FreeList memory none []
  | cons {block : A} {next : Option A} {rest : List A} (hlink : memory block = .link next)
      (hrest : FreeList memory next rest) : FreeList memory (some block) (block :: rest)

/-- A write outside of the free list leaves it alone. -/
theorem FreeList.update {memory : A → Block A T} {head : Option A} {free : List A}
    (h : FreeList memory head free) {block : A} (hblock : block ∉ free) (content : Block A T) :
    FreeList (Function.update memory block content) head free := by
  induction h with
  | nil => exact .nil
  | cons hlink hrest ih =>
      obtain ⟨hne, hnotMem⟩ := not_or.mp (mt List.mem_cons.mpr hblock)
      exact .cons (by rwa [Function.update_of_ne (Ne.symm hne)]) (ih hnotMem)

/-- The chunks handed out are split into the live blocks and the free list, and
no block was deallocated twice. -/
structure Valid (memPool : MemoryPool chunks T) : Prop where
  poolSize : memPool.poolSize ≠ 0
  blocks : ∃ free, FreeList memPool.memory memPool.head free ∧ free.Nodup ∧
    (∀ block ∈ free, block ∉ memPool.live) ∧
    ∀ block, block ∈ chunks.outstanding memPool.pool ↔ block ∈ memPool.live ∨ block ∈ free
  doubleFree : memPool.doubleFree = false

theorem valid_new {poolSize : Nat} (h : poolSize ≠ 0) : (new chunks T poolSize).Valid where
  poolSize := h
  blocks := ⟨[], .nil, .nil, by simp, by simp [new, chunks.outstanding_new]⟩
  doubleFree := rfl

variable {memPool}

/-- Constructing an object in a block outside of both lists keeps the split. -/
theorem Valid.construct {block : A} {value : T} (free : List A) (hsize : memPool.poolSize ≠ 0)
    (hdouble : memPool.doubleFree = false) (hfree : FreeList memPool.memory memPool.head free)
    (hnodup : free.Nodup) (hdisjoint : ∀ other ∈ free, other ∉ memPool.live)
    (hnotFree : block ∉ free)
    (hblocks : ∀ other, other ∈ chunks.outstanding memPool.pool ↔
      other = block ∨ other ∈ memPool.live ∨ other ∈ free) :
    (memPool.construct block value).Valid := by
  refine ⟨hsize, ⟨free, hfree.update hnotFree _, hnodup, fun other hother => ?_, fun other => ?_⟩,
    hdouble⟩
  · rw [MemoryPool.construct, Finset.mem_insert, not_or]
    exact ⟨fun heq => hnotFree (heq ▸ hother), hdisjoint other hother⟩
  · simp only [MemoryPool.construct, Finset.mem_insert, hblocks other, or_assoc]

/-- What an allocation did that returned a block: the object is in a block that was not
live. -/
structure Allocated (memPool : MemoryPool chunks T) (value : T) (block : A) : Prop where
  notLive : block ∉ memPool.live
  result : (memPool.allocate value).1 = some block
  memory : (memPool.allocate value).2.memory = Function.update memPool.memory block (.object value)
  live : (memPool.allocate value).2.live = insert block memPool.live
  valid : (memPool.allocate value).2.Valid

/-- Allocation takes a block off the free list, or a chunk of the underlying pool, or fails. -/
theorem Valid.allocate_or_fail (hvalid : memPool.Valid) (value : T) :
    memPool.allocate value = (none, memPool) ∨ ∃ block, memPool.Allocated value block := by
  obtain ⟨hsize, ⟨free, hfree, hnodup, hdisjoint, hblocks⟩, hdouble⟩ := hvalid
  cases hhead : memPool.head with
  | none =>
      rw [hhead] at hfree
      cases hfree
      cases hmalloc : chunks.malloc memPool.pool with
      | none =>
          left
          simp [MemoryPool.allocate, hsize, hhead, hmalloc]
      | some chunk =>
          obtain ⟨obj, pool⟩ := chunk
          have hfresh := chunks.malloc_fresh _ _ _ hmalloc
          have houtstanding := chunks.outstanding_malloc _ _ _ hmalloc
          have hresult : memPool.allocate value =
              (some obj, { memPool with pool := pool }.construct obj value) := by
            simp [MemoryPool.allocate, hsize, hhead, hmalloc]
          have hnotLive : obj ∉ memPool.live := fun hlive => hfresh ((hblocks obj).mpr (.inl hlive))
          refine .inr ⟨obj, hnotLive, ?_, ?_, ?_, ?_⟩ <;> rw [hresult]
          · rfl
          · rfl
          refine Valid.construct [] hsize hdouble (by rw [hhead]; exact .nil) .nil (by simp)
            (by simp) fun other => ?_
          simp [houtstanding, hblocks other]
  | some block =>
      rw [hhead] at hfree
      obtain _ | @⟨_, next, rest, hlink, hrest⟩ := hfree
      obtain ⟨hnotRest, hnodupRest⟩ := List.nodup_cons.mp hnodup
      have hresult : memPool.allocate value =
          (some block, { memPool with head := next }.construct block value) := by
        simp [MemoryPool.allocate, hsize, hhead, hlink, Block.next]
      refine .inr ⟨block, hdisjoint block (by simp), ?_, ?_, ?_, ?_⟩ <;> rw [hresult]
      · rfl
      · rfl
      refine Valid.construct rest hsize hdouble hrest hnodupRest
        (fun other hother => hdisjoint other (by simp [hother])) hnotRest fun other => ?_
      rw [hblocks other, List.mem_cons]
      tauto

/-- Allocation constructs the object in a block that was not live. -/
theorem Valid.allocate (hvalid : memPool.Valid) (hchunks : chunks.Unlimited) (value : T) :
    ∃ block, block ∉ memPool.live ∧ (memPool.allocate value).1 = some block ∧
      (memPool.allocate value).2.memory = Function.update memPool.memory block (.object value) ∧
      (memPool.allocate value).2.live = insert block memPool.live ∧
      (memPool.allocate value).2.Valid := by
  rcases hvalid.allocate_or_fail value with hfail | ⟨block, h⟩
  · -- The pool that never runs dry does not fail.
    cases hhead : memPool.head with
    | none =>
        obtain ⟨chunk, hmalloc⟩ := Option.ne_none_iff_exists'.mp (hchunks memPool.pool)
        simp [MemoryPool.allocate, hvalid.poolSize, hhead, hmalloc] at hfail
    | some block => simp [MemoryPool.allocate, hvalid.poolSize, hhead] at hfail
  · exact ⟨block, h.notLive, h.result, h.memory, h.live, h.valid⟩

/-- Deallocation of a live block puts it on the free list. -/
theorem Valid.deallocate (hvalid : memPool.Valid) {obj : A} (hlive : obj ∈ memPool.live) :
    (memPool.deallocate (some obj)).Valid := by
  obtain ⟨hsize, ⟨free, hfree, hnodup, hdisjoint, hblocks⟩, hdouble⟩ := hvalid
  have hnotFree : obj ∉ free := fun hmem => hdisjoint obj hmem hlive
  refine ⟨hsize, ⟨obj :: free, ?_, List.nodup_cons.mpr ⟨hnotFree, hnodup⟩, ?_, ?_⟩, ?_⟩
  · exact .cons (Function.update_self ..) (hfree.update hnotFree _)
  · intro block hblock
    rcases List.mem_cons.mp hblock with rfl | hrest
    · simp [MemoryPool.deallocate]
    · exact fun h => hdisjoint block hrest (Finset.mem_of_mem_erase h)
  · intro block
    simp only [MemoryPool.deallocate, hblocks block, Finset.mem_erase, List.mem_cons]
    by_cases hblock : block = obj
    · simp [hblock, hlive]
    · simp [hblock]
  · simp [MemoryPool.deallocate, hdouble, hlive]

/-- Writing to a live object keeps the pool valid. -/
theorem Valid.modify [Inhabited T] (hvalid : memPool.Valid) {block : A}
    (hlive : block ∈ memPool.live) (change : T → T) : (memPool.modify block change).Valid := by
  obtain ⟨hsize, ⟨free, hfree, hnodup, hdisjoint, hblocks⟩, hdouble⟩ := hvalid
  exact ⟨hsize, ⟨free, hfree.update (fun hmem => hdisjoint block hmem hlive) _, hnodup, hdisjoint,
    hblocks⟩, hdouble⟩

/-- Deallocating distinct live blocks one after the other. -/
theorem Valid.deallocate_foldl {pointers : List (Option A)} (hvalid : memPool.Valid)
    (hnodup : pointers.Nodup)
    (hlive : ∀ pointer ∈ pointers, ∃ block ∈ memPool.live, pointer = some block) :
    (pointers.foldl MemoryPool.deallocate memPool).Valid ∧
      ∀ block, block ∈ (pointers.foldl MemoryPool.deallocate memPool).live ↔
        block ∈ memPool.live ∧ some block ∉ pointers := by
  induction pointers generalizing memPool with
  | nil => simpa using hvalid
  | cons pointer rest ih =>
      obtain ⟨hnotRest, hnodupRest⟩ := List.nodup_cons.mp hnodup
      obtain ⟨first, hfirst, rfl⟩ := hlive pointer (by simp)
      have hrest : ∀ pointer ∈ rest,
          ∃ block ∈ (memPool.deallocate (some first)).live, pointer = some block := by
        intro pointer hpointer
        obtain ⟨block, hblock, rfl⟩ := hlive pointer (by simp [hpointer])
        refine ⟨block, Finset.mem_erase.mpr ⟨fun heq => hnotRest (heq ▸ hpointer), hblock⟩, rfl⟩
      obtain ⟨hvalidRest, hmem⟩ := ih (hvalid.deallocate hfirst) hnodupRest hrest
      refine ⟨hvalidRest, fun block => ?_⟩
      rw [List.foldl_cons, hmem block]
      simp only [MemoryPool.deallocate, Finset.mem_erase, List.mem_cons, Option.some.injEq, not_or]
      tauto

/-! ## Reading through pointers -/

section Deref

variable [Inhabited T]

/-- What a pointer reads after the memory changed at one block. -/
theorem deref_of_memory_eq {before after : MemoryPool chunks T} {block : A} {value : T}
    (h : after.memory = Function.update before.memory block (.object value)) :
    after.deref = Function.update before.deref block value := by
  funext other
  by_cases heq : other = block
  · subst heq
    simp [deref, h, Block.value]
  · simp [deref, h, Function.update_of_ne heq]

theorem deref_modify (memPool : MemoryPool chunks T) (block : A) (change : T → T) :
    (memPool.modify block change).deref =
      Function.update memPool.deref block (change (memPool.deref block)) :=
  deref_of_memory_eq rfl

theorem deref_deallocate_of_ne {obj block : A} (h : block ≠ obj) :
    (memPool.deallocate (some obj)).deref block = memPool.deref block := by
  simp [deref, MemoryPool.deallocate, Function.update_of_ne h]

end Deref

end MemoryPool

end CryptoBot.Common

/-
# The fixed pool of objects

`MemPool` keeps a vector of blocks, each with a flag that says whether it is
free, and the index of the block that the next allocation takes.  An allocation
looks for the block after it at once, while a deallocation and a reset only
write flags.  A failed `ASSERT` ends the process, and is an error here, with the
text that it prints.

A pointer is the index of its block.  The state of a run has a ghost field, the
blocks between their allocation and their deallocation; a reset ends the life of
all of them.

The order book of the trade engine and the responses on the bus live in such
pools.
-/

import Mathlib.Data.Finset.Card
import CryptoBot.Math.CyclicSearch
import CryptoBot.Math.Machine

namespace CryptoBot.Common

open CryptoBot.Math

universe ut

/-- Why a call does not return. -/
inductive Abort
  | assertion (message : String)
  | outOfRange
  | running
  deriving DecidableEq, Repr

/-- `ASSERT`. -/
def assert (condition : Bool) (message : String) : Except Abort PUnit.{ut + 1} :=
  if condition then .ok ⟨⟩ else .error (.assertion message)

@[simp]
theorem assert_true (message : String) : assert true message = .ok ⟨⟩ := rfl

@[simp]
theorem ok_bind {α β : Type ut} (value : α) (next : α → Except Abort β) :
    (Except.ok value >>= next) = next value := rfl

structure ObjectBlock (T : Type ut) where
  object : T
  isFree : Bool := true
  deriving DecidableEq, Repr

structure MemPool (T : Type ut) where
  store : List (ObjectBlock T)
  nextFreeIndex : Nat := 0
  deriving DecidableEq, Repr

namespace MemPool

variable {T : Type ut}

def new [Inhabited T] (numElems : Nat) : MemPool T where
  store := List.replicate numElems ⟨default, true⟩

variable (pool : MemPool T)

/-- `store_[index]`. -/
def blockAt (index : Nat) : Except Abort (ObjectBlock T) :=
  match pool.store[index]? with
  | some block => .ok block
  | none => .error .outOfRange

def isFree (index : Nat) : Bool := pool.store[index]?.any ObjectBlock.isFree

/-- The loop of `updateNextFreeIndex`, for as many turns as there is fuel. -/
def search (fuel : Nat) : SearchResult :=
  cyclicSearch pool.isFree pool.store.length pool.nextFreeIndex fuel pool.nextFreeIndex

/-- Find the next available free block to be used for the next allocation. -/
def updateNextFreeIndex : Except Abort (MemPool T) :=
  match pool.search pool.store.length with
  | .found index => .ok { pool with nextFreeIndex := index }
  | .exhausted => .error (.assertion "Memory Pool out of space.")
  | .running => .error .running

/-- Placement new in the next free block, which is in use from then on. -/
def construct (value : T) : MemPool T :=
  { pool with store := pool.store.set pool.nextFreeIndex ⟨value, false⟩ }

def allocate (value : T) : Except Abort (Nat × MemPool T) := do
  let objBlock ← pool.blockAt pool.nextFreeIndex
  assert objBlock.isFree ("Expected free ObjectBlock at index:" ++ toString pool.nextFreeIndex)
  let next ← (pool.construct value).updateNextFreeIndex
  return (pool.nextFreeIndex, next)

/-- The argument is the distance of the pointer from the first block. -/
def deallocate (elemIndex : Int) : Except Abort (MemPool T) := do
  assert (0 ≤ elemIndex && elemIndex.toNat < pool.store.length)
    "Element being deallocated does not belong to this Memory pool."
  let block ← pool.blockAt elemIndex.toNat
  assert (!block.isFree) ("Expected in-use ObjectBlock at index:" ++ toString elemIndex)
  return { pool with store := pool.store.set elemIndex.toNat { block with isFree := true } }

def reset : MemPool T where
  store := pool.store.map fun block => { block with isFree := true }
  nextFreeIndex := 0

/-! ## Through pointers -/

/-- The object stays in its block until the block is taken again. -/
def deref [Inhabited T] (index : Nat) : T := ((pool.store[index]?).map (·.object)).getD default

def modify (index : Nat) (change : T → T) : MemPool T :=
  { pool with
    store := pool.store.modify index fun block => { block with object := change block.object } }

/-- The block is marked as in use. -/
def InUse (index : Nat) : Prop := (pool.store[index]?).any (fun block => !block.isFree) = true

instance (index : Nat) : Decidable (pool.InUse index) := inferInstanceAs (Decidable (_ = true))

/-- The pool behind a deallocation.  A failed assertion leaves no pool to speak
of; the old one stands in for it. -/
def deallocated (index : Nat) : MemPool T := (pool.deallocate index).toOption.getD pool

/-! ## Reading the flags -/

variable {pool}

theorem isFree_new [Inhabited T] {numElems index : Nat} (h : index < numElems) :
    (new numElems : MemPool T).isFree index := by
  simp [isFree, new, h]

/-- The flags after a block was written. -/
theorem isFree_set {index : Nat} (hlt : index < pool.store.length) (block : ObjectBlock T)
    (other : Nat) :
    { pool with store := pool.store.set index block }.isFree other =
      if other = index then block.isFree else pool.isFree other := by
  by_cases hother : other = index
  · rw [hother, if_pos rfl, isFree, List.getElem?_set_self hlt, Option.any_some]
  · rw [if_neg hother, isFree, List.getElem?_set_ne (Ne.symm hother), isFree]

@[simp]
theorem length_construct (value : T) :
    (pool.construct value).store.length = pool.store.length :=
  List.length_set

theorem isFree_construct (hlt : pool.nextFreeIndex < pool.store.length) (value : T) (index : Nat) :
    (pool.construct value).isFree index =
      if index = pool.nextFreeIndex then false else pool.isFree index :=
  isFree_set hlt ⟨value, false⟩ index

theorem isFree_reset {index : Nat} (h : index < pool.store.length) : pool.reset.isFree index := by
  simp [isFree, reset, h]

/-! ## When a call returns -/

/-- With a free block at the next index, only the search may fail. -/
theorem allocate_of_isFree (h : pool.isFree pool.nextFreeIndex) (value : T) :
    pool.allocate value = (pool.construct value).updateNextFreeIndex.map
      fun next => (pool.nextFreeIndex, next) := by
  rw [isFree, Option.any_eq_true] at h
  obtain ⟨block, hblock, hfree⟩ := h
  rw [allocate, blockAt, hblock]
  simp only [ok_bind, hfree, assert_true]
  rfl

theorem exists_error_of_not_isFree (h : ¬ pool.isFree pool.nextFreeIndex) (value : T) :
    ∃ abort, pool.allocate value = .error abort := by
  rw [allocate, blockAt]
  cases hblock : pool.store[pool.nextFreeIndex]? with
  | none => exact ⟨_, rfl⟩
  | some block =>
      have hused : block.isFree = false := by simpa [isFree, hblock] using h
      rw [ok_bind, hused]
      exact ⟨_, rfl⟩

/-- A block in use is marked as free, and nothing else changes. -/
theorem deallocate_of_used {index : Nat} {block : ObjectBlock T}
    (hblock : pool.store[index]? = some block) (hused : block.isFree = false) :
    pool.deallocate index =
      .ok { pool with store := pool.store.set index { block with isFree := true } } := by
  have hlt : index < pool.store.length := (List.getElem?_eq_some_iff.mp hblock).1
  have hrange : (decide (0 ≤ (index : Int)) && decide (index < pool.store.length)) = true := by
    simp [hlt]
  rw [deallocate, Int.toNat_natCast, blockAt, hblock, hrange, assert_true, ok_bind, ok_bind, hused]
  rfl

/-- A pointer from outside or to a free block ends the process. -/
theorem exists_error_of_not_used {index : Nat}
    (h : ∀ block, pool.store[index]? = some block → block.isFree) :
    ∃ abort, pool.deallocate index = .error abort := by
  rw [deallocate, Int.toNat_natCast]
  by_cases hlt : index < pool.store.length
  · have hblock := List.getElem?_eq_getElem hlt
    have hrange : (decide (0 ≤ (index : Int)) && decide (index < pool.store.length)) = true := by
      simp [hlt]
    rw [hrange, assert_true, ok_bind, blockAt, hblock, ok_bind, h _ hblock]
    exact ⟨_, rfl⟩
  · have hrange : (decide (0 ≤ (index : Int)) && decide (index < pool.store.length)) = false := by
      simp [hlt]
    rw [hrange]
    exact ⟨_, rfl⟩

/-! ## Objects and their blocks -/

theorem inUse_iff {index : Nat} :
    pool.InUse index ↔ ∃ block, pool.store[index]? = some block ∧ block.isFree = false := by
  simp [InUse, Option.any_eq_true]

theorem not_inUse_new [Inhabited T] (numElems index : Nat) :
    ¬ (new numElems : MemPool T).InUse index := by
  rw [InUse, new, List.getElem?_replicate]
  split <;> simp

/-- The search moves the index and nothing else. -/
theorem updateNextFreeIndex_eq_ok {after : MemPool T} (h : pool.updateNextFreeIndex = .ok after) :
    ∃ next, after = { pool with nextFreeIndex := next } := by
  rw [updateNextFreeIndex] at h
  cases hsearch : pool.search pool.store.length with
  | found next =>
      rw [hsearch] at h
      cases h
      exact ⟨next, rfl⟩
  | exhausted => simp [hsearch] at h
  | running => simp [hsearch] at h

/-- An allocation constructs the object in a block that was free. -/
theorem allocate_eq_ok [Inhabited T] {value : T} {index : Nat} {after : MemPool T}
    (h : pool.allocate value = .ok (index, after)) :
    ¬ pool.InUse index ∧ after.deref = Function.update pool.deref index value ∧
      ∀ other, after.InUse other ↔ other = index ∨ pool.InUse other := by
  have hfree : pool.isFree pool.nextFreeIndex := by
    by_contra hused
    obtain ⟨abort, herror⟩ := exists_error_of_not_isFree hused value
    rw [herror] at h
    cases h
  obtain ⟨block, hblock, hblockFree⟩ := (Option.any_eq_true _ _).mp hfree
  have hrange : pool.nextFreeIndex < pool.store.length :=
    (List.getElem?_eq_some_iff.mp hblock).1
  rw [allocate_of_isFree hfree] at h
  cases hsearch : (pool.construct value).updateNextFreeIndex with
  | error abort =>
      rw [hsearch] at h
      cases h
  | ok searched =>
      rw [hsearch] at h
      cases h
      obtain ⟨next, rfl⟩ := updateNextFreeIndex_eq_ok hsearch
      refine ⟨by simp [InUse, hblock, hblockFree], ?_, fun other => ?_⟩
      · funext other
        by_cases hother : other = pool.nextFreeIndex
        · subst hother
          simp [deref, construct, hrange]
        · simp [deref, construct, List.getElem?_set_ne (Ne.symm hother),
            Function.update_of_ne hother]
      · by_cases hother : other = pool.nextFreeIndex
        · subst hother
          simp [InUse, construct, hrange]
        · simp [InUse, construct, List.getElem?_set_ne (Ne.symm hother), hother]

theorem deref_modify [Inhabited T] {index : Nat} (h : pool.InUse index) (change : T → T) :
    (pool.modify index change).deref =
      Function.update pool.deref index (change (pool.deref index)) := by
  obtain ⟨block, hblock, -⟩ := inUse_iff.mp h
  funext other
  by_cases hother : other = index
  · subst hother
    simp [deref, modify, hblock]
  · simp [deref, modify, Ne.symm hother, Function.update_of_ne hother]

@[simp]
theorem inUse_modify (index : Nat) (change : T → T) (other : Nat) :
    (pool.modify index change).InUse other ↔ pool.InUse other := by
  simp only [InUse, modify, List.getElem?_modify]
  cases pool.store[other]? with
  | none => simp
  | some block => by_cases heq : index = other <;> simp [heq]

/-- A deallocation changes the flag of one block at most. -/
theorem deallocated_eq (index : Nat) :
    pool.deallocated index = { pool with
      store := pool.store.modify index fun block => { block with isFree := true } } := by
  rw [deallocated]
  by_cases hused : pool.InUse index
  · obtain ⟨block, hblock, hfree⟩ := inUse_iff.mp hused
    rw [deallocate_of_used hblock hfree, Except.toOption, Option.getD_some,
      List.modify_eq_set_getElem?]
    simp [hblock]
  · have hfree (block : ObjectBlock T) (hblock : pool.store[index]? = some block) :
        block.isFree := by simpa [InUse, hblock] using hused
    obtain ⟨abort, herror⟩ := exists_error_of_not_used hfree
    rw [herror, Except.toOption, Option.getD_none, List.modify_eq_set_getElem?]
    cases hblock : pool.store[index]? with
    | none => simp
    | some block =>
        have hsame : { block with isFree := true } = block := by rw [← hfree block hblock]
        obtain ⟨hlt, rfl⟩ := List.getElem?_eq_some_iff.mp hblock
        simp [hsame]

@[simp]
theorem deref_deallocated [Inhabited T] (index : Nat) :
    (pool.deallocated index).deref = pool.deref := by
  funext other
  simp only [deref, deallocated_eq, List.getElem?_modify]
  cases pool.store[other]? with
  | none => simp
  | some block => by_cases heq : index = other <;> simp [heq]

@[simp]
theorem inUse_deallocated (index other : Nat) :
    (pool.deallocated index).InUse other ↔ other ≠ index ∧ pool.InUse other := by
  simp only [InUse, deallocated_eq, List.getElem?_modify]
  by_cases heq : other = index
  · subst heq
    cases pool.store[other]? <;> simp
  · simp [heq, Ne.symm heq]

/-! ## How long the pool lasts -/

/-- The next block is free, and at most `used` of the blocks are in use. -/
structure Ready (pool : MemPool T) (size used : Nat) : Prop where
  size : pool.store.length = size
  next : pool.isFree pool.nextFreeIndex
  count : pool.store.countP (fun block => !block.isFree) ≤ used

theorem ready_new [Inhabited T] {numElems : Nat} (h : 0 < numElems) :
    (new numElems : MemPool T).Ready numElems 0 where
  size := List.length_replicate
  next := isFree_new h
  count := by simp [new, List.countP_replicate]

theorem exists_isFree_of_count
    (h : pool.store.countP (fun block => !block.isFree) < pool.store.length) :
    ∃ index < pool.store.length, pool.isFree index := by
  by_contra hnone
  push Not at hnone
  refine absurd (List.countP_eq_length.mpr fun block hmem => ?_) (Nat.ne_of_lt h)
  obtain ⟨index, hindex, rfl⟩ := List.mem_iff_getElem.mp hmem
  simpa [isFree, hindex] using hnone index hindex

/-- The search finds a free block if there is one. -/
theorem exists_updateNextFreeIndex (hindex : pool.nextFreeIndex < pool.store.length)
    (hfree : ∃ index < pool.store.length, pool.isFree index) :
    ∃ next, pool.updateNextFreeIndex = .ok { pool with nextFreeIndex := next } ∧
      pool.isFree next := by
  obtain ⟨index, hlt, hgood⟩ := hfree
  have hsearch : (pool.search pool.store.length).Correct pool.isFree pool.store.length :=
    cyclicSearch_correct hindex le_rfl
  rw [updateNextFreeIndex]
  cases hresult : pool.search pool.store.length with
  | found next =>
      rw [hresult] at hsearch
      exact ⟨next, rfl, hsearch.2⟩
  | exhausted =>
      rw [hresult] at hsearch
      rw [hsearch index hlt] at hgood
      cases hgood
  | running =>
      rw [hresult] at hsearch
      exact hsearch.elim

/-- An allocation that leaves a free block succeeds. -/
theorem Ready.allocate {size used : Nat} (h : pool.Ready size used) (hused : used + 1 < size)
    (value : T) :
    ∃ index after, pool.allocate value = .ok (index, after) ∧ after.Ready size (used + 1) := by
  obtain ⟨block, hblock, hfree⟩ := (Option.any_eq_true _ _).mp h.next
  have hindex : pool.nextFreeIndex < pool.store.length := (List.getElem?_eq_some_iff.mp hblock).1
  have hsize : (pool.construct value).store.length = size := by rw [length_construct, h.size]
  have hcount : (pool.construct value).store.countP (fun block => !block.isFree) ≤ used + 1 := by
    have hbefore := h.count
    rw [construct, List.countP_set hindex]
    simp only [Bool.not_false, if_true]
    exact Nat.succ_le_succ ((Nat.sub_le _ _).trans hbefore)
  obtain ⟨next, hok, hnext⟩ := exists_updateNextFreeIndex
    (show (pool.construct value).nextFreeIndex < _ by rwa [length_construct])
    (exists_isFree_of_count (by omega))
  refine ⟨pool.nextFreeIndex, { pool.construct value with nextFreeIndex := next }, ?_,
    hsize, hnext, hcount⟩
  rw [allocate_of_isFree h.next, hok]
  rfl

theorem Ready.mono {size used more : Nat} (h : pool.Ready size used) (hle : used ≤ more) :
    pool.Ready size more :=
  ⟨h.size, h.next, h.count.trans hle⟩

/-- Marking no further block as in use keeps the pool ready. -/
theorem Ready.modify_store {size used : Nat} (h : pool.Ready size used) (index : Nat)
    {change : ObjectBlock T → ObjectBlock T}
    (hchange : ∀ block, block.isFree = true → (change block).isFree = true) :
    { pool with store := pool.store.modify index change }.Ready size used where
  size := by rw [List.length_modify, h.size]
  next := by
    obtain ⟨block, hblock, hfree⟩ := (Option.any_eq_true _ _).mp h.next
    by_cases heq : index = pool.nextFreeIndex
    · simp [isFree, heq, hblock, hchange block hfree]
    · simp [isFree, heq, hblock, hfree]
  count := by
    refine Nat.le_trans ?_ h.count
    generalize pool.store = store
    induction store generalizing index with
    | nil => simp
    | cons block rest ih =>
        cases index with
        | zero =>
            rw [List.modify_zero_cons, List.countP_cons, List.countP_cons]
            cases hfree : block.isFree with
            | true => simp [hchange block hfree]
            | false => cases (change block).isFree <;> simp
        | succ index => simpa [List.countP_cons] using ih index

theorem Ready.deallocated {size used : Nat} (h : pool.Ready size used) (index : Nat) :
    (pool.deallocated index).Ready size used := by
  rw [deallocated_eq]
  exact h.modify_store index fun _ _ => rfl

theorem Ready.modify {size used : Nat} (h : pool.Ready size used) (index : Nat)
    (change : T → T) : (pool.modify index change).Ready size used :=
  h.modify_store index fun _ hfree => hfree

end MemPool

/-! ## Runs -/

/-- A pool with its live blocks. -/
structure PoolState (T : Type ut) where
  pool : MemPool T
  live : Finset Nat

inductive PoolCall (T : Type ut)
  | allocate (value : T)
  | deallocate (elemIndex : Int)
  | reset
  deriving DecidableEq, Repr

def PoolCall.isAllocate {T : Type ut} : PoolCall T → Bool
  | allocate _ => true
  | _ => false

def PoolCall.isDeallocate {T : Type ut} : PoolCall T → Bool
  | deallocate _ => true
  | _ => false

namespace PoolState

variable {T : Type ut} (state : PoolState T)

def step : PoolCall T → Except Abort (PoolState T)
  | .allocate value => do
      let (index, pool) ← state.pool.allocate value
      return ⟨pool, insert index state.live⟩
  | .deallocate elemIndex => do
      let pool ← state.pool.deallocate elemIndex
      return ⟨pool, state.live.erase elemIndex.toNat⟩
  | .reset => return ⟨state.pool.reset, ∅⟩

/-- Only live blocks are deallocated. -/
def Legal : PoolCall T → Prop
  | .deallocate elemIndex => ∃ index ∈ state.live, elemIndex = index
  | _ => True

instance (call : PoolCall T) : Decidable (state.Legal call) :=
  match call with
  | .allocate _ => .isTrue trivial
  | .deallocate elemIndex => inferInstanceAs (Decidable (∃ index ∈ state.live, elemIndex = index))
  | .reset => .isTrue trivial

/-- The state after the calls on a new pool, unless one of them ended the process. -/
def run [Inhabited T] (numElems : Nat) (calls : List (PoolCall T)) : Except Abort (PoolState T) :=
  calls.foldlM PoolState.step ⟨.new numElems, ∅⟩

theorem run_concat_ok_iff [Inhabited T] {numElems : Nat} {calls : List (PoolCall T)}
    {call : PoolCall T} {next : PoolState T} :
    run numElems (calls ++ [call]) = .ok next ↔
      ∃ state, run numElems calls = .ok state ∧ state.step call = .ok next := by
  simp only [run, List.foldlM_append, List.foldlM_cons, List.foldlM_nil, bind_pure]
  cases calls.foldlM PoolState.step ⟨.new numElems, ∅⟩ with
  | error abort => simp [bind, Except.bind]
  | ok state => simp

/-- Every call of the run is legal in the state it is made in. -/
def LegalRun [Inhabited T] (numElems : Nat) (calls : List (PoolCall T)) : Prop :=
  EveryStep (fun before call => ∀ state ∈ (run numElems before).toOption, state.Legal call) calls

instance [Inhabited T] (numElems : Nat) (calls : List (PoolCall T)) :
    Decidable (LegalRun numElems calls) :=
  inferInstanceAs (Decidable (EveryStep _ calls))

/-! ## Validity -/

/-- The next free block is in range and free, and the live blocks are those in use. -/
structure Valid (numElems : Nat) (state : PoolState T) : Prop where
  size : state.pool.store.length = numElems
  next_lt : state.pool.nextFreeIndex < numElems
  next_free : state.pool.isFree state.pool.nextFreeIndex
  live : ∀ index, index ∈ state.live ↔ index < numElems ∧ state.pool.isFree index = false

variable {numElems : Nat} {state}

theorem valid_new [Inhabited T] (h : 0 < numElems) :
    Valid numElems (⟨.new numElems, ∅⟩ : PoolState T) where
  size := List.length_replicate
  next_lt := h
  next_free := MemPool.isFree_new h
  live index := by
    refine iff_of_false (Finset.notMem_empty index) ?_
    rintro ⟨hlt, hused⟩
    rw [MemPool.isFree_new hlt] at hused
    cases hused

theorem Valid.next_lt_length (hvalid : state.Valid numElems) :
    state.pool.nextFreeIndex < state.pool.store.length := by
  rw [hvalid.size]
  exact hvalid.next_lt

theorem Valid.notMem_live (hvalid : state.Valid numElems) {index : Nat}
    (hfree : state.pool.isFree index) : index ∉ state.live := by
  rw [hvalid.live, hfree]
  simp

theorem Valid.live_lt_length (hvalid : state.Valid numElems) {index : Nat}
    (hlive : index ∈ state.live) : index < state.pool.store.length := by
  rw [hvalid.size]
  exact ((hvalid.live index).mp hlive).1

/-- The search after the next free block was taken. -/
theorem Valid.search (hvalid : state.Valid numElems) (value : T) {fuel : Nat}
    (hfuel : numElems ≤ fuel) :
    ((state.pool.construct value).search fuel).Correct (state.pool.construct value).isFree
      numElems := by
  rw [MemPool.search, MemPool.length_construct, hvalid.size]
  exact cyclicSearch_correct hvalid.next_lt hfuel

/-- An allocation takes the next free block and finds another one, or there is no other and
the process ends. -/
theorem Valid.allocate (hvalid : state.Valid numElems) (value : T) :
    (∃ next < numElems, next ≠ state.pool.nextFreeIndex ∧ state.pool.isFree next ∧
      state.pool.allocate value = .ok (state.pool.nextFreeIndex,
        { state.pool.construct value with nextFreeIndex := next })) ∨
    ((∀ index < numElems, index ≠ state.pool.nextFreeIndex → state.pool.isFree index = false) ∧
      state.pool.allocate value = .error (.assertion "Memory Pool out of space.")) := by
  have hlt := hvalid.next_lt_length
  have hsearch := hvalid.search value le_rfl
  rw [MemPool.allocate_of_isFree hvalid.next_free, MemPool.updateNextFreeIndex,
    MemPool.length_construct, hvalid.size]
  cases hresult : (state.pool.construct value).search numElems with
  | found next =>
      rw [hresult, SearchResult.Correct, MemPool.isFree_construct hlt] at hsearch
      obtain ⟨hnext, hgood⟩ := hsearch
      split at hgood
      · cases hgood
      · rename_i hne
        exact .inl ⟨next, hnext, hne, hgood, rfl⟩
  | exhausted =>
      rw [hresult] at hsearch
      refine .inr ⟨fun index hindex hne => ?_, rfl⟩
      have hused := hsearch index hindex
      rwa [MemPool.isFree_construct hlt, if_neg hne] at hused
  | running =>
      rw [hresult] at hsearch
      exact hsearch.elim

/-- A deallocation of a live block sets its flag and does nothing else. -/
theorem Valid.deallocate (hvalid : state.Valid numElems) {index : Nat}
    (hlive : index ∈ state.live) :
    ∃ block, state.pool.store[index]? = some block ∧
      state.pool.deallocate index =
        .ok { state.pool with
          store := state.pool.store.set index { block with isFree := true } } := by
  have hused := ((hvalid.live index).mp hlive).2
  have hblock := List.getElem?_eq_getElem (hvalid.live_lt_length hlive)
  rw [MemPool.isFree, hblock, Option.any_some] at hused
  exact ⟨_, hblock, MemPool.deallocate_of_used hblock hused⟩

theorem Valid.step (hvalid : state.Valid numElems) {call : PoolCall T}
    (hlegal : state.Legal call) {next : PoolState T} (hstep : state.step call = .ok next) :
    next.Valid numElems := by
  have hlt := hvalid.next_lt_length
  cases call with
  | allocate value =>
      rcases hvalid.allocate value with ⟨index, hindex, hne, hfree, hok⟩ | ⟨-, herror⟩
      · rw [PoolState.step, hok] at hstep
        cases hstep
        refine ⟨?_, hindex, ?_, fun other => ?_⟩
        · rw [MemPool.length_construct, hvalid.size]
        · change (state.pool.construct value).isFree index
          rw [MemPool.isFree_construct hlt, if_neg hne]
          exact hfree
        · change other ∈ insert state.pool.nextFreeIndex state.live ↔
            other < numElems ∧ (state.pool.construct value).isFree other = false
          rw [MemPool.isFree_construct hlt, Finset.mem_insert, hvalid.live]
          by_cases hother : other = state.pool.nextFreeIndex
          · simp [hother, hvalid.next_lt]
          · simp [hother]
      · rw [PoolState.step, herror] at hstep
        cases hstep
  | deallocate elemIndex =>
      obtain ⟨index, hlive, rfl⟩ := hlegal
      obtain ⟨block, hstore, hok⟩ := hvalid.deallocate hlive
      have hindex := hvalid.live_lt_length hlive
      rw [PoolState.step, hok] at hstep
      cases hstep
      refine ⟨?_, hvalid.next_lt, ?_, fun other => ?_⟩
      · rw [List.length_set, hvalid.size]
      · rw [MemPool.isFree_set hindex]
        split
        · rfl
        · exact hvalid.next_free
      · change other ∈ state.live.erase index ↔ _
        rw [MemPool.isFree_set hindex, Finset.mem_erase, hvalid.live]
        by_cases hother : other = index
        · simp [hother]
        · simp [hother]
  | reset =>
      cases hstep
      have hpos : 0 < state.pool.store.length := Nat.zero_lt_of_lt hlt
      refine ⟨?_, hvalid.size ▸ hpos, MemPool.isFree_reset hpos, fun other => ?_⟩
      · rw [MemPool.reset, List.length_map, hvalid.size]
      · refine iff_of_false (Finset.notMem_empty other) ?_
        rintro ⟨hother, hused⟩
        rw [MemPool.isFree_reset (hvalid.size ▸ hother)] at hused
        cases hused

/-- Every state that a legal run reaches is valid. -/
theorem valid_run [Inhabited T] (hsize : 0 < numElems) {calls : List (PoolCall T)}
    (hlegal : LegalRun numElems calls) {state : PoolState T}
    (hrun : run numElems calls = .ok state) : state.Valid numElems := by
  induction calls using List.reverseRecOn generalizing state with
  | nil =>
      cases hrun
      exact valid_new hsize
  | append_singleton calls call ih =>
      obtain ⟨hinit, hlast⟩ := EveryStep.concat_iff.mp hlegal
      obtain ⟨before, hbefore, hstep⟩ := run_concat_ok_iff.mp hrun
      rw [hbefore] at hlast
      exact (ih hinit hbefore).step (hlast before rfl) hstep

/-! ## No block is handed out twice -/

/-- What the operations do in a state that a run has reached. -/
structure NeverAliases (numElems : Nat) (state : PoolState T) : Prop where
  nextInRange : state.pool.nextFreeIndex < numElems
  nextFree : state.pool.isFree state.pool.nextFreeIndex
  /-- The only assertion that may fail is the one of the search. -/
  allocate : ∀ value,
    (∃ index pool, state.pool.allocate value = .ok (index, pool) ∧ index < numElems ∧
      index ∉ state.live) ∨
    state.pool.allocate value = .error (.assertion "Memory Pool out of space.")
  deallocate : ∀ index ∈ state.live, ∃ pool, state.pool.deallocate index = .ok pool ∧
    pool.isFree index ∧ pool.nextFreeIndex = state.pool.nextFreeIndex ∧
    ∀ other, other ≠ index → pool.store[other]? = state.pool.store[other]?
  /-- The loop ends within as many turns as there are blocks: with a free block, or because
  there is none. -/
  search : ∀ value fuel, numElems ≤ fuel →
    (∃ index < numElems, (state.pool.construct value).isFree index ∧
      (state.pool.construct value).search fuel = .found index) ∨
    ((∀ index < numElems, (state.pool.construct value).isFree index = false) ∧
      (state.pool.construct value).search fuel = .exhausted)

theorem Valid.neverAliases (hvalid : state.Valid numElems) : state.NeverAliases numElems where
  nextInRange := hvalid.next_lt
  nextFree := hvalid.next_free
  allocate value := by
    rcases hvalid.allocate value with ⟨_, _, _, _, hok⟩ | ⟨_, herror⟩
    · exact .inl ⟨_, _, hok, hvalid.next_lt, hvalid.notMem_live hvalid.next_free⟩
    · exact .inr herror
  deallocate index hlive := by
    obtain ⟨block, hstore, hok⟩ := hvalid.deallocate hlive
    refine ⟨_, hok, ?_, rfl, fun other hother => List.getElem?_set_ne hother.symm⟩
    rw [MemPool.isFree_set (hvalid.live_lt_length hlive), if_pos rfl]
  search value fuel hfuel := by
    have hsearch := hvalid.search value hfuel
    cases hresult : (state.pool.construct value).search fuel with
    | found index =>
        rw [hresult] at hsearch
        exact .inl ⟨index, hsearch.1, hsearch.2, rfl⟩
    | exhausted =>
        rw [hresult] at hsearch
        exact .inr ⟨hsearch, rfl⟩
    | running =>
        rw [hresult] at hsearch
        exact hsearch.elim

/-- In every run that has not ended the process, the next allocation gets a block that is not
live, or fails for lack of space. -/
theorem neverAliases_run [Inhabited T] (hsize : 0 < numElems) {calls : List (PoolCall T)}
    (hlegal : LegalRun numElems calls) {state : PoolState T}
    (hrun : run numElems calls = .ok state) : state.NeverAliases numElems :=
  (valid_run hsize hlegal hrun).neverAliases

theorem neverAliases_after_deallocate :
    ∃ state, run 2 [PoolCall.allocate 7, .deallocate 0] = .ok state ∧ state.NeverAliases 2 := by
  have hlegal : LegalRun 2 [PoolCall.allocate 7, .deallocate 0] := by decide
  exact ⟨_, rfl, neverAliases_run (by decide) hlegal rfl⟩

/-! ## The capacity -/

/-- There is a free block beside the next one as long as fewer than all but one are live. -/
theorem Valid.exists_other_free_iff (hvalid : state.Valid numElems) :
    (∃ next < numElems, next ≠ state.pool.nextFreeIndex ∧ state.pool.isFree next) ↔
      state.live.card + 1 < numElems := by
  let taken := insert state.pool.nextFreeIndex state.live
  have htaken : taken.card = state.live.card + 1 :=
    Finset.card_insert_of_notMem (hvalid.notMem_live hvalid.next_free)
  have hsubset : taken ⊆ Finset.range numElems := by
    intro index hindex
    rw [Finset.mem_range]
    rcases Finset.mem_insert.mp hindex with rfl | hlive
    · exact hvalid.next_lt
    · exact ((hvalid.live index).mp hlive).1
  constructor
  · rintro ⟨next, hnext, hne, hfree⟩
    have hmem : next ∉ taken := by
      rw [Finset.mem_insert, not_or]
      exact ⟨hne, hvalid.notMem_live hfree⟩
    have hssubset : taken ⊂ Finset.range numElems := by
      apply Finset.ssubset_iff_subset_ne.mpr
      exact ⟨hsubset, fun heq => hmem (heq ▸ Finset.mem_range.mpr hnext)⟩
    have hcard := Finset.card_lt_card hssubset
    rwa [htaken, Finset.card_range] at hcard
  · intro hlt
    rw [← htaken, ← Finset.card_range numElems] at hlt
    obtain ⟨next, hnext, hmem⟩ := Finset.exists_mem_notMem_of_card_lt_card hlt
    rw [Finset.mem_insert, not_or, hvalid.live] at hmem
    rw [Finset.mem_range] at hnext
    refine ⟨next, hnext, hmem.1, ?_⟩
    by_contra hused
    exact hmem.2 ⟨hnext, by simpa using hused⟩

/-- Only an allocation ends the process, when it takes the last block but one. -/
theorem Valid.step_ok_iff (hvalid : state.Valid numElems) {call : PoolCall T}
    (hlegal : state.Legal call) :
    (∃ next, state.step call = .ok next) ↔
      (call.isAllocate → state.live.card + 1 < numElems) := by
  cases call with
  | allocate value =>
      rcases hvalid.allocate value with ⟨next, hnext, hne, hfree, hok⟩ | ⟨hused, herror⟩
      · refine iff_of_true ⟨_, by rw [PoolState.step, hok]; rfl⟩ fun _ => ?_
        exact hvalid.exists_other_free_iff.mp ⟨next, hnext, hne, hfree⟩
      · refine iff_of_false ?_ fun hspace => ?_
        · rintro ⟨next, hstep⟩
          rw [PoolState.step, herror] at hstep
          cases hstep
        · obtain ⟨next, hnext, hne, hfree⟩ := hvalid.exists_other_free_iff.mpr (hspace rfl)
          rw [hused next hnext hne] at hfree
          cases hfree
  | deallocate elemIndex =>
      obtain ⟨index, hlive, rfl⟩ := hlegal
      obtain ⟨block, -, hok⟩ := hvalid.deallocate hlive
      refine iff_of_true ⟨_, by rw [PoolState.step, hok]; rfl⟩ ?_
      rintro ⟨⟩
  | reset =>
      refine iff_of_true ⟨_, rfl⟩ ?_
      rintro ⟨⟩

/-- The number of live objects after the calls. -/
def liveCount (calls : List (PoolCall T)) : Nat :=
  calls.countP PoolCall.isAllocate - calls.countP PoolCall.isDeallocate

/-- Without a reset, the calls alone tell how many blocks are live. -/
theorem card_live_add_deallocated [Inhabited T] (hsize : 0 < numElems) {calls : List (PoolCall T)}
    (hlegal : LegalRun numElems calls) (hreset : PoolCall.reset ∉ calls) {state : PoolState T}
    (hrun : run numElems calls = .ok state) :
    state.live.card + calls.countP PoolCall.isDeallocate =
      calls.countP PoolCall.isAllocate := by
  induction calls using List.reverseRecOn generalizing state with
  | nil =>
      cases hrun
      rfl
  | append_singleton calls call ih =>
      obtain ⟨hinit, hlast⟩ := EveryStep.concat_iff.mp hlegal
      obtain ⟨before, hbefore, hstep⟩ := run_concat_ok_iff.mp hrun
      rw [hbefore] at hlast
      rw [List.mem_append, not_or] at hreset
      have hcount := ih hinit hreset.1 hbefore
      have hvalid := valid_run hsize hinit hbefore
      rw [List.countP_append, List.countP_append, List.countP_singleton, List.countP_singleton]
      cases call with
      | allocate value =>
          rcases hvalid.allocate value with ⟨_, _, _, _, hok⟩ | ⟨_, herror⟩
          · rw [PoolState.step, hok] at hstep
            cases hstep
            change (insert before.pool.nextFreeIndex before.live).card + _ = _
            rw [Finset.card_insert_of_notMem (hvalid.notMem_live hvalid.next_free)]
            simp only [PoolCall.isAllocate, PoolCall.isDeallocate, Bool.false_eq_true, if_false,
              if_true]
            omega
          · rw [PoolState.step, herror] at hstep
            cases hstep
      | deallocate elemIndex =>
          obtain ⟨index, hlive, rfl⟩ := hlast before rfl
          obtain ⟨block, -, hok⟩ := hvalid.deallocate hlive
          rw [PoolState.step, hok] at hstep
          cases hstep
          have hpos : 0 < before.live.card := Finset.card_pos.mpr ⟨index, hlive⟩
          change (before.live.erase index).card + _ = _
          rw [Finset.card_erase_of_mem hlive]
          simp only [PoolCall.isAllocate, PoolCall.isDeallocate, Bool.false_eq_true, if_false,
            if_true]
          omega
      | reset => simp at hreset

theorem card_live [Inhabited T] (hsize : 0 < numElems) {calls : List (PoolCall T)}
    (hlegal : LegalRun numElems calls) (hreset : PoolCall.reset ∉ calls) {state : PoolState T}
    (hrun : run numElems calls = .ok state) : state.live.card = liveCount calls := by
  have hcount := card_live_add_deallocated hsize hlegal hreset hrun
  rw [liveCount]
  omega

/-- A run goes through when no allocation is made with all blocks but one live. -/
theorem run_ok_iff_spare_block [Inhabited T] (hsize : 0 < numElems) {calls : List (PoolCall T)}
    (hlegal : LegalRun numElems calls) (hreset : PoolCall.reset ∉ calls) :
    (∃ state, run numElems calls = .ok state) ↔
      EveryStep (fun before call => call.isAllocate → liveCount before + 1 < numElems) calls := by
  induction calls using List.reverseRecOn with
  | nil => exact iff_of_true ⟨_, rfl⟩ EveryStep.nil
  | append_singleton calls call ih =>
      obtain ⟨hinit, hlast⟩ := EveryStep.concat_iff.mp hlegal
      rw [List.mem_append, not_or] at hreset
      have hstep : ∀ before, run numElems calls = .ok before →
          ((∃ next, before.step call = .ok next) ↔
            (call.isAllocate → liveCount calls + 1 < numElems)) := by
        intro before hbefore
        rw [hbefore] at hlast
        rw [← card_live hsize hinit hreset.1 hbefore]
        exact (valid_run hsize hinit hbefore).step_ok_iff (hlast before rfl)
      rw [EveryStep.concat_iff, ← ih hinit hreset.1]
      simp only [run_concat_ok_iff]
      constructor
      · rintro ⟨next, before, hbefore, hnext⟩
        exact ⟨⟨before, hbefore⟩, (hstep before hbefore).mp ⟨next, hnext⟩⟩
      · rintro ⟨⟨before, hbefore⟩, hspace⟩
        obtain ⟨next, hnext⟩ := (hstep before hbefore).mpr hspace
        exact ⟨next, before, hbefore, hnext⟩

/-- A pool of two serves one object after the other ... -/
theorem run_ok_one_after_other :
    ∃ state, run 2 [PoolCall.allocate 7, .deallocate 0, .allocate 8] = .ok state :=
  (run_ok_iff_spare_block (by decide) (by decide) (by decide)).mpr (by decide)

/-- ... but not two at a time. -/
theorem run_two_of_two :
    let calls := [PoolCall.allocate 7, PoolCall.allocate 8]
    LegalRun 2 calls ∧ PoolCall.reset ∉ calls ∧
      (∀ count ≤ calls.length, liveCount (calls.take count) ≤ 2) ∧
      ∃ abort, run 2 calls = .error abort := by
  refine ⟨by decide, by decide, by decide, .assertion "Memory Pool out of space.", rfl⟩

end PoolState

end CryptoBot.Common

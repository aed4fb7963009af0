/-
# The memory pool under interleaving

`MemoryPool` takes the calls of `MemoryPoolThreadSafety` one at a time.  The code
does not: `Allocate` loads the head of the free list, reads the link in the block
it found and exchanges the head in one attempt, and `Deallocate` writes the head
it loaded into the block and repeats the exchange until it succeeds.  Between
these accesses any other thread may run.

Here a step is one access to shared memory, so a list of steps is an
interleaving of the calls of any number of threads.  The exchange compares
pointers only.  A head that was taken, recycled and put back in the meantime
looks unchanged, while the link read before is stale; nothing in the code
prevents it.  What does is that blocks leave the list in one thread only: then
the block that was loaded is still on the list at the exchange.  The pools are
used that way, each allocating in the strand of the component that owns it, and
`exclusive_iff_subsingleton` says that it is needed.

`pool_.malloc` is one step, as if it were locked.
-/

import CryptoBot.Common.MemoryPool
import CryptoBot.Math.Machine
import Mathlib.Data.Set.Subsingleton

namespace CryptoBot.Common

open CryptoBot.Math

universe ua ut ui

/-- Where a thread stands between two accesses to the pool. -/
inductive PoolThread (A : Type ua) (T : Type ut)
  | idle
  /-- `Allocate`: a head was loaded that is not null. -/
  | loaded (block : A) (value : T)
  /-- `Allocate`: the link in the block was read. -/
  | followed (block : A) (next : Option A) (value : T)
  /-- `Allocate`: no block came from the free list. -/
  | exhausted (value : T)
  /-- `Deallocate`: the object is destroyed and a head was loaded. -/
  | detached (obj : A) (head : Option A)
  /-- `Deallocate`: that head was written into the block. -/
  | linked (obj : A) (head : Option A)
  deriving DecidableEq, Repr

namespace PoolThread

variable {A : Type ua} {T : Type ut}

/-- The block that the thread is deallocating. -/
def releasing : PoolThread A T → Option A
  | detached obj _ | linked obj _ => some obj
  | idle | loaded .. | followed .. | exhausted .. => none

end PoolThread

/-- A step of one thread: a call with its first access, or the next access of the
call it is in.  Where the link is read in a block that holds an object, `word` is
what is found there. -/
inductive PoolAccess (ι : Type ui) (A : Type ua) (T : Type ut)
  | allocate (thread : ι) (value : T)
  | deallocate (thread : ι) (obj : Option A)
  | advance (thread : ι) (word : Option A)
  deriving DecidableEq, Repr

/-- The pool and what each thread is doing in it. -/
structure LockFreePool {A : Type ua} [DecidableEq A] (chunks : ChunkPool A) (T : Type ut)
    (ι : Type ui) where
  memPool : MemoryPool chunks T
  threads : ι → PoolThread A T := fun _ => .idle

namespace MemoryPool.FreeList

variable {A : Type ua} {T : Type ut} {memory : A → Block A T} {head : Option A} {free : List A}
variable {block : A}

/-- The block at the head of the list, with the link that is in it. -/
theorem exists_of_head (h : FreeList memory head free) (hhead : head = some block) :
    ∃ next rest, free = block :: rest ∧ memory block = .link next ∧
      FreeList memory next rest := by
  cases h with
  | nil => cases hhead
  | cons hlink hrest =>
      cases hhead
      exact ⟨_, _, rfl, hlink, hrest⟩

theorem exists_link_of_mem (h : FreeList memory head free) (hmem : block ∈ free) :
    ∃ next, memory block = .link next := by
  induction h with
  | nil => cases hmem
  | cons hlink hrest ih =>
      rcases List.mem_cons.mp hmem with rfl | hmem
      · exact ⟨_, hlink⟩
      · exact ih hmem

end MemoryPool.FreeList

namespace LockFreePool

variable {A : Type ua} [DecidableEq A] {chunks : ChunkPool A} {T : Type ut}
variable {ι : Type ui}

section Code

variable [DecidableEq ι] (pool : LockFreePool chunks T ι)

/-- The thread goes on from another point. -/
def goto (thread : ι) (point : PoolThread A T) : LockFreePool chunks T ι :=
  { pool with threads := Function.update pool.threads thread point }

/-- `*static_cast<void **>(block)`. -/
def readLink (block : A) (word : Option A) : Option A :=
  match pool.memPool.memory block with
  | .link next => next
  | .object _ => word

def allocate (thread : ι) (value : T) : LockFreePool chunks T ι × List (ι × Option A) :=
  match pool.threads thread with
  | .idle =>
      if pool.memPool.poolSize = 0 then (pool, [(thread, none)])
      else
        match pool.memPool.head with
        | some block => (pool.goto thread (.loaded block value), [])
        | none => (pool.goto thread (.exhausted value), [])
  | _ => (pool, [])

/-- The object is destroyed before the head is loaded. -/
def deallocate (thread : ι) (obj : Option A) : LockFreePool chunks T ι :=
  match pool.threads thread, obj with
  | .idle, some obj =>
      { pool with memPool := { pool.memPool with live := pool.memPool.live.erase obj } }.goto thread
        (.detached obj pool.memPool.head)
  | _, _ => pool

def advance (thread : ι) (word : Option A) : LockFreePool chunks T ι × List (ι × Option A) :=
  match pool.threads thread with
  | .idle => (pool, [])
  | .loaded block value =>
      (pool.goto thread (.followed block (pool.readLink block word) value), [])
  | .followed block next value =>
      if pool.memPool.head = some block then
        ({ pool with
            memPool := { pool.memPool with head := next }.construct block value }.goto thread .idle,
          [(thread, some block)])
      else (pool.goto thread (.exhausted value), [])
  | .exhausted value =>
      match chunks.malloc pool.memPool.pool with
      | some (obj, rest) =>
          ({ pool with
              memPool := { pool.memPool with pool := rest }.construct obj value }.goto thread .idle,
            [(thread, some obj)])
      | none => (pool.goto thread .idle, [(thread, none)])
  | .detached obj head =>
      ({ pool with
          memPool := { pool.memPool with
            memory := Function.update pool.memPool.memory obj (.link head) } }.goto thread
        (.linked obj head), [])
  | .linked obj head =>
      if pool.memPool.head = head then
        ({ pool with memPool := { pool.memPool with head := some obj } }.goto thread .idle, [])
      else (pool.goto thread (.detached obj pool.memPool.head), [])

/-- One step, with the pointer that an `Allocate` returned in it. -/
def step : PoolAccess ι A T → LockFreePool chunks T ι × List (ι × Option A)
  | .allocate thread value => pool.allocate thread value
  | .deallocate thread obj => (pool.deallocate thread obj, [])
  | .advance thread word => pool.advance thread word

end Code

/-- The interleavings of the calls on a new pool. -/
def machine (chunks : ChunkPool A) (T : Type ut) (ι : Type ui) [DecidableEq ι] (poolSize : Nat) :
    Machine (LockFreePool chunks T ι) (PoolAccess ι A T) (ι × Option A) where
  init := { memPool := .new chunks T poolSize }
  step := step

/-! ## What is expected of the calls -/

/-- Only live blocks are deallocated. -/
def Legal (pool : LockFreePool chunks T ι) : PoolAccess ι A T → Prop
  | .deallocate _ (some obj) => obj ∈ pool.memPool.live
  | _ => True

instance (pool : LockFreePool chunks T ι) : DecidablePred pool.Legal
  | .deallocate _ (some obj) => inferInstanceAs (Decidable (obj ∈ pool.memPool.live))
  | .deallocate _ none => .isTrue trivial
  | .allocate _ _ => .isTrue trivial
  | .advance _ _ => .isTrue trivial

/-- A block that a client holds or that a call is giving back. -/
def InUse (pool : LockFreePool chunks T ι) (block : A) : Prop :=
  block ∈ pool.memPool.live ∨ ∃ thread, (pool.threads thread).releasing = some block

/-- Every step of the run is legal. -/
def LegalRun [DecidableEq ι] (chunks : ChunkPool A) (poolSize : Nat)
    (accesses : List (PoolAccess ι A T)) : Prop :=
  EveryStep (fun before access => ((machine chunks T ι poolSize).run before).Legal access) accesses

/-- `Allocate` is called by some of the threads only. -/
def AllocatesBy (allocators : Set ι) (accesses : List (PoolAccess ι A T)) : Prop :=
  ∀ access ∈ accesses, ∀ thread value, access = .allocate thread value → thread ∈ allocators

/-- No block is handed out while it is in use. -/
def Exclusive [DecidableEq ι] (chunks : ChunkPool A) (poolSize : Nat)
    (accesses : List (PoolAccess ι A T)) : Prop :=
  EveryStep (fun before access => ∀ thread block,
    (thread, some block) ∈ (machine chunks T ι poolSize).emitted before access →
      ¬ ((machine chunks T ι poolSize).run before).InUse block) accesses

/-! ## One thread allocates -/

/-- What a thread relies on at the point where it stands, given the free list.  Only `owner` is
inside of `Allocate`, and the block that it has loaded is still on the list. -/
def Holds (owner : ι) (memPool : MemoryPool chunks T) (free : List A) (thread : ι) :
    PoolThread A T → Prop
  | .idle => True
  | .loaded block _ => thread = owner ∧ block ∈ free
  | .followed block next _ => thread = owner ∧ block ∈ free ∧ memPool.memory block = .link next
  | .exhausted _ => thread = owner
  | .detached obj _ => obj ∉ memPool.live ∧ obj ∉ free
  | .linked obj head => obj ∉ memPool.live ∧ obj ∉ free ∧ memPool.memory obj = .link head

/-- The blocks of `free` are the free list, and every block of the pool is on it or in use. -/
structure Sound (owner : ι) (pool : LockFreePool chunks T ι) (free : List A) : Prop where
  chain : MemoryPool.FreeList pool.memPool.memory pool.memPool.head free
  nodup : free.Nodup
  notLive : ∀ block ∈ free, block ∉ pool.memPool.live
  holds : ∀ thread, Holds owner pool.memPool free thread (pool.threads thread)
  distinct : ∀ first second obj, (pool.threads first).releasing = some obj →
    (pool.threads second).releasing = some obj → first = second
  outstanding : ∀ block, block ∈ chunks.outstanding pool.memPool.pool ↔
    pool.InUse block ∨ block ∈ free

theorem Holds.of_releasing {owner thread : ι} {memPool : MemoryPool chunks T} {free : List A}
    {point : PoolThread A T} {obj : A} (h : Holds owner memPool free thread point)
    (hobj : point.releasing = some obj) : obj ∉ memPool.live ∧ obj ∉ free := by
  cases point with
  | detached other head =>
      cases hobj
      exact h
  | linked other head =>
      cases hobj
      exact ⟨h.1, h.2.1⟩
  | idle => cases hobj
  | loaded block value => cases hobj
  | followed block next value => cases hobj
  | exhausted value => cases hobj

/-- Some thread other than this one is deallocating the block. -/
def ReleasedElsewhere (pool : LockFreePool chunks T ι) (thread : ι) (block : A) : Prop :=
  ∃ other, other ≠ thread ∧ (pool.threads other).releasing = some block

theorem inUse_iff (pool : LockFreePool chunks T ι) (thread : ι) (block : A) :
    pool.InUse block ↔ block ∈ pool.memPool.live ∨
      (pool.threads thread).releasing = some block ∨ pool.ReleasedElsewhere thread block := by
  constructor
  · rintro (hlive | ⟨other, hother⟩)
    · exact .inl hlive
    · by_cases heq : other = thread
      · exact .inr (.inl (heq ▸ hother))
      · exact .inr (.inr ⟨other, heq, hother⟩)
  · rintro (hlive | hthread | ⟨other, -, hother⟩)
    · exact .inl hlive
    · exact .inr ⟨thread, hthread⟩
    · exact .inr ⟨other, hother⟩

namespace Sound

variable {owner : ι} {pool : LockFreePool chunks T ι} {free : List A} {thread : ι}

/-- The threads that are not inside of `Allocate` rely on the block they deallocate only. -/
theorem others (h : Sound owner pool free) (howner : thread = owner)
    {memPool : MemoryPool chunks T} {rest : List A}
    (hblocks : ∀ other obj, other ≠ thread → (pool.threads other).releasing = some obj →
      obj ∉ memPool.live ∧ obj ∉ rest ∧ memPool.memory obj = pool.memPool.memory obj) :
    ∀ other, other ≠ thread → Holds owner memPool rest other (pool.threads other) := by
  intro other hother
  have hbefore := h.holds other
  have hafter := hblocks other
  cases hpoint : pool.threads other with
  | idle => trivial
  | loaded block value =>
      rw [hpoint] at hbefore
      exact (hother (hbefore.1.trans howner.symm)).elim
  | followed block next value =>
      rw [hpoint] at hbefore
      exact (hother (hbefore.1.trans howner.symm)).elim
  | exhausted value =>
      rw [hpoint] at hbefore
      exact (hother (hbefore.trans howner.symm)).elim
  | detached obj head =>
      rw [hpoint] at hafter
      obtain ⟨hlive, hrest, -⟩ := hafter obj hother rfl
      exact ⟨hlive, hrest⟩
  | linked obj head =>
      rw [hpoint] at hafter hbefore
      obtain ⟨hlive, hrest, hmemory⟩ := hafter obj hother rfl
      exact ⟨hlive, hrest, hmemory.trans hbefore.2.2⟩

/-- A chunk of the underlying pool is in no use and not on the list. -/
theorem notMem_of_malloc (h : Sound owner pool free) {obj : A} {rest : chunks.Carrier}
    (hmalloc : chunks.malloc pool.memPool.pool = some (obj, rest)) :
    ¬ pool.InUse obj ∧ obj ∉ free :=
  not_or.mp (mt (h.outstanding obj).mpr (chunks.malloc_fresh _ _ _ hmalloc))

end Sound

variable [DecidableEq ι]

/-- The pool after a step of one thread. -/
def moved (pool : LockFreePool chunks T ι) (memPool : MemoryPool chunks T) (thread : ι)
    (point : PoolThread A T) : LockFreePool chunks T ι :=
  { pool with memPool }.goto thread point

theorem threads_moved (pool : LockFreePool chunks T ι) (memPool : MemoryPool chunks T)
    (thread other : ι) (point : PoolThread A T) :
    (pool.moved memPool thread point).threads other =
      if other = thread then point else pool.threads other := by
  simp [moved, goto, Function.update_apply]

theorem inUse_moved (pool : LockFreePool chunks T ι) (memPool : MemoryPool chunks T) (thread : ι)
    (point : PoolThread A T) (block : A) :
    (pool.moved memPool thread point).InUse block ↔ block ∈ memPool.live ∨
      point.releasing = some block ∨ pool.ReleasedElsewhere thread block := by
  have helsewhere : (pool.moved memPool thread point).ReleasedElsewhere thread block ↔
      pool.ReleasedElsewhere thread block := by
    apply exists_congr
    intro other
    apply and_congr_right
    intro hother
    rw [threads_moved, if_neg hother]
  rw [inUse_iff _ thread, helsewhere, threads_moved, if_pos rfl]
  rfl

namespace Sound

variable {owner : ι} {pool : LockFreePool chunks T ι} {free : List A} {thread : ι}

theorem new (owner : ι) (poolSize : Nat) :
    Sound owner (machine chunks T ι poolSize).init [] where
  chain := .nil
  nodup := .nil
  notLive := by simp
  holds _ := trivial
  distinct := by simp [machine, PoolThread.releasing]
  outstanding := by
    simp [machine, MemoryPool.new, chunks.outstanding_new, InUse, PoolThread.releasing]

/-- A step changes the memory, the list and the point of one thread.  It is enough that the other
threads can rely on what they did, and that the blocks in use are accounted for. -/
theorem moved (h : Sound owner pool free) {memPool : MemoryPool chunks T} {rest : List A}
    {point : PoolThread A T}
    (hchain : MemoryPool.FreeList memPool.memory memPool.head rest) (hnodup : rest.Nodup)
    (hnotLive : ∀ block ∈ rest, block ∉ memPool.live)
    (hpoint : Holds owner memPool rest thread point)
    (hothers : ∀ other, other ≠ thread → Holds owner memPool rest other (pool.threads other))
    (hreleasing : ∀ obj, point.releasing = some obj →
      (pool.threads thread).releasing = some obj ∨ obj ∈ pool.memPool.live)
    (houtstanding : ∀ block, block ∈ chunks.outstanding memPool.pool ↔
      (block ∈ memPool.live ∨ point.releasing = some block ∨
        pool.ReleasedElsewhere thread block) ∨ block ∈ rest) :
    Sound owner (pool.moved memPool thread point) rest := by
  -- Two threads at the same block: the block that this thread holds now it held before, or a
  -- client did.
  have hdistinct : ∀ other obj, other ≠ thread → point.releasing = some obj →
      (pool.threads other).releasing ≠ some obj := by
    intro other obj hne hobj hother
    rcases hreleasing obj hobj with hbefore | hlive
    · exact hne (h.distinct other thread obj hother hbefore)
    · exact ((h.holds other).of_releasing hother).1 hlive
  constructor
  case chain => exact hchain
  case nodup => exact hnodup
  case notLive => exact hnotLive
  case holds =>
      intro other
      rw [threads_moved]
      split_ifs with hother
      · rw [hother]
        exact hpoint
      · exact hothers other hother
  case distinct =>
      intro first second obj hfirst hsecond
      rw [threads_moved] at hfirst hsecond
      split_ifs at hfirst hsecond with hf hs hs
      · rw [hf, hs]
      · exact (hdistinct second obj hs hfirst hsecond).elim
      · exact (hdistinct first obj hf hsecond hfirst).elim
      · exact h.distinct first second obj hfirst hsecond
  case outstanding =>
      intro block
      rw [inUse_moved]
      exact houtstanding block

/-- A thread goes on without writing anything, with the block that it is deallocating. -/
theorem goto (h : Sound owner pool free) {point : PoolThread A T}
    (hsame : point.releasing = (pool.threads thread).releasing)
    (hpoint : Holds owner pool.memPool free thread point) :
    Sound owner (pool.goto thread point) free := by
  apply h.moved h.chain h.nodup h.notLive hpoint (fun other _ => h.holds other)
  · intro obj hobj
    exact .inl (hsame ▸ hobj)
  · intro block
    rw [h.outstanding block, inUse_iff pool thread, hsame]

/-- The exchange in `Allocate` succeeds. -/
theorem take (h : Sound owner pool free) {block : A} {next : Option A} {value : T}
    (hpoint : pool.threads thread = .followed block next value)
    (hhead : pool.memPool.head = some block) :
    ∃ rest, Sound owner
        (pool.moved ({ pool.memPool with head := next }.construct block value) thread .idle) rest ∧
      ¬ pool.InUse block := by
  have hholds := h.holds thread
  rw [hpoint] at hholds
  obtain ⟨howner, hmem, hlink⟩ := hholds
  obtain ⟨found, rest, rfl, hfound, hrest⟩ := h.chain.exists_of_head hhead
  obtain rfl : found = next := by simpa [hlink] using hfound.symm
  obtain ⟨hnotRest, hnodup⟩ := List.nodup_cons.mp h.nodup
  have hnotUsed : ¬ pool.InUse block := by
    rintro (hlive | ⟨other, hother⟩)
    · exact h.notLive block hmem hlive
    · exact ((h.holds other).of_releasing hother).2 hmem
  refine ⟨rest, h.moved ?_ hnodup ?_ trivial (h.others howner ?_) (by simp [PoolThread.releasing])
    ?_, hnotUsed⟩
  · exact hrest.update hnotRest _
  · intro other hother
    rw [MemoryPool.construct, Finset.mem_insert, not_or]
    exact ⟨fun heq => hnotRest (heq ▸ hother), h.notLive other (List.mem_cons_of_mem _ hother)⟩
  · intro other obj _ hobj
    obtain ⟨hlive, hfree⟩ := (h.holds other).of_releasing hobj
    obtain ⟨hne, hobjRest⟩ := not_or.mp (mt List.mem_cons.mpr hfree)
    refine ⟨?_, hobjRest, Function.update_of_ne hne _ _⟩
    rw [MemoryPool.construct, Finset.mem_insert, not_or]
    exact ⟨hne, hlive⟩
  · intro other
    have hbefore := h.outstanding other
    rw [inUse_iff pool thread, hpoint, List.mem_cons] at hbefore
    simp only [MemoryPool.construct, Finset.mem_insert, PoolThread.releasing] at hbefore ⊢
    rw [hbefore]
    simp only [or_assoc, or_left_comm]

/-- `Allocate` gets a chunk of the underlying pool. -/
theorem fetch (h : Sound owner pool free) {obj : A} {rest : chunks.Carrier} {value : T}
    (hpoint : pool.threads thread = .exhausted value)
    (hmalloc : chunks.malloc pool.memPool.pool = some (obj, rest)) :
    Sound owner (pool.moved ({ pool.memPool with pool := rest }.construct obj value) thread .idle)
      free := by
  have howner := h.holds thread
  rw [hpoint] at howner
  obtain ⟨hnotUsed, hnotFree⟩ := h.notMem_of_malloc hmalloc
  apply h.moved
  · exact h.chain.update hnotFree _
  · exact h.nodup
  · intro other hother
    rw [MemoryPool.construct, Finset.mem_insert, not_or]
    exact ⟨fun heq => hnotFree (heq ▸ hother), h.notLive other hother⟩
  · trivial
  · apply h.others howner
    intro other released _ hreleased
    obtain ⟨hlive, hfree⟩ := (h.holds other).of_releasing hreleased
    have hne : released ≠ obj := fun heq => hnotUsed (.inr ⟨other, heq ▸ hreleased⟩)
    refine ⟨?_, hfree, Function.update_of_ne hne _ _⟩
    rw [MemoryPool.construct, Finset.mem_insert, not_or]
    exact ⟨hne, hlive⟩
  · simp [PoolThread.releasing]
  · intro other
    have hbefore := h.outstanding other
    rw [inUse_iff pool thread, hpoint] at hbefore
    simp only [MemoryPool.construct, Finset.mem_insert, PoolThread.releasing,
      chunks.outstanding_malloc _ _ _ hmalloc] at hbefore ⊢
    rw [hbefore]
    simp only [or_assoc]

/-- `Deallocate` destroys the object. -/
theorem detach (h : Sound owner pool free) {obj : A} (hidle : pool.threads thread = .idle)
    (hlive : obj ∈ pool.memPool.live) :
    Sound owner (pool.moved { pool.memPool with live := pool.memPool.live.erase obj } thread
      (.detached obj pool.memPool.head)) free := by
  have herase : ∀ block, block ∉ pool.memPool.live → block ∉ pool.memPool.live.erase obj :=
    fun block hblock hmem => hblock (Finset.mem_of_mem_erase hmem)
  apply h.moved
  · exact h.chain
  · exact h.nodup
  · exact fun block hblock => herase block (h.notLive block hblock)
  · exact ⟨Finset.notMem_erase obj _, fun hmem => h.notLive obj hmem hlive⟩
  · intro other _
    have hbefore := h.holds other
    cases hpoint : pool.threads other <;> rw [hpoint] at hbefore
    case idle => trivial
    case loaded block value => exact hbefore
    case followed block next value => exact hbefore
    case exhausted value => exact hbefore
    case detached released head => exact ⟨herase released hbefore.1, hbefore.2⟩
    case linked released head => exact ⟨herase released hbefore.1, hbefore.2⟩
  · intro released hreleased
    cases hreleased
    exact .inr hlive
  · intro block
    have hbefore := h.outstanding block
    rw [inUse_iff pool thread, hidle] at hbefore
    simp only [Finset.mem_erase, PoolThread.releasing, Option.some.injEq] at hbefore ⊢
    rw [hbefore]
    by_cases heq : block = obj
    · simp [heq, hlive]
    · simp [heq, Ne.symm heq]

/-- `Deallocate` writes the head into the block. -/
theorem link (h : Sound owner pool free) {obj : A} {head : Option A}
    (hpoint : pool.threads thread = .detached obj head) :
    Sound owner (pool.moved
      { pool.memPool with memory := Function.update pool.memPool.memory obj (.link head) } thread
      (.linked obj head)) free := by
  have hholds := h.holds thread
  rw [hpoint] at hholds
  obtain ⟨hlive, hnotFree⟩ := hholds
  have hmine : (pool.threads thread).releasing = some obj := by rw [hpoint]; rfl
  apply h.moved
  · exact h.chain.update hnotFree _
  · exact h.nodup
  · exact h.notLive
  · exact ⟨hlive, hnotFree, Function.update_self ..⟩
  · intro other hother
    have hbefore := h.holds other
    have hne : ∀ released, (pool.threads other).releasing = some released → released ≠ obj :=
      fun released hreleased heq => hother (h.distinct other thread obj (heq ▸ hreleased) hmine)
    cases hthread : pool.threads other <;> rw [hthread] at hbefore hne
    case idle => trivial
    case loaded block value => exact hbefore
    case followed block next value =>
        have hblock : block ≠ obj := fun heq => hnotFree (heq ▸ hbefore.2.1)
        exact ⟨hbefore.1, hbefore.2.1, (Function.update_of_ne hblock _ _).trans hbefore.2.2⟩
    case exhausted value => exact hbefore
    case detached released later => exact hbefore
    case linked released later =>
        exact ⟨hbefore.1, hbefore.2.1,
          (Function.update_of_ne (hne released rfl) _ _).trans hbefore.2.2⟩
  · intro released hreleased
    cases hreleased
    exact .inl hmine
  · intro block
    have hbefore := h.outstanding block
    rwa [inUse_iff pool thread, hpoint] at hbefore

/-- The exchange in `Deallocate` succeeds. -/
theorem push (h : Sound owner pool free) {obj : A} {head : Option A}
    (hpoint : pool.threads thread = .linked obj head) (hhead : pool.memPool.head = head) :
    Sound owner (pool.moved { pool.memPool with head := some obj } thread .idle) (obj :: free) := by
  have hholds := h.holds thread
  rw [hpoint] at hholds
  obtain ⟨hlive, hnotFree, hlink⟩ := hholds
  have hmine : (pool.threads thread).releasing = some obj := by rw [hpoint]; rfl
  apply h.moved
  · exact .cons hlink (hhead ▸ h.chain)
  · exact List.nodup_cons.mpr ⟨hnotFree, h.nodup⟩
  · intro block hblock
    rcases List.mem_cons.mp hblock with rfl | hblock
    · exact hlive
    · exact h.notLive block hblock
  · trivial
  · intro other hother
    have hbefore := h.holds other
    have hne : ∀ released, (pool.threads other).releasing = some released → released ≠ obj :=
      fun released hreleased heq => hother (h.distinct other thread obj (heq ▸ hreleased) hmine)
    cases hthread : pool.threads other <;> rw [hthread] at hbefore hne
    case idle => trivial
    case loaded block value => exact ⟨hbefore.1, List.mem_cons_of_mem _ hbefore.2⟩
    case followed block next value =>
        exact ⟨hbefore.1, List.mem_cons_of_mem _ hbefore.2.1, hbefore.2.2⟩
    case exhausted value => exact hbefore
    case detached released later =>
        exact ⟨hbefore.1, List.not_mem_cons_of_ne_of_not_mem (hne released rfl) hbefore.2⟩
    case linked released later =>
        exact ⟨hbefore.1, List.not_mem_cons_of_ne_of_not_mem (hne released rfl) hbefore.2.1,
          hbefore.2.2⟩
  · simp [PoolThread.releasing]
  · intro block
    have hbefore := h.outstanding block
    rw [inUse_iff pool thread, hpoint] at hbefore
    simp only [PoolThread.releasing, Option.some.injEq, List.mem_cons] at hbefore ⊢
    rw [hbefore]
    simp [or_assoc, or_left_comm, eq_comm]

/-- One access of the thread to the pool. -/
theorem advance (h : Sound owner pool free) (thread : ι) (word : Option A) :
    (∃ rest, Sound owner (pool.advance thread word).1 rest) ∧
      ∀ caller block, (caller, some block) ∈ (pool.advance thread word).2 → ¬ pool.InUse block := by
  have hholds := h.holds thread
  cases hpoint : pool.threads thread with
  | idle =>
      simp only [LockFreePool.advance, hpoint]
      exact ⟨⟨free, h⟩, by simp⟩
  | loaded block value =>
      rw [hpoint] at hholds
      obtain ⟨howner, hmem⟩ := hholds
      obtain ⟨next, hlink⟩ := h.chain.exists_link_of_mem hmem
      simp only [LockFreePool.advance, hpoint, readLink, hlink]
      refine ⟨⟨free, h.goto ?_ ⟨howner, hmem, hlink⟩⟩, by simp⟩
      rw [hpoint]
      rfl
  | followed block next value =>
      rw [hpoint] at hholds
      simp only [LockFreePool.advance, hpoint]
      split_ifs with hhead
      · obtain ⟨rest, hrest, hnotUsed⟩ := h.take hpoint hhead
        refine ⟨⟨rest, hrest⟩, ?_⟩
        intro caller other hother
        simp only [List.mem_singleton, Prod.mk.injEq, Option.some.injEq] at hother
        rw [hother.2]
        exact hnotUsed
      · refine ⟨⟨free, h.goto ?_ hholds.1⟩, by simp⟩
        rw [hpoint]
        rfl
  | exhausted value =>
      simp only [LockFreePool.advance, hpoint]
      cases hmalloc : chunks.malloc pool.memPool.pool with
      | none =>
          refine ⟨⟨free, h.goto ?_ trivial⟩, by simp⟩
          rw [hpoint]
          rfl
      | some chunk =>
          refine ⟨⟨free, h.fetch hpoint hmalloc⟩, ?_⟩
          intro caller other hother
          simp only [List.mem_singleton, Prod.mk.injEq, Option.some.injEq] at hother
          rw [hother.2]
          exact (h.notMem_of_malloc hmalloc).1
  | detached obj head =>
      simp only [LockFreePool.advance, hpoint]
      exact ⟨⟨free, h.link hpoint⟩, by simp⟩
  | linked obj head =>
      simp only [LockFreePool.advance, hpoint]
      split_ifs with hhead
      · exact ⟨⟨obj :: free, h.push hpoint hhead⟩, by simp⟩
      · rw [hpoint] at hholds
        refine ⟨⟨free, h.goto ?_ ⟨hholds.1, hholds.2.1⟩⟩, by simp⟩
        rw [hpoint]
        rfl

/-- The first access of `Allocate`, in the thread that may call it. -/
theorem allocate (h : Sound owner pool free) (howner : thread = owner) (value : T) :
    Sound owner (pool.allocate thread value).1 free ∧
      ∀ caller block, (caller, some block) ∉ (pool.allocate thread value).2 := by
  cases hpoint : pool.threads thread with
  | idle =>
      have hidle : (pool.threads thread).releasing = none := by rw [hpoint]; rfl
      simp only [LockFreePool.allocate, hpoint]
      split_ifs
      · exact ⟨h, by simp⟩
      · cases hhead : pool.memPool.head with
        | none => exact ⟨h.goto hidle.symm howner, by simp⟩
        | some block =>
            obtain ⟨next, rest, hfree, -, -⟩ := h.chain.exists_of_head hhead
            exact ⟨h.goto hidle.symm ⟨howner, by simp [hfree]⟩, by simp⟩
  | _ =>
      simp only [LockFreePool.allocate, hpoint]
      exact ⟨h, by simp⟩

theorem deallocate (h : Sound owner pool free) {obj : Option A}
    (hlegal : pool.Legal (.deallocate thread obj)) :
    Sound owner (pool.deallocate thread obj) free := by
  cases obj with
  | none =>
      cases hpoint : pool.threads thread <;> simpa only [LockFreePool.deallocate, hpoint] using h
  | some obj =>
      cases hpoint : pool.threads thread with
      | idle =>
          simp only [LockFreePool.deallocate, hpoint]
          exact h.detach hpoint hlegal
      | _ => simpa only [LockFreePool.deallocate, hpoint] using h

/-- A step keeps the pool sound and hands out no block in use. -/
theorem step (h : Sound owner pool free) {access : PoolAccess ι A T} (hlegal : pool.Legal access)
    (howner : ∀ thread value, access = .allocate thread value → thread = owner) :
    (∃ rest, Sound owner (pool.step access).1 rest) ∧
      ∀ caller block, (caller, some block) ∈ (pool.step access).2 → ¬ pool.InUse block := by
  cases access with
  | allocate thread value =>
      obtain ⟨hsound, hnone⟩ := h.allocate (howner thread value rfl) value
      exact ⟨⟨free, hsound⟩, fun caller block hmem => (hnone caller block hmem).elim⟩
  | deallocate thread obj => exact ⟨⟨free, h.deallocate hlegal⟩, by simp [LockFreePool.step]⟩
  | advance thread word => exact h.advance thread word

end Sound

/-- The pool is sound along every legal interleaving in which one thread allocates. -/
theorem exists_sound {poolSize : Nat} {allocators : Set ι} {owner : ι}
    (howner : ∀ thread ∈ allocators, thread = owner) {accesses : List (PoolAccess ι A T)}
    (hlegal : LegalRun chunks poolSize accesses) (hby : AllocatesBy allocators accesses) :
    ∃ free, Sound owner ((machine chunks T ι poolSize).run accesses) free := by
  induction accesses using List.reverseRecOn with
  | nil => exact ⟨[], .new owner poolSize⟩
  | append_singleton before access ih =>
      obtain ⟨hbefore, hlast⟩ := EveryStep.concat_iff.mp hlegal
      obtain ⟨free, hsound⟩ := ih hbefore fun other hother => hby other (by simp [hother])
      rw [Machine.run_concat]
      refine (hsound.step hlast ?_).1
      intro thread value heq
      exact howner thread (hby access (by simp) thread value heq)

theorem exclusive_of_subsingleton {poolSize : Nat} {allocators : Set ι}
    (hone : allocators.Subsingleton) {accesses : List (PoolAccess ι A T)}
    (hlegal : LegalRun chunks poolSize accesses) (hby : AllocatesBy allocators accesses) :
    Exclusive chunks poolSize accesses := by
  intro before access after heq caller block hmem
  have hlast := hlegal before access after heq
  have hbefore : LegalRun chunks poolSize before := by
    rw [heq] at hlegal
    exact EveryStep.left hlegal
  -- The caller stands in for an owner when nobody allocates.
  obtain ⟨owner, howner⟩ : ∃ owner, ∀ thread ∈ allocators, thread = owner := by
    rcases hone.eq_empty_or_singleton with rfl | ⟨owner, rfl⟩
    · exact ⟨caller, by simp⟩
    · exact ⟨owner, by simp⟩
  obtain ⟨free, hsound⟩ := exists_sound howner hbefore
    fun other hother => hby other (by simp [heq, hother])
  refine (hsound.step hlast ?_).2 caller block hmem
  intro thread value hallocate
  exact howner thread (hby access (by simp [heq]) thread value hallocate)

/-! ## Calls that are not interrupted -/

/-- The accesses of a call of `Allocate`. -/
def allocateCall (thread : ι) (value : T) : List (PoolAccess ι A T) :=
  [.allocate thread value, .advance thread none, .advance thread none]

/-- The accesses of a call of `Deallocate`. -/
def deallocateCall (thread : ι) (obj : A) : List (PoolAccess ι A T) :=
  [.deallocate thread (some obj), .advance thread none, .advance thread none]

section Alone

variable (pool : LockFreePool chunks T ι) {thread : ι}

theorem update_idle (hidle : pool.threads thread = .idle) :
    Function.update pool.threads thread .idle = pool.threads := by
  rw [← hidle, Function.update_eq_self]

/-- A call of `Allocate` that no other thread interrupts is the call of the sequential pool. -/
theorem runFrom_allocateCall (poolSize : Nat) (hidle : pool.threads thread = .idle) (value : T) :
    (machine chunks T ι poolSize).runFrom pool (allocateCall thread value) =
      { pool with memPool := (pool.memPool.allocate value).2 } := by
  simp only [Machine.runFrom, machine, allocateCall, List.foldl_cons, List.foldl_nil, step,
    allocate, hidle, MemoryPool.allocate]
  split_ifs with hsize
  · simp [advance, hidle]
  · cases hhead : pool.memPool.head with
    | none =>
        cases hmalloc : chunks.malloc pool.memPool.pool with
        | none => simp [advance, goto, hmalloc, hidle, update_idle pool hidle]
        | some chunk => simp [advance, goto, hmalloc, hidle, hhead, update_idle pool hidle]
    | some block =>
        cases hmemory : pool.memPool.memory block <;>
          simp [advance, goto, readLink, hmemory, hhead, Block.next, update_idle pool hidle]

theorem runFrom_deallocateCall (poolSize : Nat) (hidle : pool.threads thread = .idle) {obj : A}
    (hlive : obj ∈ pool.memPool.live) :
    (machine chunks T ι poolSize).runFrom pool (deallocateCall thread obj) =
      { pool with memPool := pool.memPool.deallocate (some obj) } := by
  simp [Machine.runFrom, machine, deallocateCall, step, deallocate, hidle, advance, goto,
    MemoryPool.deallocate, hlive, update_idle pool hidle]

end Alone

/-! ## Two threads allocate -/

/-- The pool that a legal interleaving leads to. -/
structure Reaches (allocators : Set ι) (poolSize : Nat) (accesses : List (PoolAccess ι A T))
    (pool : LockFreePool chunks T ι) : Prop where
  legal : LegalRun chunks poolSize accesses
  allocatesBy : AllocatesBy allocators accesses
  run : (machine chunks T ι poolSize).run accesses = pool

namespace Reaches

variable {allocators : Set ι} {poolSize : Nat} {accesses : List (PoolAccess ι A T)}
variable {pool : LockFreePool chunks T ι} {thread : ι}

theorem nil : Reaches allocators poolSize [] (machine chunks T ι poolSize).init where
  legal := EveryStep.nil
  allocatesBy := by simp [AllocatesBy]
  run := rfl

theorem concat (h : Reaches allocators poolSize accesses pool) {access : PoolAccess ι A T}
    (hlegal : pool.Legal access)
    (hby : ∀ thread value, access = .allocate thread value → thread ∈ allocators) :
    Reaches allocators poolSize (accesses ++ [access]) (pool.step access).1 where
  legal := EveryStep.concat_iff.mpr ⟨h.legal, h.run ▸ hlegal⟩
  allocatesBy := by
    intro other hother
    rcases List.mem_append.mp hother with hother | hother
    · exact h.allocatesBy other hother
    · rw [List.mem_singleton.mp hother]
      exact hby
  run := by
    rw [Machine.run_concat, h.run]
    rfl

theorem advance (h : Reaches allocators poolSize accesses pool) (thread : ι) :
    Reaches allocators poolSize (accesses ++ [.advance thread none])
      (pool.advance thread none).1 :=
  h.concat trivial nofun

theorem allocate (h : Reaches allocators poolSize accesses pool) (hthread : thread ∈ allocators)
    (value : T) :
    Reaches allocators poolSize (accesses ++ [.allocate thread value])
      (pool.allocate thread value).1 :=
  h.concat trivial fun _ _ heq => by
    cases heq
    exact hthread

theorem deallocate (h : Reaches allocators poolSize accesses pool) (thread : ι) {obj : A}
    (hlive : obj ∈ pool.memPool.live) :
    Reaches allocators poolSize (accesses ++ [.deallocate thread (some obj)])
      (pool.deallocate thread (some obj)) :=
  h.concat hlive nofun

/-- A call of `Allocate` at a stretch. -/
theorem allocateCall (h : Reaches allocators poolSize accesses pool)
    (hthread : thread ∈ allocators) (hidle : pool.threads thread = .idle) (value : T) :
    Reaches allocators poolSize (accesses ++ allocateCall thread value)
      { pool with memPool := (pool.memPool.allocate value).2 } := by
  have hcall := ((h.allocate hthread value).advance thread).advance thread
  have hrun := runFrom_allocateCall pool poolSize hidle value
  simp only [List.append_assoc, List.cons_append, List.nil_append] at hcall
  exact ⟨hcall.legal, hcall.allocatesBy, hcall.run.trans hrun⟩

/-- A call of `Deallocate` at a stretch. -/
theorem deallocateCall (h : Reaches allocators poolSize accesses pool) (thread : ι)
    (hidle : pool.threads thread = .idle) (obj : A) (hlive : obj ∈ pool.memPool.live) :
    Reaches allocators poolSize (accesses ++ deallocateCall thread obj)
      { pool with memPool := pool.memPool.deallocate (some obj) } := by
  have hcall := ((h.deallocate thread hlive).advance thread).advance thread
  have hrun := runFrom_deallocateCall pool poolSize hidle hlive
  simp only [List.append_assoc, List.cons_append, List.nil_append] at hcall
  exact ⟨hcall.legal, hcall.allocatesBy, hcall.run.trans hrun⟩

end Reaches

/-- The pool after two blocks were allocated and given back. -/
theorem exists_stocked (hchunks : chunks.Unlimited) {poolSize : Nat} (hsize : poolSize ≠ 0)
    {allocators : Set ι} {thread : ι} (hthread : thread ∈ allocators) (value : T) :
    ∃ (accesses : List (PoolAccess ι A T)) (memPool : MemoryPool chunks T) (head next : A),
      Reaches allocators poolSize accesses { memPool } ∧ head ≠ next ∧
        memPool.poolSize ≠ 0 ∧ memPool.head = some head ∧
        memPool.memory head = .link (some next) ∧ memPool.memory next = .link none := by
  obtain ⟨⟨head, taken⟩, hhead⟩ := Option.ne_none_iff_exists'.mp (hchunks chunks.new)
  obtain ⟨⟨next, rest⟩, hnext⟩ := Option.ne_none_iff_exists'.mp (hchunks taken)
  have hne : head ≠ next := by
    intro heq
    apply chunks.malloc_fresh _ _ _ hnext
    rw [← heq, chunks.outstanding_malloc _ _ _ hhead]
    exact Finset.mem_insert_self ..
  let filled := (((MemoryPool.new chunks T poolSize).allocate value).2.allocate value).2
  have hsizeFilled : filled.poolSize ≠ 0 := by
    simp [filled, MemoryPool.allocate, MemoryPool.new, MemoryPool.construct, hsize, hhead, hnext]
  have hheadFilled : filled.head = none := by
    simp [filled, MemoryPool.allocate, MemoryPool.new, MemoryPool.construct, hsize, hhead, hnext]
  have hliveFilled : filled.live = {next, head} := by
    simp [filled, MemoryPool.allocate, MemoryPool.new, MemoryPool.construct, hsize, hhead, hnext]
  have hstart : Reaches allocators poolSize [] (machine chunks T ι poolSize).init := Reaches.nil
  have hboth : Reaches allocators poolSize _ { memPool := filled } :=
    (hstart.allocateCall hthread rfl value).allocateCall hthread rfl value
  have hone := hboth.deallocateCall thread rfl next (by simp [hliveFilled])
  have hnone := hone.deallocateCall thread rfl head
    (by simp [hliveFilled, MemoryPool.deallocate, hne])
  refine ⟨_, _, head, next, hnone, hne, hsizeFilled, rfl, ?_, ?_⟩
  · simp [MemoryPool.deallocate]
  · simp [hheadFilled, MemoryPool.deallocate, hne.symm]

/-- A head that is taken and put back between two accesses of another thread.  The first thread
has read the link of the block at the head; the second takes this block and the next one, and
gives the first of them back.  The exchange of the first thread then makes the other block the
head, which the second thread still has, and which it gets once more. -/
theorem exists_not_exclusive (hchunks : chunks.Unlimited) {poolSize : Nat} (hsize : poolSize ≠ 0)
    [Nonempty T] {allocators : Set ι} {first second : ι} (hfirst : first ∈ allocators)
    (hsecond : second ∈ allocators) (hne : first ≠ second) :
    ∃ accesses : List (PoolAccess ι A T), LegalRun chunks poolSize accesses ∧
      AllocatesBy allocators accesses ∧ ¬ Exclusive chunks poolSize accesses := by
  obtain ⟨value⟩ := ‹Nonempty T›
  obtain ⟨accesses, stocked, head, next, hreach, hdistinct, hstocked, hhead, hlinkHead,
    hlinkNext⟩ := exists_stocked hchunks hsize hsecond value
  have hread : Reaches allocators poolSize
      (accesses ++ [.allocate first value] ++ [.advance first none])
      (goto { memPool := stocked } first (.followed head (some next) value)) := by
    simpa [LockFreePool.advance, LockFreePool.allocate, goto, readLink, hstocked, hhead, hlinkHead]
      using (hreach.allocate hfirst value).advance first
  have hidle : (goto { memPool := stocked } first
      (.followed head (some next) value)).threads second = .idle := by
    simp [goto, hne.symm]
  have hboth := (hread.allocateCall hsecond hidle value).allocateCall hsecond hidle value
  have hgiven := hboth.deallocateCall second hidle head (by
    simp [goto, hstocked, hhead, hlinkHead, hlinkNext, MemoryPool.allocate, MemoryPool.construct,
      Block.next, hdistinct.symm])
  have hagain := ((hgiven.advance first).allocate hsecond value).advance second
  have hlast := hagain.advance second
  refine ⟨_, hlast.legal, hlast.allocatesBy, fun hexclusive => ?_⟩
  refine (EveryStep.concat_iff.mp hexclusive).2 second next ?_ ?_
  · rw [Machine.emitted, hagain.run]
    simp [machine, step, LockFreePool.advance, LockFreePool.allocate, goto, hstocked, hhead,
      hlinkHead, hlinkNext, MemoryPool.allocate, MemoryPool.deallocate, MemoryPool.construct,
      Block.next, readLink, hdistinct.symm]
  · rw [hagain.run]
    simp [LockFreePool.advance, LockFreePool.allocate, goto, hstocked, hhead, hlinkHead, hlinkNext,
      MemoryPool.allocate, MemoryPool.deallocate, MemoryPool.construct, Block.next, readLink,
      hdistinct.symm, InUse]

/-- Blocks are handed out exclusively in all interleavings exactly when at most one thread
allocates. -/
theorem exclusive_iff_subsingleton (hchunks : chunks.Unlimited) {poolSize : Nat}
    (hsize : poolSize ≠ 0) [Nonempty T] (allocators : Set ι) :
    (∀ accesses : List (PoolAccess ι A T), LegalRun chunks poolSize accesses →
        AllocatesBy allocators accesses → Exclusive chunks poolSize accesses) ↔
      allocators.Subsingleton := by
  constructor
  · intro h first hfirst second hsecond
    by_contra hne
    obtain ⟨accesses, hlegal, hby, hnot⟩ :=
      exists_not_exclusive (T := T) hchunks hsize hfirst hsecond hne
    exact hnot (h accesses hlegal hby)
  · exact fun hone accesses hlegal hby => exclusive_of_subsingleton hone hlegal hby

theorem exclusive_counter :
    (∀ accesses : List (PoolAccess (Fin 2) Nat Nat), LegalRun .counter 8 accesses →
        AllocatesBy {0} accesses → Exclusive .counter 8 accesses) ↔
      ({0} : Set (Fin 2)).Subsingleton :=
  exclusive_iff_subsingleton ChunkPool.unlimited_counter (by decide) {0}

/-! ## Between the calls -/

/-- The size of the pool and the record of a double free stay as they are. -/
theorem frame_step (pool : LockFreePool chunks T ι) (access : PoolAccess ι A T) :
    (pool.step access).1.memPool.poolSize = pool.memPool.poolSize ∧
      (pool.step access).1.memPool.doubleFree = pool.memPool.doubleFree := by
  cases access with
  | allocate thread value =>
      simp only [step, allocate]
      split
      · split_ifs
        · exact ⟨rfl, rfl⟩
        · split <;> exact ⟨rfl, rfl⟩
      · exact ⟨rfl, rfl⟩
  | deallocate thread obj =>
      simp only [step, deallocate]
      split <;> exact ⟨rfl, rfl⟩
  | advance thread word =>
      simp only [step, advance]
      split
      · exact ⟨rfl, rfl⟩
      · exact ⟨rfl, rfl⟩
      · split_ifs <;> exact ⟨rfl, rfl⟩
      · split <;> exact ⟨rfl, rfl⟩
      · exact ⟨rfl, rfl⟩
      · split_ifs <;> exact ⟨rfl, rfl⟩

theorem frame_run {poolSize : Nat} (accesses : List (PoolAccess ι A T)) :
    ((machine chunks T ι poolSize).run accesses).memPool.poolSize = poolSize ∧
      ((machine chunks T ι poolSize).run accesses).memPool.doubleFree = false := by
  induction accesses using List.reverseRecOn with
  | nil => exact ⟨rfl, rfl⟩
  | append_singleton before access ih =>
      rw [Machine.run_concat]
      obtain ⟨hsize, hdouble⟩ := frame_step ((machine chunks T ι poolSize).run before) access
      exact ⟨hsize.trans ih.1, hdouble.trans ih.2⟩

/-- When one thread allocates, then at every moment at which no call is under way the pool is
valid in the sense of the sequential model: the free list is a list, no block on it is live, and
no block is lost. -/
theorem valid_of_idle {poolSize : Nat} (hsize : poolSize ≠ 0) (owner : ι)
    (accesses : List (PoolAccess ι A T)) (hlegal : LegalRun chunks poolSize accesses)
    (hby : AllocatesBy {owner} accesses)
    (hidle : ∀ thread, ((machine chunks T ι poolSize).run accesses).threads thread = .idle) :
    ((machine chunks T ι poolSize).run accesses).memPool.Valid := by
  obtain ⟨hsizeRun, hdouble⟩ :
      ((machine chunks T ι poolSize).run accesses).memPool.poolSize = poolSize ∧ _ :=
    frame_run accesses
  obtain ⟨free, hsound⟩ := exists_sound (fun thread hthread => hthread) hlegal hby
  constructor
  case poolSize => rwa [hsizeRun]
  case blocks =>
      refine ⟨free, hsound.chain, hsound.nodup, hsound.notLive, fun block => ?_⟩
      rw [hsound.outstanding block, InUse]
      simp [hidle, PoolThread.releasing]
  case doubleFree => exact hdouble

/-- A block that another thread gives back while the owner allocates. -/
def crossing : List (PoolAccess (Fin 2) Nat Nat) :=
  allocateCall 0 5 ++ [.deallocate 1 (some 0), .allocate 0 6, .advance 1 none, .advance 0 none,
    .advance 1 none]

theorem valid_crossing :
    LegalRun .counter 8 crossing ∧
      ((machine .counter Nat (Fin 2) 8).run crossing).memPool.Valid := by
  have hlegal : LegalRun .counter 8 crossing := by
    unfold LegalRun
    decide
  refine ⟨hlegal, valid_of_idle (by decide) 0 crossing hlegal ?_ (by decide)⟩
  simp [AllocatesBy, crossing, allocateCall]

end LockFreePool

end CryptoBot.Common

/-
# The lifetime of counted events

The events of the market data path are counted: every `boost::intrusive_ptr` to
an event adds one to its `ref_count_`, and the pointer that takes the last
reference away returns the event to its pool.  A bus event holds such a pointer
to the event it wraps, so the destructor of the one may end the life of the
other.  The fifteen pairs of `intrusive_ptr_add_ref` and `intrusive_ptr_release`
in the source have one body.  An event without a pool is never returned.

Copies of a pointer are taken and dropped by the publisher, by the bus and by the
coroutines of the subscribers, on any thread.  A step here is one change of a
counter or the destruction of one event; what a thread has still to do after it
took the last reference is a task that any later step may carry out.

The clients are asked for one thing: to copy and to drop pointers that they hold.
-/

import CryptoBot.Math.Machine
import Mathlib.Algebra.Ring.Int.Defs
import Mathlib.Data.Finset.Card
import Mathlib.Data.Finset.Lattice.Fold

namespace CryptoBot.Bus

open CryptoBot.Math

universe ui

/-- The part of an event that its pointers use. -/
structure CountedEvent (ι : Type ui) where
  refCount : Int := 0
  /-- `memory_pool_` is not null. -/
  hasPool : Bool := true
  wrappedEvent : Option ι := none
  deriving DecidableEq, Repr

/-- What a thread goes on with inside of `intrusive_ptr_release`. -/
inductive ReleaseTask (ι : Type ui)
  /-- `Deallocate`, after the last reference to the event was taken away. -/
  | destroy (event : ι)
  /-- `~intrusive_ptr` of the pointer in a bus event that is being destroyed. -/
  | release (event : ι)
  deriving DecidableEq, Repr

/-- The events that are constructed, and the tasks under way.  `handles` counts the pointers to
each event that are held outside of events. -/
structure EventHeap (ι : Type ui) where
  constructed : Finset ι := ∅
  event : ι → CountedEvent ι := fun _ => {}
  pending : List (ReleaseTask ι) := []
  handles : ι → Nat := fun _ => 0

inductive PointerCall (ι : Type ui)
  /-- `Allocate` of an event and the first pointer to it. -/
  | create (event : ι) (hasPool : Bool) (wrappedEvent : Option ι)
  | copy (event : ι)
  | drop (event : ι)
  | proceed (task : ReleaseTask ι)
  deriving DecidableEq, Repr

namespace EventHeap

variable {ι : Type ui} [DecidableEq ι]

section Code

variable (heap : EventHeap ι)

/-- `ref_count_.fetch_add(by)`. -/
def addToCount (event : ι) (amount : Int) : EventHeap ι :=
  { heap with
    event := Function.update heap.event event
      { heap.event event with refCount := (heap.event event).refCount + amount } }

def intrusivePtrAddRef (event : ι) : EventHeap ι := heap.addToCount event 1

/-- The last reference leaves the event to be deallocated, if it has a pool. -/
def intrusivePtrRelease (event : ι) : EventHeap ι :=
  let heap' := heap.addToCount event (-1)
  if (heap.event event).refCount = 1 then
    if (heap.event event).hasPool then { heap' with pending := .destroy event :: heap'.pending }
    else heap'
  else heap'

/-- The event with its first pointer; a wrapped event gets the pointer that is its member. -/
def create (event : ι) (hasPool : Bool) (wrappedEvent : Option ι) : EventHeap ι :=
  let heap := match wrappedEvent with
    | none => heap
    | some inner => heap.intrusivePtrAddRef inner
  let heap :=
    { heap with
      constructed := insert event heap.constructed
      event := Function.update heap.event event { hasPool, wrappedEvent }
      handles := Function.update heap.handles event (heap.handles event + 1) }
  heap.intrusivePtrAddRef event

def copy (event : ι) : EventHeap ι :=
  { heap with handles := Function.update heap.handles event (heap.handles event + 1)
    }.intrusivePtrAddRef event

def drop (event : ι) : EventHeap ι :=
  { heap with handles := Function.update heap.handles event (heap.handles event - 1)
    }.intrusivePtrRelease event

/-- Carry out a task: the destructor of an event drops the pointer that is its member. -/
def proceed (task : ReleaseTask ι) : EventHeap ι :=
  let heap := { heap with pending := heap.pending.erase task }
  match task with
  | .destroy event =>
      let heap := { heap with constructed := heap.constructed.erase event }
      match (heap.event event).wrappedEvent with
      | none => heap
      | some inner => { heap with pending := .release inner :: heap.pending }
  | .release event => heap.intrusivePtrRelease event

def step : PointerCall ι → EventHeap ι
  | .create event hasPool wrappedEvent => heap.create event hasPool wrappedEvent
  | .copy event => heap.copy event
  | .drop event => heap.drop event
  | .proceed task => heap.proceed task

end Code

/-- The runs from a heap without events. -/
def machine (ι : Type ui) [DecidableEq ι] : Machine (EventHeap ι) (PointerCall ι) Empty where
  init := {}
  step heap call := (heap.step call, [])

/-- A pointer to the event can be copied: one that is held, or the member of a bus event to which
a pointer is held. -/
def Accessible (heap : EventHeap ι) (event : ι) : Prop :=
  0 < heap.handles event ∨ ∃ outer ∈ heap.constructed, 0 < heap.handles outer ∧
    (heap.event outer).wrappedEvent = some event

/-- The clients use the pointers they hold, and the threads the tasks they have. -/
def Legal (heap : EventHeap ι) : PointerCall ι → Prop
  | .create event _ wrappedEvent =>
      event ∉ heap.constructed ∧ ∀ inner, wrappedEvent = some inner → 0 < heap.handles inner
  | .copy event => heap.Accessible event
  | .drop event => 0 < heap.handles event
  | .proceed task => task ∈ heap.pending

instance (heap : EventHeap ι) : DecidablePred heap.Legal
  | .create event _ none => decidable_of_iff (event ∉ heap.constructed) (by simp [Legal])
  | .create event _ (some inner) =>
      decidable_of_iff (event ∉ heap.constructed ∧ 0 < heap.handles inner) (by simp [Legal])
  | .copy event =>
      inferInstanceAs (Decidable (0 < heap.handles event ∨ ∃ outer ∈ heap.constructed,
        0 < heap.handles outer ∧ (heap.event outer).wrappedEvent = some event))
  | .drop event => inferInstanceAs (Decidable (0 < heap.handles event))
  | .proceed task => inferInstanceAs (Decidable (task ∈ heap.pending))

def LegalRun (calls : List (PointerCall ι)) : Prop :=
  EveryStep (fun before call => ((machine ι).run before).Legal call) calls

/-! ## The count of an event -/

/-- The bus events that hold a pointer to the event. -/
def wrappers (heap : EventHeap ι) (event : ι) : Finset ι :=
  heap.constructed.filter fun outer => (heap.event outer).wrappedEvent = some event

/-- The pointers to the event: those held by clients and by bus events, and those of bus events
under destruction. -/
def references (heap : EventHeap ι) (event : ι) : Nat :=
  heap.handles event + (heap.wrappers event).card + heap.pending.count (.release event)

/-- The counter of each event is the number of the pointers to it and an excess, and the events
whose counter is zero are about to be destroyed, each once. -/
structure Balanced (heap : EventHeap ι) (excess : ι → Int) : Prop where
  counted : ∀ event ∈ heap.constructed,
    (heap.event event).refCount = heap.references event + excess event
  dangling : ∀ event ∉ heap.constructed, heap.references event = 0
  dying : ∀ event, heap.pending.count (.destroy event) =
    if event ∈ heap.constructed ∧ (heap.event event).hasPool ∧
      (heap.event event).refCount = 0 then 1 else 0

/-- Between the calls each counter is the number of the pointers. -/
def Sound (heap : EventHeap ι) : Prop := heap.Balanced 0

section Counters

variable (heap : EventHeap ι) (event other : ι) (amount : Int)

@[simp]
theorem wrappedEvent_addToCount :
    ((heap.addToCount event amount).event other).wrappedEvent =
      (heap.event other).wrappedEvent := by
  by_cases hother : other = event
  · simp [addToCount, hother]
  · simp [addToCount, hother]

@[simp]
theorem hasPool_addToCount :
    ((heap.addToCount event amount).event other).hasPool = (heap.event other).hasPool := by
  by_cases hother : other = event
  · simp [addToCount, hother]
  · simp [addToCount, hother]

theorem refCount_addToCount :
    ((heap.addToCount event amount).event other).refCount =
      (heap.event other).refCount + if other = event then amount else 0 := by
  by_cases hother : other = event
  · simp [addToCount, hother]
  · simp [addToCount, hother]

@[simp]
theorem constructed_addToCount :
    (heap.addToCount event amount).constructed = heap.constructed := rfl

@[simp]
theorem pending_addToCount : (heap.addToCount event amount).pending = heap.pending := rfl

@[simp]
theorem references_addToCount :
    (heap.addToCount event amount).references other = heap.references other := by
  simp only [references, wrappers, wrappedEvent_addToCount]
  rfl

end Counters

namespace Balanced

variable {heap : EventHeap ι} {excess : ι → Int} {event : ι}

/-- An event with a pointer is constructed. -/
theorem mem_constructed (h : heap.Balanced excess) (hreferences : 0 < heap.references event) :
    event ∈ heap.constructed := by
  by_contra hevent
  exact hreferences.ne' (h.dangling event hevent)

theorem addRef (h : heap.Balanced excess) (hpositive : 0 < (heap.event event).refCount) :
    (heap.intrusivePtrAddRef event).Balanced
      (Function.update excess event (excess event + 1)) := by
  constructor
  case counted =>
      intro other hother
      rw [intrusivePtrAddRef, refCount_addToCount, references_addToCount, h.counted other hother]
      by_cases heq : other = event
      · simp only [heq, if_true, Function.update_self]
        omega
      · simp [heq]
  case dangling =>
      intro other hother
      rw [intrusivePtrAddRef, references_addToCount]
      exact h.dangling other hother
  case dying =>
      intro other
      rw [intrusivePtrAddRef, pending_addToCount, h.dying other, refCount_addToCount]
      by_cases heq : other = event
      · subst heq
        rw [if_neg (by omega), if_neg (by simp; omega)]
      · simp [heq]

theorem intrusivePtrRelease_eq (heap : EventHeap ι) (event : ι) :
    heap.intrusivePtrRelease event =
      { heap.addToCount event (-1) with
        pending := if (heap.event event).refCount = 1 ∧ (heap.event event).hasPool then
          .destroy event :: heap.pending else heap.pending } := by
  by_cases hlast : (heap.event event).refCount = 1
  · by_cases hpool : (heap.event event).hasPool
    · simp [intrusivePtrRelease, hlast, hpool]
    · simp only [intrusivePtrRelease, hlast, hpool]
      rfl
  · simp only [intrusivePtrRelease, hlast, false_and, if_false]
    rfl

/-- Taking a reference away where the counter is one ahead. -/
theorem release (h : heap.Balanced (Function.update 0 event 1))
    (hevent : event ∈ heap.constructed) : (heap.intrusivePtrRelease event).Sound := by
  have hcount : (heap.event event).refCount = heap.references event + 1 := by
    simpa using h.counted event hevent
  have hnotDying : heap.pending.count (.destroy event) = 0 := by
    rw [h.dying event, if_neg]
    omega
  have hreferences : ∀ other,
      (heap.intrusivePtrRelease event).references other = heap.references other := by
    intro other
    rw [intrusivePtrRelease_eq, ← references_addToCount heap event other (-1)]
    simp only [references, wrappers]
    split_ifs <;> simp
  rw [intrusivePtrRelease_eq] at hreferences ⊢
  constructor
  case counted =>
      intro other hother
      rw [hreferences, Pi.zero_apply, Int.add_zero]
      rw [refCount_addToCount, h.counted other hother]
      by_cases heq : other = event
      · simp only [heq, if_true, Function.update_self]
        omega
      · simp [heq]
  case dangling =>
      intro other hother
      rw [hreferences]
      exact h.dangling other hother
  case dying =>
      intro other
      rw [refCount_addToCount, hasPool_addToCount]
      by_cases heq : other = event
      · subst heq
        simp only [if_true, constructed_addToCount, hevent, true_and]
        by_cases hlast : (heap.event other).refCount = 1 ∧ (heap.event other).hasPool
        · rw [if_pos hlast, List.count_cons_self, hnotDying, if_pos ⟨hlast.2, by omega⟩]
        · rw [if_neg hlast, hnotDying, if_neg]
          exact fun hzero => hlast ⟨by omega, hzero.1⟩
      · have hskip : (if (heap.event event).refCount = 1 ∧ (heap.event event).hasPool then
            .destroy event :: heap.pending else heap.pending).count (.destroy other) =
              heap.pending.count (.destroy other) := by
          split_ifs
          · rw [List.count_cons_of_ne (by simpa using Ne.symm heq)]
          · rfl
        rw [hskip, h.dying other, if_neg heq, Int.add_zero, constructed_addToCount]

end Balanced

/-! ## One call -/

namespace Sound

variable {heap : EventHeap ι} {event : ι}

theorem new : (machine ι).init.Sound where
  counted := by simp [machine]
  dangling := by simp [machine, references, wrappers]
  dying := by simp [machine]

theorem refCount (h : heap.Sound) (hevent : event ∈ heap.constructed) :
    (heap.event event).refCount = heap.references event := by
  simpa using h.counted event hevent

/-- A pointer that can be copied is to an event with a reference. -/
theorem references_pos (h : heap.Accessible event) : 0 < heap.references event := by
  rcases h with hheld | ⟨outer, houter, -, hwraps⟩
  · rw [references]
    omega
  · have hmem : outer ∈ heap.wrappers event := Finset.mem_filter.mpr ⟨houter, hwraps⟩
    have hcard := Finset.card_pos.mpr ⟨outer, hmem⟩
    rw [references]
    omega

/-- The number of pointers to one event changes, before its counter does. -/
theorem recount (h : heap.Sound) (changed : EventHeap ι) {excess : Int}
    (hevent : event ∈ heap.constructed) (hconstructed : changed.constructed = heap.constructed)
    (hevents : changed.event = heap.event)
    (hdying : ∀ other,
      changed.pending.count (.destroy other) = heap.pending.count (.destroy other))
    (hexcess : (heap.references event : Int) = changed.references event + excess)
    (hothers : ∀ other, other ≠ event → changed.references other = heap.references other) :
    changed.Balanced (Function.update 0 event excess) := by
  constructor
  case counted =>
      intro other hother
      rw [hconstructed] at hother
      rw [hevents, h.refCount hother]
      by_cases heq : other = event
      · rw [heq, Function.update_self, hexcess]
      · simp [heq, hothers other heq]
  case dangling =>
      intro other hother
      rw [hconstructed] at hother
      rw [hothers other fun heq => hother (heq ▸ hevent)]
      exact h.dangling other hother
  case dying =>
      intro other
      rw [hdying, hconstructed, hevents]
      exact h.dying other

theorem copy (h : heap.Sound) (haccessible : heap.Accessible event) : (heap.copy event).Sound := by
  have hevent := h.mem_constructed (references_pos haccessible)
  have hpositive : 0 < (heap.event event).refCount := by
    rw [h.refCount hevent]
    exact Int.natCast_pos.mpr (references_pos haccessible)
  let held : EventHeap ι :=
    { heap with handles := Function.update heap.handles event (heap.handles event + 1) }
  have hbalanced : held.Balanced (Function.update 0 event (-1)) := by
    apply h.recount held hevent rfl rfl (fun _ => rfl)
    · simp only [held, references, wrappers, Function.update_self]
      omega
    · intro other hother
      simp [held, references, wrappers, hother]
  have hadded : Balanced (held.intrusivePtrAddRef event) _ := hbalanced.addRef hpositive
  have hzero : Function.update (Function.update (0 : ι → Int) event (-1)) event
      (Function.update (0 : ι → Int) event (-1) event + 1) = 0 := by
    funext other
    by_cases heq : other = event
    · simp [heq]
    · simp [heq]
  rw [hzero] at hadded
  exact hadded

theorem drop (h : heap.Sound) (hheld : 0 < heap.handles event) : (heap.drop event).Sound := by
  have hevent := h.mem_constructed (references_pos (.inl hheld))
  let less : EventHeap ι :=
    { heap with handles := Function.update heap.handles event (heap.handles event - 1) }
  have hbalanced : less.Balanced (Function.update 0 event 1) := by
    apply h.recount less hevent rfl rfl (fun _ => rfl)
    · simp only [less, references, wrappers, Function.update_self]
      omega
    · intro other hother
      simp [less, references, wrappers, hother]
  exact hbalanced.release hevent

theorem proceed_release (h : heap.Sound) (htask : .release event ∈ heap.pending) :
    (heap.proceed (.release event)).Sound := by
  have hcount := List.count_pos_iff.mpr htask
  have hevent : event ∈ heap.constructed := by
    apply h.mem_constructed
    rw [references]
    omega
  let less : EventHeap ι := { heap with pending := heap.pending.erase (.release event) }
  have hbalanced : less.Balanced (Function.update 0 event 1) := by
    apply h.recount less hevent rfl rfl
    · intro other
      simp [less, List.count_erase_of_ne]
    · simp only [less, references, wrappers, List.count_erase_self]
      omega
    · intro other hother
      simp [less, references, wrappers, List.count_erase_of_ne, hother]
  exact hbalanced.release hevent

/-- An event about to be destroyed is constructed, and there is no pointer to it. -/
theorem of_destroy (h : heap.Sound) (htask : .destroy event ∈ heap.pending) :
    event ∈ heap.constructed ∧ (heap.event event).hasPool ∧ heap.references event = 0 ∧
      heap.pending.count (.destroy event) = 1 := by
  have hcount := List.count_pos_iff.mpr htask
  have hdying := h.dying event
  split_ifs at hdying with hall
  · have hzero := h.refCount hall.1
    refine ⟨hall.1, hall.2.1, ?_, hdying⟩
    omega
  · omega

/-- The wrappers of an event after one event is gone. -/
theorem card_wrappers_erase (hevent : event ∈ heap.constructed) (other : ι) :
    (heap.wrappers other).card =
      ((heap.wrappers other).erase event).card +
        if (heap.event event).wrappedEvent = some other then 1 else 0 := by
  split_ifs with hwraps
  · have hmem : event ∈ heap.wrappers other := Finset.mem_filter.mpr ⟨hevent, hwraps⟩
    rw [Finset.card_erase_of_mem hmem]
    have hcard := Finset.card_pos.mpr ⟨event, hmem⟩
    omega
  · have hnotMem : event ∉ heap.wrappers other :=
      fun hmem => hwraps (Finset.mem_filter.mp hmem).2
    rw [Finset.erase_eq_of_notMem hnotMem, Nat.add_zero]

theorem proceed_destroy_eq (heap : EventHeap ι) (event : ι) :
    heap.proceed (.destroy event) =
      { heap with
        constructed := heap.constructed.erase event
        pending := ((heap.event event).wrappedEvent.map .release).toList ++
          heap.pending.erase (.destroy event) } := by
  cases hwrapped : (heap.event event).wrappedEvent <;> simp [EventHeap.proceed, hwrapped]

/-- The pointer of the destroyed event becomes a task. -/
theorem references_proceed_destroy (hevent : event ∈ heap.constructed) (other : ι) :
    (heap.proceed (.destroy event)).references other = heap.references other := by
  have hwrappers : (heap.proceed (.destroy event)).wrappers other =
      (heap.wrappers other).erase event := by
    ext outer
    simp only [proceed_destroy_eq, wrappers, Finset.mem_filter, Finset.mem_erase]
    tauto
  have hpending : (heap.proceed (.destroy event)).pending.count (.release other) =
      heap.pending.count (.release other) +
        if (heap.event event).wrappedEvent = some other then 1 else 0 := by
    rw [proceed_destroy_eq]
    cases (heap.event event).wrappedEvent <;>
      simp [List.count_cons, List.count_erase_of_ne]
  have hhandles : (heap.proceed (.destroy event)).handles = heap.handles := by
    rw [proceed_destroy_eq]
  rw [references, hhandles, hwrappers, hpending, references, card_wrappers_erase hevent other]
  omega

theorem proceed_destroy (h : heap.Sound) (htask : .destroy event ∈ heap.pending) :
    (heap.proceed (.destroy event)).Sound := by
  obtain ⟨hevent, -, hnone, hone⟩ := h.of_destroy htask
  have hreferences := references_proceed_destroy hevent
  have hdying : ∀ other, (heap.proceed (.destroy event)).pending.count (.destroy other) =
      (heap.pending.erase (.destroy event)).count (.destroy other) := by
    intro other
    rw [proceed_destroy_eq]
    cases (heap.event event).wrappedEvent <;> simp
  have hconstructed : (heap.proceed (.destroy event)).constructed =
      heap.constructed.erase event := by
    rw [proceed_destroy_eq]
  have hevents : (heap.proceed (.destroy event)).event = heap.event := by
    rw [proceed_destroy_eq]
  constructor
  case counted =>
      intro other hother
      rw [hconstructed] at hother
      rw [hevents, hreferences]
      exact h.counted other (Finset.mem_of_mem_erase hother)
  case dangling =>
      intro other hother
      rw [hconstructed, Finset.mem_erase, not_and_or, not_not] at hother
      rw [hreferences]
      rcases hother with rfl | hother
      · exact hnone
      · exact h.dangling other hother
  case dying =>
      intro other
      rw [hdying, hconstructed, hevents]
      by_cases heq : other = event
      · subst heq
        rw [List.count_erase_self, hone]
        simp
      · rw [List.count_erase_of_ne (by simpa using heq), h.dying other]
        simp [heq]

theorem create_eq {hasPool : Bool} {wrappedEvent : Option ι} (hne : wrappedEvent ≠ some event) :
    heap.create event hasPool wrappedEvent =
      { heap with
        constructed := insert event heap.constructed
        event := fun other =>
          if other = event then ⟨1, hasPool, wrappedEvent⟩
          else
            { heap.event other with
              refCount := (heap.event other).refCount +
                if wrappedEvent = some other then 1 else 0 }
        handles := Function.update heap.handles event (heap.handles event + 1) } := by
  cases wrappedEvent with
  | none =>
      simp only [EventHeap.create, intrusivePtrAddRef, addToCount, mk.injEq, true_and, and_true]
      funext other
      by_cases hother : other = event <;> simp [hother]
  | some inner =>
      simp only [EventHeap.create, intrusivePtrAddRef, addToCount, mk.injEq, true_and, and_true]
      funext other
      by_cases hother : other = event
      · simp [hother]
      · by_cases hinner : other = inner
        · subst hinner
          simp [hother]
        · simp [hother, hinner, Ne.symm hinner]

/-- The new event has one pointer, and the event it wraps one more. -/
theorem references_create {hasPool : Bool} {wrappedEvent : Option ι}
    (hnew : event ∉ heap.constructed) (hne : wrappedEvent ≠ some event) (other : ι) :
    (heap.create event hasPool wrappedEvent).references other =
      heap.references other + (if other = event then 1 else 0) +
        if wrappedEvent = some other then 1 else 0 := by
  have hwrappers : (heap.create event hasPool wrappedEvent).wrappers other =
      if wrappedEvent = some other then insert event (heap.wrappers other)
      else heap.wrappers other := by
    rw [create_eq hne]
    ext outer
    by_cases houter : outer = event
    · subst houter
      split_ifs with hwraps <;> simp [wrappers, hwraps, hnew]
    · split_ifs with hwraps <;> simp [wrappers, houter]
  have hnotMem : event ∉ heap.wrappers other := fun hmem => hnew (Finset.mem_filter.mp hmem).1
  rw [references, hwrappers, create_eq hne, references]
  by_cases heq : other = event
  · subst heq
    simp [hne]
    omega
  · split_ifs
    · simp [heq, Finset.card_insert_of_notMem hnotMem]
      omega
    · simp [heq]

theorem create (h : heap.Sound) {hasPool : Bool} {wrappedEvent : Option ι}
    (hlegal : heap.Legal (.create event hasPool wrappedEvent)) :
    (heap.create event hasPool wrappedEvent).Sound := by
  obtain ⟨hnew, hinner⟩ := hlegal
  have hpositive : ∀ inner, wrappedEvent = some inner → inner ∈ heap.constructed ∧
      0 < heap.references inner := by
    intro inner hwraps
    have hreferences : 0 < heap.references inner := by
      rw [references]
      have hheld := hinner inner hwraps
      omega
    exact ⟨h.mem_constructed hreferences, hreferences⟩
  have hne : wrappedEvent ≠ some event := fun hwraps => hnew (hpositive event hwraps).1
  have hreferences : ∀ other, (heap.create event hasPool wrappedEvent).references other = _ :=
    references_create hnew hne
  constructor
  case counted =>
      intro other hother
      rw [hreferences, Pi.zero_apply, Int.add_zero]
      rw [create_eq hne] at hother ⊢
      by_cases heq : other = event
      · subst heq
        rw [h.dangling other hnew, if_neg hne]
        simp
      · have hmem : other ∈ heap.constructed := Finset.mem_of_mem_insert_of_ne hother heq
        simp only [heq, if_false, h.refCount hmem]
        split_ifs <;> omega
  case dangling =>
      intro other hother
      rw [create_eq hne, Finset.mem_insert, not_or] at hother
      have hwraps : wrappedEvent ≠ some other := fun hwraps => hother.2 (hpositive other hwraps).1
      rw [hreferences, h.dangling other hother.2, if_neg hother.1, if_neg hwraps]
  case dying =>
      intro other
      rw [create_eq hne]
      by_cases heq : other = event
      · subst heq
        simp [h.dying other, hnew]
      · simp only [h.dying other, heq, if_false, Finset.mem_insert, false_or]
        by_cases hwraps : wrappedEvent = some other
        · obtain ⟨hmem, hcount⟩ := hpositive other hwraps
          have hrefCount := h.refCount hmem
          rw [if_neg (by omega), if_neg (by rw [if_pos hwraps]; omega)]
        · simp [hwraps]

theorem step (h : heap.Sound) {call : PointerCall ι} (hlegal : heap.Legal call) :
    (heap.step call).Sound := by
  cases call with
  | create event hasPool wrappedEvent => exact h.create hlegal
  | copy event => exact h.copy hlegal
  | drop event => exact h.drop hlegal
  | proceed task =>
      cases task with
      | destroy event => exact h.proceed_destroy hlegal
      | release event => exact h.proceed_release hlegal

end Sound

theorem sound_run {calls : List (PointerCall ι)} (hlegal : LegalRun calls) :
    ((machine ι).run calls).Sound := by
  induction calls using List.reverseRecOn with
  | nil => exact Sound.new
  | append_singleton before call ih =>
      obtain ⟨hbefore, hlast⟩ := EveryStep.concat_iff.mp hlegal
      rw [Machine.run_concat]
      exact (ih hbefore).step hlast

/-! ## No use after the end, no event left behind -/

/-- The event whose memory a call reads or writes. -/
def Touches : PointerCall ι → ι → Prop
  | .create _ _ wrappedEvent, event => wrappedEvent = some event
  | .copy other, event => other = event
  | .drop other, event => other = event
  | .proceed (.destroy other), event => other = event
  | .proceed (.release other), event => other = event

def creates (event : ι) : PointerCall ι → Bool
  | .create other _ _ => other = event
  | _ => false

/-- Every memory access is to an event that is constructed, and a destructor runs when no pointer
to the event is left. -/
structure SafeCall (heap : EventHeap ι) (call : PointerCall ι) : Prop where
  constructed : ∀ event, Touches call event → event ∈ heap.constructed
  unreferenced : ∀ event, call = .proceed (.destroy event) → heap.references event = 0

theorem Sound.safeCall {heap : EventHeap ι} (h : heap.Sound) {call : PointerCall ι}
    (hlegal : heap.Legal call) : heap.SafeCall call := by
  cases call with
  | create event hasPool wrappedEvent =>
      refine ⟨fun inner hwraps => ?_, by simp⟩
      exact h.mem_constructed (Sound.references_pos (.inl (hlegal.2 inner hwraps)))
  | copy event =>
      refine ⟨?_, by simp⟩
      rintro _ rfl
      exact h.mem_constructed (Sound.references_pos hlegal)
  | drop event =>
      refine ⟨?_, by simp⟩
      rintro _ rfl
      exact h.mem_constructed (Sound.references_pos (.inl hlegal))
  | proceed task =>
      cases task with
      | destroy event =>
          obtain ⟨hevent, -, hnone, -⟩ := h.of_destroy hlegal
          constructor
          case constructed =>
              rintro _ rfl
              exact hevent
          case unreferenced =>
              rintro _ ⟨⟩
              exact hnone
      | release event =>
          refine ⟨?_, by simp⟩
          rintro _ rfl
          apply h.mem_constructed
          have hcount := List.count_pos_iff.mpr hlegal
          rw [references]
          omega

/-- Construction and destruction are the calls that change which events are constructed. -/
theorem mem_constructed_step (heap : EventHeap ι) {call : PointerCall ι} (hlegal : heap.Legal call)
    (hsafe : heap.SafeCall call) (event : ι) :
    (if creates event call then 1 else 0) + (if event ∈ heap.constructed then 1 else 0) =
      (if call = .proceed (.destroy event) then 1 else 0) +
        if event ∈ (heap.step call).constructed then 1 else 0 := by
  cases call with
  | create other hasPool wrappedEvent =>
      have hne : wrappedEvent ≠ some other :=
        fun hwraps => hlegal.1 (hsafe.constructed other hwraps)
      by_cases heq : event = other
      · subst heq
        simp [creates, step, Sound.create_eq hne, hlegal.1]
      · simp [creates, step, Sound.create_eq hne, heq, Ne.symm heq]
  | copy other =>
      rw [show (heap.step (.copy other)).constructed = heap.constructed from rfl]
      simp [creates]
  | drop other =>
      have hsame : (heap.step (.drop other)).constructed = heap.constructed := by
        rw [step, drop, Balanced.intrusivePtrRelease_eq]
        rfl
      rw [hsame]
      simp [creates]
  | proceed task =>
      cases task with
      | destroy other =>
          have hother := hsafe.constructed other rfl
          by_cases heq : event = other
          · subst heq
            simp [creates, step, Sound.proceed_destroy_eq, hother]
          · simp [creates, step, Sound.proceed_destroy_eq, heq, Ne.symm heq]
      | release other =>
          have hsame : (heap.step (.proceed (.release other))).constructed = heap.constructed := by
            rw [step, proceed, Balanced.intrusivePtrRelease_eq]
            rfl
          rw [hsame]
          simp [creates]

/-- In every order in which pointers are copied and dropped, no event is used that is not
constructed, and each construction is followed by at most one destruction. -/
theorem safe_run (calls : List (PointerCall ι)) (hlegal : LegalRun calls) :
    EveryStep (fun before call => ((machine ι).run before).SafeCall call) calls ∧
      ∀ event, calls.countP (creates event) = calls.count (.proceed (.destroy event)) +
        if event ∈ ((machine ι).run calls).constructed then 1 else 0 := by
  induction calls using List.reverseRecOn with
  | nil => exact ⟨EveryStep.nil, by simp [Machine.run, Machine.runFrom, machine]⟩
  | append_singleton before call ih =>
      obtain ⟨hbefore, hlast⟩ := EveryStep.concat_iff.mp hlegal
      obtain ⟨hsafe, hcounts⟩ := ih hbefore
      have hcall := (sound_run hbefore).safeCall hlast
      refine ⟨EveryStep.concat_iff.mpr ⟨hsafe, hcall⟩, fun event => ?_⟩
      have hstep := mem_constructed_step _ hlast hcall event
      rw [List.countP_append, List.count_append, hcounts event, List.countP_singleton,
        List.count_singleton, Machine.run_concat]
      rw [show ((machine ι).step ((machine ι).run before) call).1 =
        ((machine ι).run before).step call from rfl]
      simp only [beq_iff_eq]
      omega

/-- A bus event is published: the publisher drops its pointers while a subscriber still holds the
wrapped event. -/
def publication : List (PointerCall Nat) :=
  [.create 0 true none, .create 1 true (some 0), .drop 0, .copy 1, .drop 1, .copy 0, .drop 1,
    .proceed (.destroy 1), .proceed (.release 0)]

theorem safe_publication :
    LegalRun publication ∧
      EveryStep (fun before call => ((machine Nat).run before).SafeCall call) publication := by
  have hlegal : LegalRun publication := by
    unfold LegalRun
    decide +kernel
  exact ⟨hlegal, (safe_run publication hlegal).1⟩

/-- The events to which a pointer leads, from one that a client holds or from an event that was
constructed without a pool: nothing takes such an event back. -/
inductive Reachable (heap : EventHeap ι) : ι → Prop
  | held {event : ι} (hheld : 0 < heap.handles event) : Reachable heap event
  | unpooled {event : ι} (hconstructed : event ∈ heap.constructed)
      (hpool : (heap.event event).hasPool = false) : Reachable heap event
  | wrapped {outer event : ι} (houter : Reachable heap outer)
      (hconstructed : outer ∈ heap.constructed)
      (hwraps : (heap.event outer).wrappedEvent = some event) : Reachable heap event

/-- An event is older than the bus event that wraps it. -/
def Ordered (heap : EventHeap ι) : Prop :=
  ∃ birth : ι → Nat, ∀ outer ∈ heap.constructed, ∀ event,
    (heap.event outer).wrappedEvent = some event → birth event < birth outer

theorem Ordered.step {heap : EventHeap ι} (hordered : heap.Ordered) (hsound : heap.Sound)
    {call : PointerCall ι} (hlegal : heap.Legal call) : (heap.step call).Ordered := by
  obtain ⟨birth, hbirth⟩ := hordered
  -- Counters and tasks play no part; events that are gone ask for nothing.
  have hkept : ∀ after : EventHeap ι, after.constructed ⊆ heap.constructed →
      (∀ outer, (after.event outer).wrappedEvent = (heap.event outer).wrappedEvent) →
      after.Ordered := by
    intro after hsubset hwraps
    refine ⟨birth, fun outer houter event hevent => ?_⟩
    exact hbirth outer (hsubset houter) event ((hwraps outer).symm.trans hevent)
  cases call with
  | create event hasPool wrappedEvent =>
      obtain ⟨hnew, hinner⟩ := hlegal
      have hne : wrappedEvent ≠ some event := by
        intro hwraps
        exact hnew (hsound.mem_constructed (Sound.references_pos (.inl (hinner event hwraps))))
      -- Nothing wraps the new event, so it may be younger than all others.
      let birth' := Function.update birth event ((wrappedEvent.elim 0 birth) + 1)
      refine ⟨birth', fun outer houter inner hwraps => ?_⟩
      rw [EventHeap.step, Sound.create_eq hne] at houter hwraps
      by_cases heq : outer = event
      · subst heq
        have hwrapped : wrappedEvent = some inner := by simpa using hwraps
        have hinnerNe : inner ≠ outer := fun hsame => hne (hsame ▸ hwrapped)
        simp [birth', hinnerNe, hwrapped]
      · have hmem : outer ∈ heap.constructed := Finset.mem_of_mem_insert_of_ne houter heq
        have hbefore : (heap.event outer).wrappedEvent = some inner := by simpa [heq] using hwraps
        have hinnerNe : inner ≠ event := by
          rintro rfl
          have hwrapper : outer ∈ heap.wrappers inner := Finset.mem_filter.mpr ⟨hmem, hbefore⟩
          have hcard := Finset.card_pos.mpr ⟨outer, hwrapper⟩
          have hnone := hsound.dangling inner hnew
          rw [references] at hnone
          omega
        simpa [birth', heq, hinnerNe] using hbirth outer hmem inner hbefore
  | copy event => exact hkept _ subset_rfl fun outer => wrappedEvent_addToCount ..
  | drop event =>
      apply hkept
      · rw [EventHeap.step, drop, Balanced.intrusivePtrRelease_eq]
        exact subset_rfl
      · intro outer
        rw [EventHeap.step, drop, Balanced.intrusivePtrRelease_eq]
        exact wrappedEvent_addToCount ..
  | proceed task =>
      cases task with
      | destroy event =>
          apply hkept
          · rw [EventHeap.step, Sound.proceed_destroy_eq]
            exact Finset.erase_subset _ _
          · intro outer
            rw [EventHeap.step, Sound.proceed_destroy_eq]
      | release event =>
          apply hkept
          · rw [EventHeap.step, proceed, Balanced.intrusivePtrRelease_eq]
            exact subset_rfl
          · intro outer
            rw [EventHeap.step, proceed, Balanced.intrusivePtrRelease_eq]
            exact wrappedEvent_addToCount ..

theorem ordered_run {calls : List (PointerCall ι)} (hlegal : LegalRun calls) :
    ((machine ι).run calls).Ordered := by
  induction calls using List.reverseRecOn with
  | nil => exact ⟨fun _ => 0, by simp [Machine.run, Machine.runFrom, machine]⟩
  | append_singleton before call ih =>
      obtain ⟨hbefore, hlast⟩ := EveryStep.concat_iff.mp hlegal
      rw [Machine.run_concat]
      exact (ih hbefore).step (sound_run hbefore) hlast

/-- A counted event that is not about to be destroyed has a pointer to it, and so has the bus event
that holds the pointer; the bus events are younger and younger, so a client holds the last. -/
theorem Sound.reachable {heap : EventHeap ι} (h : heap.Sound) (hordered : heap.Ordered)
    (hpending : heap.pending = []) {event : ι} (hevent : event ∈ heap.constructed) :
    heap.Reachable event := by
  obtain ⟨birth, hbirth⟩ := hordered
  induction hage : heap.constructed.sup birth - birth event using Nat.strong_induction_on
    generalizing event with
  | _ age ih =>
      by_cases hpool : (heap.event event).hasPool = true
      · have hnotDying := h.dying event
        have hpositive : 0 < heap.references event := by
          by_contra hzero
          rw [if_pos ⟨hevent, hpool, by rw [h.refCount hevent]; omega⟩, hpending] at hnotDying
          simp at hnotDying
        rw [references, hpending, List.count_nil] at hpositive
        by_cases hheld : 0 < heap.handles event
        · exact .held hheld
        · obtain ⟨outer, hmem⟩ : (heap.wrappers event).Nonempty :=
            Finset.card_pos.mp (by omega)
          obtain ⟨houter, hwraps⟩ := Finset.mem_filter.mp hmem
          have hyounger := hbirth outer houter event hwraps
          have hbound : birth outer ≤ heap.constructed.sup birth := Finset.le_sup houter
          exact .wrapped (ih _ (by omega) houter rfl) houter hwraps
      · exact .unpooled hevent (by simpa using hpool)

theorem Sound.mem_constructed_of_reachable {heap : EventHeap ι} (h : heap.Sound) {event : ι}
    (hreachable : heap.Reachable event) : event ∈ heap.constructed := by
  induction hreachable with
  | held hheld => exact h.mem_constructed (references_pos (.inl hheld))
  | unpooled hconstructed hpool => exact hconstructed
  | wrapped houter hconstructed hwraps ih =>
      apply h.mem_constructed
      rename_i outer event
      have hwrapper : outer ∈ heap.wrappers event :=
        Finset.mem_filter.mpr ⟨hconstructed, hwraps⟩
      have hcard := Finset.card_pos.mpr ⟨outer, hwrapper⟩
      rw [references]
      omega

/-- Once the threads have finished what they began, the events that are left are those to which a
pointer leads. -/
theorem constructed_iff_reachable (calls : List (PointerCall ι)) (hlegal : LegalRun calls)
    (hquiet : ((machine ι).run calls).pending = []) (event : ι) :
    event ∈ ((machine ι).run calls).constructed ↔ ((machine ι).run calls).Reachable event := by
  constructor
  · exact (sound_run hlegal).reachable (ordered_run hlegal) hquiet
  · exact (sound_run hlegal).mem_constructed_of_reachable

theorem constructed_publication :
    0 ∈ ((machine Nat).run publication).constructed ↔
      ((machine Nat).run publication).Reachable 0 := by
  apply constructed_iff_reachable publication
  · unfold LegalRun
    decide +kernel
  · decide +kernel

end EventHeap

end CryptoBot.Bus

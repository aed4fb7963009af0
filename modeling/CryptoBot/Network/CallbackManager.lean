/-
# The callback manager under interleaving

`LockFreeCallbackManager` keeps the callbacks of a websocket session in a list
that only grows: a registration exchanges the head of the list for its own node
until the exchange succeeds, and the removal of a callback clears a flag in its
node.  `InvokeAll` walks the list without a lock, while other threads register
and remove.

A step is one access to shared memory, so a list of steps is an interleaving of
the calls of any number of threads.  The weak exchange may fail without a reason.
Since a node that is on the list stays on it with its link, a walk is one through
the list as it was at its start, whatever happens meanwhile: it calls every
callback that stays registered once, and none that was removed before.

The flag `registration_allowed_` is tested and cleared, but not in one access, and
nothing sets it again.  Only registrations that overlap the first one succeed.
-/

import CryptoBot.Math.Machine
import Mathlib.Data.List.Nodup
import Mathlib.Data.UInt
import Mathlib.Logic.Function.Basic

namespace CryptoBot.Network

open CryptoBot.Math

universe uc ui

/-- A node of the list.  The callback may be an empty function. -/
structure CallbackNode (C : Type uc) where
  callback : Option C
  id : UInt64
  active : Bool := true
  next : Option ℕ := none

/-- Where a thread stands in a call. -/
inductive ManagerThread (C : Type uc)
  | idle
  /-- `RegisterCallback`: the registration was allowed. -/
  | allowed (callback : Option C)
  /-- `RegisterCallback`: the id was fetched. -/
  | numbered (callback : Option C) (id : UInt64)
  /-- `RegisterCallback`: the node exists, and further registrations are not allowed. -/
  | created (node : ℕ)
  /-- `RegisterCallback`: a head was loaded. -/
  | loaded (node : ℕ) (oldHead : Option ℕ)
  /-- `UnregisterCallback`, at a node. -/
  | searching (current : Option ℕ) (id : UInt64)
  /-- `InvokeAll`, at a node. -/
  | visiting (current : Option ℕ)
  /-- `InvokeAll`: the node was found active. -/
  | calling (node : ℕ)
  deriving DecidableEq, Repr

/-- A call with its first access, or the next access of the call a thread is in.  An exchange that
could succeed may fail. -/
inductive ManagerAccess (ι : Type ui) (C : Type uc)
  | registerCallback (thread : ι) (callback : Option C)
  | unregisterCallback (thread : ι) (id : UInt64)
  | invokeAll (thread : ι)
  | advance (thread : ι) (fails : Bool)
  deriving DecidableEq, Repr

/-- The thread that makes the step. -/
def ManagerAccess.thread {ι : Type ui} {C : Type uc} : ManagerAccess ι C → ι
  | .registerCallback thread _ | .unregisterCallback thread _ | .invokeAll thread
  | .advance thread _ => thread

/-- Whether the step goes on with a call. -/
def ManagerAccess.isAdvance {ι : Type ui} {C : Type uc} : ManagerAccess ι C → Bool
  | .advance _ _ => true
  | .registerCallback _ _ | .unregisterCallback _ _ | .invokeAll _ => false

/-- What can be seen of a step: the result of a call, or a callback that is called. -/
inductive ManagerEffect (ι : Type ui)
  | registered (thread : ι) (id : UInt64)
  /-- `RegisterCallback` returned `-1`. -/
  | refused (thread : ι)
  | unregistered (thread : ι) (found : Bool)
  | called (thread : ι) (node : ℕ)
  deriving DecidableEq, Repr

/-- The manager and what each thread is doing in it.  `created` counts the nodes. -/
structure CallbackManager (ι : Type ui) (C : Type uc) where
  nextId : UInt64 := 0
  head : Option ℕ := none
  registrationAllowed : Bool := true
  nodes : ℕ → CallbackNode C := fun _ => { callback := none, id := 0 }
  created : ℕ := 0
  threads : ι → ManagerThread C := fun _ => .idle

namespace ManagerThread

variable {C : Type uc}

/-- The node that the thread has not linked yet. -/
def own : ManagerThread C → Option ℕ
  | created node | loaded node _ => some node
  | idle | allowed _ | numbered .. | searching .. | visiting _ | calling _ => none

/-- The node of the list at which the thread is. -/
def cursor : ManagerThread C → Option ℕ
  | searching current _ | visiting current => current
  | calling node => some node
  | idle | allowed _ | numbered .. | created _ | loaded .. => none

/-- The thread is inside of `RegisterCallback`. -/
def registering : ManagerThread C → Bool
  | allowed _ | numbered .. | created _ | loaded .. => true
  | idle | searching .. | visiting _ | calling _ => false

/-- The id that the thread has fetched for a node it has not created yet. -/
def number : ManagerThread C → Option UInt64
  | numbered _ id => some id
  | idle | allowed _ | created _ | loaded .. | searching .. | visiting _ | calling _ => none

end ManagerThread

namespace CallbackManager

variable {ι : Type ui} {C : Type uc}

section Code

variable [DecidableEq ι] (manager : CallbackManager ι C)

/-- The thread goes on from another point. -/
def goto (thread : ι) (point : ManagerThread C) : CallbackManager ι C :=
  { manager with threads := Function.update manager.threads thread point }

def setNode (node : ℕ) (value : CallbackNode C) : CallbackManager ι C :=
  { manager with nodes := Function.update manager.nodes node value }

def registerCallback (thread : ι) (callback : Option C) :
    CallbackManager ι C × List (ManagerEffect ι) :=
  match manager.threads thread with
  | .idle =>
      if !manager.registrationAllowed then (manager, [.refused thread])
      else (manager.goto thread (.allowed callback), [])
  | _ => (manager, [])

def unregisterCallback (thread : ι) (id : UInt64) : CallbackManager ι C :=
  match manager.threads thread with
  | .idle => manager.goto thread (.searching manager.head id)
  | _ => manager

def invokeAll (thread : ι) : CallbackManager ι C :=
  match manager.threads thread with
  | .idle => manager.goto thread (.visiting manager.head)
  | _ => manager

def advance (thread : ι) (fails : Bool) : CallbackManager ι C × List (ManagerEffect ι) :=
  match manager.threads thread with
  | .idle => (manager, [])
  | .allowed callback =>
      ({ manager with nextId := manager.nextId + 1 }.goto thread
        (.numbered callback manager.nextId), [])
  | .numbered callback id =>
      ({ manager with
          created := manager.created + 1
          registrationAllowed := false }.setNode manager.created { callback, id }
        |>.goto thread (.created manager.created), [])
  | .created node => (manager.goto thread (.loaded node manager.head), [])
  | .loaded node oldHead =>
      let manager := manager.setNode node { manager.nodes node with next := oldHead }
      if manager.head = oldHead ∧ !fails then
        ({ manager with head := some node }.goto thread .idle,
          [.registered thread (manager.nodes node).id])
      else (manager.goto thread (.loaded node manager.head), [])
  | .searching none _ => (manager.goto thread .idle, [.unregistered thread false])
  | .searching (some node) id =>
      if (manager.nodes node).id = id then
        ((manager.setNode node { manager.nodes node with active := false }).goto thread .idle,
          [.unregistered thread true])
      else (manager.goto thread (.searching (manager.nodes node).next id), [])
  | .visiting none => (manager.goto thread .idle, [])
  | .visiting (some node) =>
      if (manager.nodes node).active then (manager.goto thread (.calling node), [])
      else (manager.goto thread (.visiting (manager.nodes node).next), [])
  | .calling node =>
      (manager.goto thread (.visiting (manager.nodes node).next),
        if (manager.nodes node).callback.isSome then [.called thread node] else [])

def step : ManagerAccess ι C → CallbackManager ι C × List (ManagerEffect ι)
  | .registerCallback thread callback => manager.registerCallback thread callback
  | .unregisterCallback thread id => (manager.unregisterCallback thread id, [])
  | .invokeAll thread => (manager.invokeAll thread, [])
  | .advance thread fails => manager.advance thread fails

end Code

/-- The interleavings of the calls on a new manager. -/
def machine (ι : Type ui) [DecidableEq ι] (C : Type uc) :
    Machine (CallbackManager ι C) (ManagerAccess ι C) (ManagerEffect ι) where
  init := {}
  step := step

/-! ## The list -/

/-- The nodes from a node on, in the order of the links. -/
inductive Linked (nodes : ℕ → CallbackNode C) : Option ℕ → List ℕ → Prop
  | nil : Linked nodes none []
  | cons {node : ℕ} {rest : List ℕ} (hrest : Linked nodes (nodes node).next rest) :
      Linked nodes (some node) (node :: rest)

namespace Linked

variable {nodes nodes' : ℕ → CallbackNode C} {current : Option ℕ} {list : List ℕ}

/-- The links outside of the list do not matter. -/
theorem congr (h : Linked nodes current list)
    (hnext : ∀ node ∈ list, (nodes' node).next = (nodes node).next) :
    Linked nodes' current list := by
  induction h with
  | nil => exact .nil
  | cons hrest ih =>
      apply Linked.cons
      rw [hnext _ List.mem_cons_self]
      exact ih fun node hnode => hnext node (List.mem_cons_of_mem _ hnode)

/-- The list from one of its nodes on. -/
theorem exists_rest (h : Linked nodes current list) {node : ℕ} (hnode : node ∈ list) :
    ∃ rest, Linked nodes (nodes node).next rest ∧ ∀ other ∈ rest, other ∈ list := by
  induction h with
  | nil => cases hnode
  | cons hrest ih =>
      rcases List.mem_cons.mp hnode with rfl | hnode
      · exact ⟨_, hrest, fun other hother => List.mem_cons_of_mem _ hother⟩
      · obtain ⟨rest, hlinked, hsubset⟩ := ih hnode
        exact ⟨rest, hlinked, fun other hother => List.mem_cons_of_mem _ (hsubset other hother)⟩

theorem mem_of_current (h : Linked nodes current list) {node : ℕ} (hnode : current = some node) :
    node ∈ list := by
  cases h with
  | nil => cases hnode
  | cons hrest =>
      cases hnode
      exact List.mem_cons_self

end Linked

/-- The nodes of the list are linked, and the nodes that are not linked yet belong to one thread
each. -/
structure Sound (manager : CallbackManager ι C) (list : List ℕ) : Prop where
  linked : Linked manager.nodes manager.head list
  nodup : list.Nodup
  bounded : ∀ node ∈ list, node < manager.created
  own : ∀ thread node, (manager.threads thread).own = some node →
    node < manager.created ∧ node ∉ list
  distinct : ∀ first second node, (manager.threads first).own = some node →
    (manager.threads second).own = some node → first = second
  cursor : ∀ thread node, (manager.threads thread).cursor = some node → node ∈ list

/-- The nodes of the list keep everything but their flag, which may be cleared. -/
def Kept (list : List ℕ) (before after : CallbackManager ι C) : Prop :=
  ∀ node ∈ list, (after.nodes node).next = (before.nodes node).next ∧
    (after.nodes node).callback = (before.nodes node).callback ∧
    (after.nodes node).id = (before.nodes node).id ∧
    ((after.nodes node).active = true → (before.nodes node).active = true)

namespace Kept

variable {manager : CallbackManager ι C} {list : List ℕ}

theorem refl (list : List ℕ) (manager : CallbackManager ι C) : Kept list manager manager :=
  fun _ _ => ⟨rfl, rfl, rfl, id⟩

theorem trans {first second third : CallbackManager ι C} (h : Kept list first second)
    (h' : Kept list second third) : Kept list first third := by
  intro node hnode
  obtain ⟨hnext, hcallback, hid, hactive⟩ := h node hnode
  obtain ⟨hnext', hcallback', hid', hactive'⟩ := h' node hnode
  exact ⟨hnext'.trans hnext, hcallback'.trans hcallback, hid'.trans hid, hactive ∘ hactive'⟩

theorem mono {list' : List ℕ} {before after : CallbackManager ι C} (h : Kept list before after)
    (hsubset : ∀ node ∈ list', node ∈ list) : Kept list' before after :=
  fun node hnode => h node (hsubset node hnode)

/-- A node that is not on the list. -/
theorem setNode {node : ℕ} {value : CallbackNode C} (hnode : node ∉ list) :
    Kept list manager (manager.setNode node value) := by
  intro other hother
  have hne : other ≠ node := fun hsame => hnode (hsame ▸ hother)
  simp [CallbackManager.setNode, hne]

/-- The removal of a callback. -/
theorem deactivate {node : ℕ} :
    Kept list manager
      (manager.setNode node { manager.nodes node with active := false }) := by
  intro other hother
  by_cases hsame : other = node
  · simp [CallbackManager.setNode, hsame]
  · simp [CallbackManager.setNode, hsame]

end Kept

namespace Sound

variable {manager : CallbackManager ι C} {list : List ℕ} {thread : ι}

/-- The node after one of the list. -/
theorem next_mem (h : Sound manager list) {node next : ℕ} (hnode : node ∈ list)
    (hnext : (manager.nodes node).next = some next) : next ∈ list := by
  obtain ⟨rest, hlinked, hsubset⟩ := h.linked.exists_rest hnode
  exact hsubset next (hlinked.mem_of_current hnext)

theorem setNode (h : Sound manager list) {node : ℕ} {value : CallbackNode C}
    (hnext : node ∈ list → value.next = (manager.nodes node).next) :
    Sound (manager.setNode node value) list where
  linked := by
    apply h.linked.congr
    intro other hother
    simp only [CallbackManager.setNode, Function.update_apply]
    split_ifs with hsame
    · rw [hsame]
      exact hnext (hsame ▸ hother)
    · rfl
  nodup := h.nodup
  bounded := h.bounded
  own := h.own
  distinct := h.distinct
  cursor := h.cursor

end Sound

/-- The ids that registrations have returned. -/
def registeredIds (effects : List (ManagerEffect ι)) : List UInt64 :=
  effects.filterMap fun
    | .registered _ id => some id
    | .refused _ | .unregistered _ _ | .called _ _ => none

variable [DecidableEq ι]

namespace Sound

variable {manager : CallbackManager ι C} {list : List ℕ} {thread : ι}

theorem new : Sound (machine ι C).init [] where
  linked := .nil
  nodup := .nil
  bounded := by simp
  own := by simp [machine, ManagerThread.own]
  distinct := by simp [machine, ManagerThread.own]
  cursor := by simp [machine, ManagerThread.cursor]

/-- A thread goes on with the node it owns, or at a node of the list. -/
theorem goto (h : Sound manager list) {point : ManagerThread C}
    (hown : ∀ node, point.own = some node → (manager.threads thread).own = some node)
    (hcursor : ∀ node, point.cursor = some node → node ∈ list) :
    Sound (manager.goto thread point) list where
  linked := h.linked
  nodup := h.nodup
  bounded := h.bounded
  own other node hnode := by
    simp only [CallbackManager.goto, Function.update_apply] at hnode
    split_ifs at hnode with hother
    · exact h.own thread node (hown node hnode)
    · exact h.own other node hnode
  distinct first second node hfirst hsecond := by
    simp only [CallbackManager.goto, Function.update_apply] at hfirst hsecond
    have howner : ∀ other, (if other = thread then point else manager.threads other).own =
        some node → (manager.threads other).own = some node := by
      intro other hother
      split_ifs at hother with hsame
      · rw [hsame]
        exact hown node hother
      · exact hother
    exact h.distinct first second node (howner first hfirst) (howner second hsecond)
  cursor other node hnode := by
    simp only [CallbackManager.goto, Function.update_apply] at hnode
    split_ifs at hnode with hother
    · exact hcursor node hnode
    · exact h.cursor other node hnode

/-- A new node belongs to the thread that has created it. -/
theorem create (h : Sound manager list) (nextId : UInt64) (registrationAllowed : Bool)
    (value : CallbackNode C) :
    Sound (({ manager with
        nextId
        created := manager.created + 1
        registrationAllowed }.setNode manager.created value).goto thread
          (.created manager.created)) list := by
  have hnew : manager.created ∉ list := fun hmem => (h.bounded _ hmem).ne rfl
  have hunowned : ∀ other, (manager.threads other).own ≠ some manager.created :=
    fun other hother => (h.own other _ hother).1.ne rfl
  constructor
  case linked => exact (h.setNode fun hmem => absurd hmem hnew).linked
  case nodup => exact h.nodup
  case bounded => exact fun node hnode => (h.bounded node hnode).trans (Nat.lt_succ_self _)
  case own =>
      intro other node hnode
      simp only [CallbackManager.goto, CallbackManager.setNode, Function.update_apply] at hnode ⊢
      split_ifs at hnode with hother
      · cases hnode
        exact ⟨Nat.lt_succ_self _, hnew⟩
      · exact ⟨(h.own other node hnode).1.trans (Nat.lt_succ_self _), (h.own other node hnode).2⟩
  case distinct =>
      intro first second node hfirst hsecond
      simp only [CallbackManager.goto, CallbackManager.setNode, Function.update_apply]
        at hfirst hsecond
      split_ifs at hfirst hsecond with heq heq' heq'
      · rw [heq, heq']
      · cases hfirst
        exact absurd hsecond (hunowned second)
      · cases hsecond
        exact absurd hfirst (hunowned first)
      · exact h.distinct first second node hfirst hsecond
  case cursor =>
      intro other node hnode
      simp only [CallbackManager.goto, CallbackManager.setNode, Function.update_apply] at hnode
      split_ifs at hnode
      · cases hnode
      · exact h.cursor other node hnode

/-- The successful exchange puts the node of the thread at the head of the list. -/
theorem link (h : Sound manager list) {node : ℕ} (hown : (manager.threads thread).own = some node)
    (hnext : (manager.nodes node).next = manager.head) :
    Sound ({ manager with head := some node }.goto thread .idle) (node :: list) := by
  obtain ⟨hcreated, hnew⟩ := h.own thread node hown
  constructor
  case linked => exact .cons (hnext ▸ h.linked)
  case nodup => exact List.nodup_cons.mpr ⟨hnew, h.nodup⟩
  case bounded =>
      intro other hother
      rcases List.mem_cons.mp hother with rfl | hother
      · exact hcreated
      · exact h.bounded other hother
  case own =>
      intro other owned howned
      simp only [CallbackManager.goto, Function.update_apply] at howned
      split_ifs at howned with hother
      · cases howned
      · obtain ⟨hbound, hnotMem⟩ := h.own other owned howned
        refine ⟨hbound, fun hmem => ?_⟩
        rcases List.mem_cons.mp hmem with rfl | hmem
        · exact hother (h.distinct other thread owned howned hown)
        · exact hnotMem hmem
  case distinct =>
      intro first second owned hfirst hsecond
      simp only [CallbackManager.goto, Function.update_apply] at hfirst hsecond
      split_ifs at hfirst hsecond
      · cases hfirst
      · cases hfirst
      · cases hsecond
      · exact h.distinct first second owned hfirst hsecond
  case cursor =>
      intro other at' hat
      simp only [CallbackManager.goto, Function.update_apply] at hat
      split_ifs at hat
      · cases hat
      · exact List.mem_cons_of_mem _ (h.cursor other at' hat)

/-- All that one access of a thread inside of a call can do to the list: the nodes that it adds are
those whose registration returns. -/
theorem advance (h : Sound manager list) (fails : Bool) :
    ∃ news, Sound (manager.advance thread fails).1 (news ++ list) ∧
      Kept list manager (manager.advance thread fails).1 ∧
      registeredIds (manager.advance thread fails).2 =
        (news.map fun node => ((manager.advance thread fails).1.nodes node).id).reverse := by
  unfold CallbackManager.advance
  cases hpoint : manager.threads thread with
  | idle => exact ⟨[], h, .refl list manager, rfl⟩
  | allowed callback =>
      refine ⟨[], ?_, .refl list manager, rfl⟩
      have hfetched : Sound { manager with nextId := manager.nextId + 1 } list :=
        ⟨h.linked, h.nodup, h.bounded, h.own, h.distinct, h.cursor⟩
      exact hfetched.goto (fun _ hown => by cases hown) (fun _ hcursor => by cases hcursor)
  | numbered callback id =>
      have hnew : manager.created ∉ list := fun hmem => (h.bounded _ hmem).ne rfl
      exact ⟨[], h.create _ _ _, Kept.setNode hnew, rfl⟩
  | created node =>
      refine ⟨[], h.goto (fun other hown => ?_) (fun _ hcursor => by cases hcursor),
        .refl list manager, rfl⟩
      rw [hpoint]
      exact hown
  | loaded node oldHead =>
      have hown : (manager.threads thread).own = some node := by rw [hpoint]; rfl
      have hnew := (h.own thread node hown).2
      have hset : Sound (manager.setNode node { manager.nodes node with next := oldHead }) list :=
        h.setNode fun hmem => absurd hmem hnew
      dsimp only
      split_ifs with hexchange
      · refine ⟨[node], hset.link hown ?_, Kept.setNode hnew, rfl⟩
        simp only [CallbackManager.setNode, Function.update_self]
        exact hexchange.1.symm
      · refine ⟨[], hset.goto (fun other hother => ?_) (fun _ hcursor => by cases hcursor),
          Kept.setNode hnew, rfl⟩
        cases hother
        exact hown
  | searching current id =>
      cases current with
      | none =>
          exact ⟨[], h.goto (fun _ hown => by cases hown) (fun _ hcursor => by cases hcursor),
            .refl list manager, rfl⟩
      | some node =>
          have hnode : node ∈ list := h.cursor thread node (by rw [hpoint]; rfl)
          dsimp only
          split_ifs
          · have hset : Sound (manager.setNode node
                { manager.nodes node with active := false }) list := h.setNode fun _ => rfl
            exact ⟨[], hset.goto (fun _ hown => by cases hown) (fun _ hcursor => by cases hcursor),
              .deactivate, rfl⟩
          · exact ⟨[], h.goto (fun _ hown => by cases hown)
              (fun next hnext => h.next_mem hnode hnext), .refl list manager, rfl⟩
  | visiting current =>
      cases current with
      | none =>
          exact ⟨[], h.goto (fun _ hown => by cases hown) (fun _ hcursor => by cases hcursor),
            .refl list manager, rfl⟩
      | some node =>
          have hnode : node ∈ list := h.cursor thread node (by rw [hpoint]; rfl)
          dsimp only
          split_ifs
          · refine ⟨[], h.goto (fun _ hown => by cases hown) (fun other hother => ?_),
              .refl list manager, rfl⟩
            cases hother
            exact hnode
          · exact ⟨[], h.goto (fun _ hown => by cases hown)
              (fun next hnext => h.next_mem hnode hnext), .refl list manager, rfl⟩
  | calling node =>
      have hnode : node ∈ list := h.cursor thread node (by rw [hpoint]; rfl)
      refine ⟨[], h.goto (fun _ hown => by cases hown)
        (fun next hnext => h.next_mem hnode hnext), .refl list manager, ?_⟩
      dsimp only
      split_ifs <;> rfl

/-- The list grows at its head, and its nodes stay as they are. -/
theorem step (h : Sound manager list) (access : ManagerAccess ι C) :
    ∃ news, Sound (manager.step access).1 (news ++ list) ∧
      Kept list manager (manager.step access).1 ∧
      registeredIds (manager.step access).2 =
        (news.map fun node => ((manager.step access).1.nodes node).id).reverse := by
  have hhead : ∀ node, manager.head = some node → node ∈ list :=
    fun node => h.linked.mem_of_current
  cases access with
  | registerCallback thread callback =>
      simp only [CallbackManager.step, registerCallback]
      split
      · split_ifs
        · exact ⟨[], h, .refl list manager, rfl⟩
        · exact ⟨[], h.goto (fun _ hown => by cases hown) (fun _ hcursor => by cases hcursor),
            .refl list manager, rfl⟩
      · exact ⟨[], h, .refl list manager, rfl⟩
  | unregisterCallback thread id =>
      simp only [CallbackManager.step, unregisterCallback]
      split
      · exact ⟨[], h.goto (fun _ hown => by cases hown) hhead, .refl list manager, rfl⟩
      · exact ⟨[], h, .refl list manager, rfl⟩
  | invokeAll thread =>
      simp only [CallbackManager.step, invokeAll]
      split
      · exact ⟨[], h.goto (fun _ hown => by cases hown) hhead, .refl list manager, rfl⟩
      · exact ⟨[], h, .refl list manager, rfl⟩
  | advance thread fails => exact h.advance fails

end Sound

/-- The nodes of the list are kept for good. -/
theorem Sound.kept_runFrom {manager : CallbackManager ι C} {list : List ℕ}
    (h : Sound manager list) (accesses : List (ManagerAccess ι C)) :
    Kept list manager ((machine ι C).runFrom manager accesses) := by
  induction accesses generalizing manager list with
  | nil => exact .refl list manager
  | cons access rest ih =>
      obtain ⟨news, hnext, hkept, -⟩ := h.step access
      exact hkept.trans ((ih hnext).mono fun node hnode => List.mem_append_right _ hnode)

/-! ## The ids -/

/-- No id is given twice, as long as the counter has not wrapped. -/
structure Numbered (manager : CallbackManager ι C) : Prop where
  node : ∀ node < manager.created, (manager.nodes node).id < manager.nextId
  thread : ∀ thread id, (manager.threads thread).number = some id → id < manager.nextId
  nodes : ∀ first < manager.created, ∀ second < manager.created,
    (manager.nodes first).id = (manager.nodes second).id → first = second
  threads : ∀ first second id, (manager.threads first).number = some id →
    (manager.threads second).number = some id → first = second
  apart : ∀ thread id, (manager.threads thread).number = some id →
    ∀ node < manager.created, (manager.nodes node).id ≠ id

namespace Numbered

variable {manager : CallbackManager ι C} {thread : ι}

theorem new : Numbered (machine ι C).init where
  node := by simp [machine]
  thread := by simp [machine, ManagerThread.number]
  nodes := by simp [machine]
  threads := by simp [machine, ManagerThread.number]
  apart := by simp [machine, ManagerThread.number]

/-- A thread goes on without a fetched id, and the nodes keep theirs. -/
theorem goto (h : Numbered manager) {after : CallbackManager ι C} {point : ManagerThread C}
    (hnumber : point.number = none) (hnextId : after.nextId = manager.nextId)
    (hcreated : after.created = manager.created) (hthreads : after.threads = manager.threads)
    (hids : ∀ node, (after.nodes node).id = (manager.nodes node).id) :
    Numbered (after.goto thread point) := by
  have hthread : ∀ other id, ((after.goto thread point).threads other).number = some id →
      (manager.threads other).number = some id := by
    intro other id hother
    simp only [CallbackManager.goto, Function.update_apply, hthreads] at hother
    split_ifs at hother
    · rw [hnumber] at hother
      cases hother
    · exact hother
  constructor
  case node =>
      intro node hnode
      simp only [CallbackManager.goto, hnextId, hcreated, hids] at hnode ⊢
      exact h.node node hnode
  case thread =>
      intro other id hother
      simp only [CallbackManager.goto, hnextId]
      exact h.thread other id (hthread other id hother)
  case nodes =>
      intro first hfirst second hsecond hsame
      simp only [CallbackManager.goto, hcreated, hids] at hfirst hsecond hsame
      exact h.nodes first hfirst second hsecond hsame
  case threads =>
      exact fun first second id hfirst hsecond =>
        h.threads first second id (hthread first id hfirst) (hthread second id hsecond)
  case apart =>
      intro other id hother node hnode
      simp only [CallbackManager.goto, hcreated, hids] at hnode ⊢
      exact h.apart other id (hthread other id hother) node hnode

/-- A thread fetches the next id. -/
theorem fetch (h : Numbered manager) (callback : Option C)
    (hbound : manager.nextId.toNat + 1 < 2 ^ 64) :
    Numbered ({ manager with nextId := manager.nextId + 1 }.goto thread
      (.numbered callback manager.nextId)) := by
  have hless : ∀ id, id < manager.nextId → id < manager.nextId + 1 := by
    intro id hid
    rw [UInt64.lt_iff_toNat_lt, UInt64.toNat_add] at *
    simp only [UInt64.toNat_one]
    omega
  have hself : manager.nextId < manager.nextId + 1 := by
    rw [UInt64.lt_iff_toNat_lt, UInt64.toNat_add]
    simp only [UInt64.toNat_one]
    omega
  have hthread : ∀ other id, (({ manager with nextId := manager.nextId + 1 }.goto thread
      (.numbered callback manager.nextId)).threads other).number = some id →
        (other = thread ∧ id = manager.nextId) ∨ (manager.threads other).number = some id := by
    intro other id hother
    simp only [CallbackManager.goto, Function.update_apply] at hother
    split_ifs at hother with hsame
    · cases hother
      exact .inl ⟨hsame, rfl⟩
    · exact .inr hother
  constructor
  case node => exact fun node hnode => hless _ (h.node node hnode)
  case thread =>
      intro other id hother
      rcases hthread other id hother with ⟨-, rfl⟩ | hother
      · exact hself
      · exact hless _ (h.thread other id hother)
  case nodes => exact h.nodes
  case threads =>
      intro first second id hfirst hsecond
      rcases hthread first id hfirst with ⟨rfl, rfl⟩ | hheld
      · rcases hthread second _ hsecond with ⟨rfl, -⟩ | hheld
        · rfl
        · exact absurd (h.thread second _ hheld) (UInt64.lt_irrefl _)
      · rcases hthread second id hsecond with ⟨rfl, rfl⟩ | hheld'
        · exact absurd (h.thread first _ hheld) (UInt64.lt_irrefl _)
        · exact h.threads first second id hheld hheld'
  case apart =>
      intro other id hother node hnode
      rcases hthread other id hother with ⟨-, rfl⟩ | hother
      · exact UInt64.ne_of_lt (h.node node hnode)
      · exact h.apart other id hother node hnode

/-- The id of a thread goes to the node that it creates. -/
theorem create (h : Numbered manager) {callback : Option C} {id : UInt64}
    (hpoint : manager.threads thread = .numbered callback id) :
    Numbered (({ manager with
        created := manager.created + 1
        registrationAllowed := false }.setNode manager.created { callback, id }).goto thread
          (.created manager.created)) := by
  have hid : (manager.threads thread).number = some id := by rw [hpoint]; rfl
  have hthread : ∀ other number, ((({ manager with
      created := manager.created + 1
      registrationAllowed := false }.setNode manager.created { callback, id }).goto thread
        (.created manager.created)).threads other).number = some number →
          other ≠ thread ∧ (manager.threads other).number = some number := by
    intro other number hother
    simp only [CallbackManager.goto, CallbackManager.setNode, Function.update_apply] at hother
    split_ifs at hother with hsame
    · cases hother
    · exact ⟨hsame, hother⟩
  have hnode : ∀ node, node < manager.created + 1 → node = manager.created ∨
      node < manager.created := fun node hnode => by omega
  have hids : ∀ node, (Function.update manager.nodes manager.created { callback, id } node).id =
      if node = manager.created then id else (manager.nodes node).id := by
    intro node
    rw [Function.update_apply]
    split_ifs <;> rfl
  constructor
  case node =>
      intro node hbound
      simp only [CallbackManager.goto, CallbackManager.setNode, hids]
      split_ifs with hnew
      · exact h.thread thread id hid
      · exact h.node node ((hnode node hbound).resolve_left hnew)
  case thread => exact fun other number hother => h.thread other number (hthread other _ hother).2
  case nodes =>
      intro first hfirst second hsecond hsame
      simp only [CallbackManager.goto, CallbackManager.setNode, hids] at hsame
      split_ifs at hsame with hnew hnew' hnew'
      · rw [hnew, hnew']
      · exact absurd hsame.symm (h.apart thread id hid second
          ((hnode second hsecond).resolve_left hnew'))
      · exact absurd hsame (h.apart thread id hid first
          ((hnode first hfirst).resolve_left hnew))
      · exact h.nodes first ((hnode first hfirst).resolve_left hnew) second
          ((hnode second hsecond).resolve_left hnew') hsame
  case threads =>
      exact fun first second number hfirst hsecond => h.threads first second number
        (hthread first _ hfirst).2 (hthread second _ hsecond).2
  case apart =>
      intro other number hother node hbound
      obtain ⟨hne, hother⟩ := hthread other number hother
      simp only [CallbackManager.goto, CallbackManager.setNode, hids]
      split_ifs with hnew
      · rintro rfl
        exact hne (h.threads other thread id hother hid)
      · exact h.apart other number hother node ((hnode node hbound).resolve_left hnew)

/-- The ids after one step, before the counter wraps. -/
theorem step (h : Numbered manager) (hbound : manager.nextId.toNat + 1 < 2 ^ 64)
    (access : ManagerAccess ι C) :
    Numbered (manager.step access).1 ∧
      (manager.step access).1.nextId.toNat ≤ manager.nextId.toNat + 1 := by
  have hsame : manager.nextId.toNat ≤ manager.nextId.toNat + 1 := Nat.le_succ _
  cases access with
  | registerCallback thread callback =>
      simp only [CallbackManager.step, registerCallback]
      split
      · split_ifs
        · exact ⟨h, hsame⟩
        · exact ⟨h.goto rfl rfl rfl rfl fun _ => rfl, hsame⟩
      · exact ⟨h, hsame⟩
  | unregisterCallback thread id =>
      simp only [CallbackManager.step, unregisterCallback]
      split
      · exact ⟨h.goto rfl rfl rfl rfl fun _ => rfl, hsame⟩
      · exact ⟨h, hsame⟩
  | invokeAll thread =>
      simp only [CallbackManager.step, invokeAll]
      split
      · exact ⟨h.goto rfl rfl rfl rfl fun _ => rfl, hsame⟩
      · exact ⟨h, hsame⟩
  | advance thread fails =>
      have hset : ∀ node other (value : CallbackNode C), value.id = (manager.nodes node).id →
          ((manager.setNode node value).nodes other).id = (manager.nodes other).id := by
        intro node other value hid
        simp only [CallbackManager.setNode, Function.update_apply]
        split_ifs with hother
        · rw [hid, hother]
        · rfl
      simp only [CallbackManager.step, advance]
      cases hpoint : manager.threads thread with
      | idle => exact ⟨h, hsame⟩
      | allowed callback =>
          refine ⟨h.fetch callback hbound, ?_⟩
          change (manager.nextId + 1).toNat ≤ _
          rw [UInt64.toNat_add]
          exact Nat.mod_le _ _
      | numbered callback id => exact ⟨h.create hpoint, hsame⟩
      | created node => exact ⟨h.goto rfl rfl rfl rfl fun _ => rfl, hsame⟩
      | loaded node oldHead =>
          dsimp only
          split_ifs
          · exact ⟨h.goto rfl rfl rfl rfl fun other => hset node other _ rfl, hsame⟩
          · exact ⟨h.goto rfl rfl rfl rfl fun other => hset node other _ rfl, hsame⟩
      | searching current id =>
          cases current with
          | none => exact ⟨h.goto rfl rfl rfl rfl fun _ => rfl, hsame⟩
          | some node =>
              dsimp only
              split_ifs
              · exact ⟨h.goto rfl rfl rfl rfl fun other => hset node other _ rfl, hsame⟩
              · exact ⟨h.goto rfl rfl rfl rfl fun _ => rfl, hsame⟩
      | visiting current =>
          cases current with
          | none => exact ⟨h.goto rfl rfl rfl rfl fun _ => rfl, hsame⟩
          | some node =>
              dsimp only
              split_ifs
              · exact ⟨h.goto rfl rfl rfl rfl fun _ => rfl, hsame⟩
              · exact ⟨h.goto rfl rfl rfl rfl fun _ => rfl, hsame⟩
      | calling node => exact ⟨h.goto rfl rfl rfl rfl fun _ => rfl, hsame⟩

theorem run {accesses : List (ManagerAccess ι C)} (hsteps : accesses.length < 2 ^ 64) :
    Numbered ((machine ι C).run accesses) ∧
      ((machine ι C).run accesses).nextId.toNat ≤ accesses.length := by
  induction accesses using List.reverseRecOn with
  | nil => exact ⟨.new, by simp [machine, Machine.run, Machine.runFrom]⟩
  | append_singleton accesses access ih =>
      rw [List.length_append, List.length_singleton] at hsteps ⊢
      obtain ⟨hnumbered, hnextId⟩ := ih (by omega)
      obtain ⟨hnext, hless⟩ := hnumbered.step (by omega) access
      rw [Machine.run_concat]
      refine ⟨hnext, ?_⟩
      change (((machine ι C).run accesses).step access).1.nextId.toNat ≤ _
      omega

end Numbered

/-! ## Runs -/

/-- The list of a run, with the ids of its nodes in the order of their registration. -/
theorem sound_run (accesses : List (ManagerAccess ι C)) :
    ∃ list, Sound ((machine ι C).run accesses) list ∧
      registeredIds ((machine ι C).outputs accesses) =
        (list.map fun node => (((machine ι C).run accesses).nodes node).id).reverse := by
  induction accesses using List.reverseRecOn with
  | nil => exact ⟨[], .new, rfl⟩
  | append_singleton accesses access ih =>
      obtain ⟨list, hsound, hids⟩ := ih
      obtain ⟨news, hnext, hkept, hnews⟩ := hsound.step access
      have hsame : list.map (fun node => (((machine ι C).run accesses).nodes node).id) =
          list.map fun node =>
            ((((machine ι C).run accesses).step access).1.nodes node).id :=
        List.map_congr_left fun node hnode => (hkept node hnode).2.2.1.symm
      refine ⟨news ++ list, ?_, ?_⟩
      · rw [Machine.run_concat]
        exact hnext
      · rw [Machine.outputs_concat, registeredIds, List.filterMap_append, ← registeredIds,
          ← registeredIds, hids, hsame, List.map_append, List.reverse_append, Machine.run_concat]
        exact congrArg _ hnews

/-- The registrations of a run: the callbacks on the list are those whose registration has returned
an id, each once, in the order of the returns; and no id was returned twice. -/
theorem registered_linked (accesses : List (ManagerAccess ι C))
    (hsteps : accesses.length < 2 ^ 64) :
    let final := (machine ι C).run accesses
    let ids := registeredIds ((machine ι C).outputs accesses)
    ∃ list, Linked final.nodes final.head list ∧ list.Nodup ∧
      ids = (list.map fun node => (final.nodes node).id).reverse ∧ ids.Nodup := by
  intro final ids
  obtain ⟨list, hsound, hids⟩ := sound_run accesses
  refine ⟨list, hsound.linked, hsound.nodup, hids, ?_⟩
  rw [show ids = _ from hids, List.nodup_reverse]
  apply hsound.nodup.map_on
  intro first hfirst second hsecond hsame
  exact (Numbered.run hsteps).1.nodes first (hsound.bounded first hfirst) second
    (hsound.bounded second hsecond) hsame

/-! ## One registration -/

/-- No thread is inside of `RegisterCallback`, and none will be. -/
def Closed (manager : CallbackManager ι C) : Prop :=
  manager.registrationAllowed = false ∧ ∀ thread, (manager.threads thread).registering = false

theorem Closed.goto {manager : CallbackManager ι C} (h : Closed manager) {thread : ι}
    {point : ManagerThread C} (hpoint : point.registering = false) :
    Closed (manager.goto thread point) := by
  refine ⟨h.1, fun other => ?_⟩
  simp only [CallbackManager.goto, Function.update_apply]
  split_ifs
  · exact hpoint
  · exact h.2 other

/-- A closed manager stays closed and gives no id. -/
theorem Closed.step {manager : CallbackManager ι C} (h : Closed manager)
    (access : ManagerAccess ι C) :
    Closed (manager.step access).1 ∧ (manager.step access).1.head = manager.head ∧
      registeredIds (manager.step access).2 = [] := by
  cases access with
  | registerCallback thread callback =>
      simp only [CallbackManager.step, registerCallback, h.1]
      split <;> exact ⟨h, rfl, rfl⟩
  | unregisterCallback thread id =>
      simp only [CallbackManager.step, unregisterCallback]
      split
      · exact ⟨h.goto rfl, rfl, rfl⟩
      · exact ⟨h, rfl, rfl⟩
  | invokeAll thread =>
      simp only [CallbackManager.step, invokeAll]
      split
      · exact ⟨h.goto rfl, rfl, rfl⟩
      · exact ⟨h, rfl, rfl⟩
  | advance thread fails =>
      have hthread := h.2 thread
      simp only [CallbackManager.step, advance]
      cases hpoint : manager.threads thread with
      | idle => exact ⟨h, rfl, rfl⟩
      | allowed callback => simp [hpoint, ManagerThread.registering] at hthread
      | numbered callback id => simp [hpoint, ManagerThread.registering] at hthread
      | created node => simp [hpoint, ManagerThread.registering] at hthread
      | loaded node oldHead => simp [hpoint, ManagerThread.registering] at hthread
      | searching current id =>
          cases current with
          | none => exact ⟨h.goto rfl, rfl, rfl⟩
          | some node =>
              dsimp only
              split_ifs
              · exact ⟨Closed.goto ⟨h.1, h.2⟩ rfl, rfl, rfl⟩
              · exact ⟨h.goto rfl, rfl, rfl⟩
      | visiting current =>
          cases current with
          | none => exact ⟨h.goto rfl, rfl, rfl⟩
          | some node =>
              dsimp only
              split_ifs
              · exact ⟨h.goto rfl, rfl, rfl⟩
              · exact ⟨h.goto rfl, rfl, rfl⟩
      | calling node =>
          refine ⟨h.goto rfl, rfl, ?_⟩
          dsimp only
          split_ifs <;> rfl

/-- The first node that is created closes the registration. -/
theorem registrationAllowed_step {manager : CallbackManager ι C}
    (h : 0 < manager.created → manager.registrationAllowed = false)
    (access : ManagerAccess ι C) :
    0 < (manager.step access).1.created → (manager.step access).1.registrationAllowed = false := by
  cases access with
  | registerCallback thread callback =>
      simp only [step, registerCallback]
      split
      · split_ifs <;> exact h
      · exact h
  | unregisterCallback thread id =>
      simp only [step, unregisterCallback]
      split <;> exact h
  | invokeAll thread =>
      simp only [step, invokeAll]
      split <;> exact h
  | advance thread fails =>
      simp only [step, advance]
      split
      all_goals first
        | exact h
        | exact fun _ => rfl
        | (split_ifs <;> exact h)

theorem registrationAllowed_run (accesses : List (ManagerAccess ι C)) :
    0 < ((machine ι C).run accesses).created →
      ((machine ι C).run accesses).registrationAllowed = false := by
  induction accesses using List.reverseRecOn with
  | nil => simp [machine, Machine.run, Machine.runFrom]
  | append_singleton accesses access ih =>
      rw [Machine.run_concat]
      exact registrationAllowed_step ih access

/-- Threads outside of `RegisterCallback` leave the head alone from then on. -/
theorem Closed.runFrom {manager : CallbackManager ι C} (h : Closed manager)
    (accesses : List (ManagerAccess ι C)) :
    registeredIds ((machine ι C).outputsFrom manager accesses) = [] ∧
      ((machine ι C).runFrom manager accesses).head = manager.head := by
  induction accesses generalizing manager with
  | nil => exact ⟨rfl, rfl⟩
  | cons access rest ih =>
      obtain ⟨hnext, hhead, hsilent⟩ := h.step access
      obtain ⟨hlater, hheadLater⟩ := ih hnext
      rw [Machine.outputsFrom_cons]
      refine ⟨?_, hheadLater.trans hhead⟩
      rw [registeredIds, List.filterMap_append, ← registeredIds, ← registeredIds]
      exact List.append_eq_nil_iff.mpr ⟨hsilent, hlater⟩

/-- Once a registration has returned an id and no other is under way, none succeeds any more:
whatever the threads do, no id is returned, and the list keeps its head, its links and the
callbacks and ids of its nodes. -/
theorem registration_closed (before after : List (ManagerAccess ι C))
    (hregistered : registeredIds ((machine ι C).outputs before) ≠ [])
    (hquiet : ∀ thread, (((machine ι C).run before).threads thread).registering = false) :
    let manager := (machine ι C).run before
    let final := (machine ι C).run (before ++ after)
    registeredIds ((machine ι C).outputsFrom manager after) = [] ∧ final.head = manager.head ∧
      ∃ list, Linked manager.nodes manager.head list ∧ Linked final.nodes final.head list ∧
        Kept list manager final := by
  intro manager final
  obtain ⟨list, hsound, hids⟩ := sound_run before
  have hclosed : Closed manager := by
    refine ⟨registrationAllowed_run before ?_, hquiet⟩
    cases list with
    | nil => exact absurd hids hregistered
    | cons node rest => exact Nat.zero_lt_of_lt (hsound.bounded node List.mem_cons_self)
  have hfinal : final = (machine ι C).runFrom manager after :=
    Machine.runFrom_append _ _ before after
  obtain ⟨hsilent, hhead⟩ := hclosed.runFrom after
  have hkept : Kept list manager final := hfinal ▸ hsound.kept_runFrom after
  refine ⟨hsilent, hfinal ▸ hhead, list, hsound.linked, ?_, hkept⟩
  rw [hfinal, hhead, ← hfinal]
  exact hsound.linked.congr fun node hnode => (hkept node hnode).1

/-- Two registrations that overlap, and a third one after them. -/
def overlapping : List (ManagerAccess Bool Nat) :=
  [.registerCallback false (some 7), .registerCallback true (some 8),
    .advance false false, .advance true false, .advance false false, .advance true false,
    .advance false false, .advance true false, .advance false false, .advance true false,
    .advance true false, .registerCallback true (some 9)]

theorem registration_closed_overlapping :
    registeredIds ((machine Bool Nat).outputsFrom ((machine Bool Nat).run overlapping)
      [.registerCallback false (some 9), .advance false false]) = [] :=
  (registration_closed overlapping _ (by decide +kernel) (by decide +kernel)).1

theorem registered_overlapping :
    registeredIds ((machine Bool Nat).outputs overlapping) = [0, 1] ∧
      (registeredIds ((machine Bool Nat).outputs overlapping)).Nodup := by
  obtain ⟨list, -, -, -, hnodup⟩ := registered_linked overlapping (by decide)
  exact ⟨by decide +kernel, hnodup⟩

end CallbackManager

end CryptoBot.Network

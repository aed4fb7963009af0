/-
# Invoking the callbacks

`InvokeAll` walks the list of callbacks while other threads register and remove.
The other threads do not disturb it: the nodes that it has still to go through
stay linked as they are, and all that may happen to them is that their flag is
cleared.  So the walk goes through the list as it was at its start.

Between the test of the flag and the call of the callback there is room for a
removal; a callback that is removed during a walk may be called or not.
-/

import CryptoBot.Network.CallbackManager

namespace CryptoBot.Network

open CryptoBot.Math

universe uc ui

namespace CallbackManager

variable {ι : Type ui} {C : Type uc}

/-- The nodes that a thread inside of `InvokeAll` has still to go through. -/
inductive Walks (manager : CallbackManager ι C) (thread : ι) : List ℕ → Prop
  | done (hidle : manager.threads thread = .idle) : Walks manager thread []
  | visiting {current : Option ℕ} {rest : List ℕ}
      (hpoint : manager.threads thread = .visiting current)
      (hrest : Linked manager.nodes current rest) : Walks manager thread rest
  | calling {node : ℕ} {rest : List ℕ} (hpoint : manager.threads thread = .calling node)
      (hrest : Linked manager.nodes (manager.nodes node).next rest) :
      Walks manager thread (node :: rest)

/-- What the calls of a walk are, given the manager now and when the walk is over. -/
structure Covers (manager final : CallbackManager ι C) (thread : ι) (rest calls : List ℕ) :
    Prop where
  sublist : calls.Sublist rest
  complete : ∀ node ∈ rest, (final.nodes node).active = true →
    (final.nodes node).callback.isSome → node ∈ calls
  active : ∀ node ∈ calls, (manager.nodes node).callback.isSome ∧
    ((manager.nodes node).active = true ∨ manager.threads thread = .calling node)

section Walk

variable {manager final : CallbackManager ι C} {list rest calls : List ℕ} {thread : ι}

/-- The other threads do not disturb a walk. -/
theorem Walks.of_kept {after : CallbackManager ι C} (h : Walks manager thread rest)
    (hkept : Kept list manager after) (hsubset : ∀ node ∈ rest, node ∈ list)
    (hthread : after.threads thread = manager.threads thread) : Walks after thread rest := by
  cases h with
  | done hidle => exact .done (hthread.trans hidle)
  | visiting hpoint hrest =>
      exact .visiting (hthread.trans hpoint)
        (hrest.congr fun node hnode => (hkept node (hsubset node hnode)).1)
  | calling hpoint hrest =>
      apply Walks.calling (hthread.trans hpoint)
      rw [(hkept _ (hsubset _ List.mem_cons_self)).1]
      exact hrest.congr fun node hnode => (hkept node (hsubset node (by simp [hnode]))).1

/-- There is nothing left to call. -/
theorem Covers.of_nil {after : CallbackManager ι C} (h : Covers after final thread [] calls) :
    Covers manager final thread [] ([] ++ calls) := by
  have hnil : calls = [] := List.sublist_nil.mp h.sublist
  subst hnil
  exact ⟨.slnil, by simp, by simp⟩

theorem Covers.of_kept {after : CallbackManager ι C} (h : Covers after final thread rest calls)
    (hkept : Kept list manager after) (hsubset : ∀ node ∈ rest, node ∈ list)
    (hthread : after.threads thread = manager.threads thread) :
    Covers manager final thread rest calls where
  sublist := h.sublist
  complete := h.complete
  active node hnode := by
    obtain ⟨-, hcallback, -, hactive⟩ := hkept node (hsubset node (h.sublist.mem hnode))
    obtain ⟨hsome, hnow⟩ := h.active node hnode
    exact ⟨hcallback ▸ hsome, hnow.imp hactive fun hcalling => hthread ▸ hcalling⟩

end Walk

variable [DecidableEq ι]

/-- The callbacks that a thread calls. -/
def callsOf (thread : ι) (effects : List (ManagerEffect ι)) : List ℕ :=
  effects.filterMap fun
    | .called other node => if other = thread then some node else none
    | .registered _ _ | .refused _ | .unregistered _ _ => none

section Frame

variable {manager : CallbackManager ι C} {thread : ι} {access : ManagerAccess ι C}

/-- A thread stays where it is while others move. -/
theorem threads_step_of_ne (h : access.thread ≠ thread) :
    (manager.step access).1.threads thread = manager.threads thread := by
  have hgoto : ∀ (other : CallbackManager ι C) point,
      (other.goto access.thread point).threads thread = other.threads thread := by
    intro other point
    simp [goto, Function.update_of_ne (Ne.symm h)]
  cases access with
  | registerCallback other callback =>
      simp only [step, registerCallback]
      split
      · split_ifs
        · rfl
        · exact hgoto _ _
      · rfl
  | unregisterCallback other id =>
      simp only [step, unregisterCallback]
      split
      · exact hgoto _ _
      · rfl
  | invokeAll other =>
      simp only [step, invokeAll]
      split
      · exact hgoto _ _
      · rfl
  | advance other fails =>
      simp only [step, advance]
      split
      all_goals first
        | rfl
        | exact hgoto _ _
        | (split_ifs <;> exact hgoto _ _)

/-- Only the thread that makes the step calls a callback in it. -/
theorem callsOf_step_of_ne (h : access.thread ≠ thread) :
    callsOf thread (manager.step access).2 = [] := by
  cases access with
  | registerCallback other callback =>
      simp only [step, registerCallback]
      split
      · split_ifs <;> rfl
      · rfl
  | unregisterCallback other id => rfl
  | invokeAll other => rfl
  | advance other fails =>
      have hother : other ≠ thread := h
      simp only [step, advance]
      split
      all_goals first
        | rfl
        | (split_ifs <;> simp [callsOf, hother])

end Frame

section Walk

variable {manager final : CallbackManager ι C} {list rest calls : List ℕ} {thread : ι}

/-- All that a thread can do in a walk: return, find a node active, or pass a node. -/
theorem Walks.advance_cases (h : Walks manager thread rest) (fails : Bool) :
    (rest = [] ∧ Walks (manager.advance thread fails).1 thread [] ∧
        (manager.advance thread fails).2 = []) ∨
      (∃ node, (manager.nodes node).active = true ∧
        manager.advance thread fails = (manager.goto thread (.calling node), []) ∧
        Walks (manager.goto thread (.calling node)) thread rest) ∨
      ∃ node tail called, rest = node :: tail ∧
        manager.advance thread fails = (manager.goto thread (.visiting (manager.nodes node).next),
          if called then [.called thread node] else []) ∧
        Walks (manager.goto thread (.visiting (manager.nodes node).next)) thread tail ∧
        (called = true → (manager.nodes node).callback.isSome ∧
          manager.threads thread = .calling node) ∧
        (called = false → (manager.nodes node).active = true →
          (manager.nodes node).callback.isSome → False) := by
  cases h with
  | done hidle =>
      left
      simp only [advance, hidle]
      exact ⟨trivial, .done hidle, trivial⟩
  | calling hpoint hrest =>
      rename_i node tail
      right; right
      refine ⟨node, tail, (manager.nodes node).callback.isSome, rfl, by simp [advance, hpoint],
        .visiting (by simp [goto]) hrest, fun hsome => ⟨hsome, hpoint⟩, ?_⟩
      intro hnone _ hsome
      rw [hsome] at hnone
      cases hnone
  | visiting hpoint hrest =>
      cases hrest with
      | nil =>
          left
          simp only [advance, hpoint]
          exact ⟨trivial, .done (by simp [goto]), trivial⟩
      | cons hrest =>
          rename_i node tail
          right
          by_cases hactive : (manager.nodes node).active = true
          · left
            exact ⟨node, hactive, by simp [advance, hpoint, hactive],
              .calling (by simp [goto]) hrest⟩
          · right
            exact ⟨node, tail, false, rfl, by simp [advance, hpoint, hactive],
              .visiting (by simp [goto]) hrest, by simp, fun _ htrue => absurd htrue hactive⟩

/-- The thread finds a node active. -/
theorem Covers.of_active {node : ℕ} (hactive : (manager.nodes node).active = true)
    (h : Covers (manager.goto thread (.calling node)) final thread rest calls) :
    Covers manager final thread rest calls where
  sublist := h.sublist
  complete := h.complete
  active other hother := by
    obtain ⟨hsome, hnow | hcalling⟩ := h.active other hother
    · exact ⟨hsome, .inl hnow⟩
    · have hsame : node = other := by simpa [goto] using hcalling
      exact ⟨hsome, .inl (hsame ▸ hactive)⟩

/-- The thread passes a node, which it has called or not. -/
theorem Covers.pass {node : ℕ} {next : Option ℕ}
    (h : Covers (manager.goto thread (.visiting next)) final thread rest calls) (called : Bool)
    (hmissed : called = false → (final.nodes node).active = true →
      (final.nodes node).callback.isSome → False)
    (hcalled : called = true → (manager.nodes node).callback.isSome ∧
      manager.threads thread = .calling node) :
    Covers manager final thread (node :: rest) ((if called then [node] else []) ++ calls) := by
  have hlater : ∀ other ∈ calls, (manager.nodes other).callback.isSome ∧
      ((manager.nodes other).active = true ∨ manager.threads thread = .calling other) := by
    intro other hother
    obtain ⟨hsome, hnow | hcalling⟩ := h.active other hother
    · exact ⟨hsome, .inl hnow⟩
    · simp [goto] at hcalling
  cases called with
  | true =>
      refine ⟨by simpa using h.sublist, fun other hother hactive hsome => ?_,
        fun other hother => ?_⟩
      · rcases List.mem_cons.mp hother with rfl | hother
        · simp
        · simp [h.complete other hother hactive hsome]
      · rcases List.mem_cons.mp (by simpa using hother) with rfl | hother
        · exact ⟨(hcalled rfl).1, .inr (hcalled rfl).2⟩
        · exact hlater other hother
  | false =>
      refine ⟨by simpa using h.sublist.cons node, fun other hother hactive hsome => ?_,
        fun other hother => hlater other (by simpa using hother)⟩
      rcases List.mem_cons.mp hother with rfl | hother
      · exact (hmissed rfl hactive hsome).elim
      · simpa using h.complete other hother hactive hsome

/-- The calls of a thread from where it stands in a walk until it returns. -/
theorem covers_runFrom (h : Sound manager list) (hwalks : Walks manager thread rest)
    (hsubset : ∀ node ∈ rest, node ∈ list) (accesses : List (ManagerAccess ι C))
    (hadvance : ∀ access ∈ accesses, access.thread = thread → access.isAdvance = true)
    (hreturned : ((machine ι C).runFrom manager accesses).threads thread = .idle) :
    Covers manager ((machine ι C).runFrom manager accesses) thread rest
      (callsOf thread ((machine ι C).outputsFrom manager accesses)) := by
  induction accesses generalizing manager list rest with
  | nil =>
      change manager.threads thread = .idle at hreturned
      cases hwalks with
      | done hidle =>
          exact ⟨.slnil, by simp, by simp [callsOf, Machine.outputsFrom, Machine.traceFrom]⟩
      | visiting hpoint hrest => simp [hpoint] at hreturned
      | calling hpoint hrest => simp [hpoint] at hreturned
  | cons access accesses ih =>
      obtain ⟨news, hnext, hkept, -⟩ := h.step access
      have hlater : ∀ node ∈ rest, node ∈ news ++ list :=
        fun node hnode => List.mem_append_right _ (hsubset node hnode)
      have hadvance' : ∀ access ∈ accesses, access.thread = thread → access.isAdvance = true :=
        fun access hmem => hadvance access (List.mem_cons_of_mem _ hmem)
      have houtputs : callsOf thread ((machine ι C).outputsFrom manager (access :: accesses)) =
          callsOf thread (manager.step access).2 ++
            callsOf thread ((machine ι C).outputsFrom (manager.step access).1 accesses) := by
        rw [Machine.outputsFrom_cons]
        exact List.filterMap_append
      rw [houtputs]
      change ((machine ι C).runFrom (manager.step access).1 accesses).threads thread = .idle
        at hreturned
      change Covers manager ((machine ι C).runFrom (manager.step access).1 accesses) thread rest _
      by_cases hthread : access.thread = thread
      · obtain ⟨fails, rfl⟩ : ∃ fails, access = .advance thread fails := by
          have hisAdvance := hadvance access List.mem_cons_self hthread
          cases access with
          | advance other fails => exact ⟨fails, by rw [show other = thread from hthread]⟩
          | registerCallback other callback => cases hisAdvance
          | unregisterCallback other id => cases hisAdvance
          | invokeAll other => cases hisAdvance
        have hfinal := hnext.kept_runFrom accesses
        rw [show manager.step (.advance thread fails) = manager.advance thread fails from rfl]
          at hnext hkept hreturned hfinal ⊢
        rcases hwalks.advance_cases fails with ⟨rfl, hdone, hsilent⟩ |
          ⟨node, hactive, hstep, hcalling⟩ |
          ⟨node, tail, called, rfl, hstep, htail, hcalled, hmissed⟩
        · rw [hsilent]
          exact (ih hnext hdone hlater hadvance' hreturned).of_nil
        · rw [hstep] at hnext hreturned ⊢
          exact (ih hnext hcalling hlater hadvance' hreturned).of_active hactive
        · rw [hstep] at hnext hreturned hfinal ⊢
          have hcovers := ih hnext htail
            (fun other hother => hlater other (List.mem_cons_of_mem _ hother)) hadvance' hreturned
          have hcalls : callsOf thread (if called then [.called thread node] else []) =
              if called then [node] else [] := by
            cases called <;> simp [callsOf]
          rw [hcalls]
          apply hcovers.pass called _ hcalled
          intro hnot hactive hsome
          obtain ⟨-, hcallback, -, hstays⟩ := hfinal node (hlater node List.mem_cons_self)
          exact hmissed hnot (hstays hactive) (hcallback ▸ hsome)
      · rw [callsOf_step_of_ne hthread, List.nil_append]
        have hsame : (manager.step access).1.threads thread = manager.threads thread :=
          threads_step_of_ne hthread
        exact (ih hnext (hwalks.of_kept hkept hsubset hsame) hlater hadvance' hreturned).of_kept
          hkept hsubset hsame

end Walk

/-- `InvokeAll` among the calls of other threads.  It calls callbacks of the list as it is at the
start, newest first and each at most once: all those that are not removed before it returns, and
none that is removed before it starts. -/
theorem invokeAll_covers (before : List (ManagerAccess ι C)) (thread : ι)
    (during : List (ManagerAccess ι C))
    (hidle : ((machine ι C).run before).threads thread = .idle)
    (hadvance : ∀ access ∈ during, access.thread = thread → access.isAdvance = true)
    (hreturned :
      ((machine ι C).run (before ++ .invokeAll thread :: during)).threads thread = .idle) :
    let start := (machine ι C).run before
    let final := (machine ι C).run (before ++ .invokeAll thread :: during)
    let calls := callsOf thread
      ((machine ι C).outputsFrom ((machine ι C).run (before ++ [.invokeAll thread])) during)
    ∃ list, Linked start.nodes start.head list ∧ list.Nodup ∧ calls.Sublist list ∧
      (∀ node ∈ list, (final.nodes node).active = true → (final.nodes node).callback.isSome →
        node ∈ calls) ∧
      ∀ node ∈ calls, (start.nodes node).active = true ∧ (start.nodes node).callback.isSome := by
  intro start final calls
  obtain ⟨list, hsound, -⟩ := sound_run before
  have hstart : (machine ι C).run (before ++ [.invokeAll thread]) =
      start.goto thread (.visiting start.head) := by
    rw [Machine.run_concat]
    change start.invokeAll thread = _
    rw [invokeAll, show start.threads thread = .idle from hidle]
  have hfinal : final =
      (machine ι C).runFrom (start.goto thread (.visiting start.head)) during := by
    rw [← hstart, Machine.run, ← Machine.runFrom_append, List.append_assoc]
    rfl
  have hgoto : Sound (start.goto thread (.visiting start.head)) list :=
    hsound.goto (fun _ hown => by cases hown) fun node => hsound.linked.mem_of_current
  have hpoint : (start.goto thread (.visiting start.head)).threads thread =
      .visiting start.head := by
    simp [goto]
  have hcovers := covers_runFrom hgoto (.visiting hpoint hsound.linked)
    (fun _ hnode => hnode) during hadvance (hfinal ▸ hreturned)
  rw [← hfinal, ← hstart] at hcovers
  refine ⟨list, hsound.linked, hsound.nodup, hcovers.sublist, hcovers.complete, ?_⟩
  intro node hnode
  obtain ⟨hsome, hactive | hcalling⟩ := hcovers.active node hnode
  · rw [hstart] at hactive hsome
    exact ⟨hactive, hsome⟩
  · rw [hstart] at hcalling
    simp [goto] at hcalling

/-- The newer callback is removed during the walk. -/
def removal : List (ManagerAccess Bool Nat) :=
  [.unregisterCallback true 1, .advance true false, .advance false false, .advance false false,
    .advance false false, .advance false false]

theorem invokeAll_covers_overlapping :
    ∃ list, Linked ((machine Bool Nat).run overlapping).nodes
        ((machine Bool Nat).run overlapping).head list ∧
      (callsOf false ((machine Bool Nat).outputsFrom ((machine Bool Nat).run
        (overlapping ++ [.invokeAll false])) removal)).Sublist list := by
  obtain ⟨list, hlinked, -, hsublist, -⟩ := invokeAll_covers overlapping false removal
    (by decide +kernel) (by decide +kernel) (by decide +kernel)
  exact ⟨list, hlinked, hsublist⟩

end CallbackManager

end CryptoBot.Network

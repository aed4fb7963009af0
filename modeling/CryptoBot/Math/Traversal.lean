/-
# Traversals with a local filter

A visit of a node visits the nodes next to it, and each list of nodes is walked with
a filter for those already met in the same list.  The filter does not see the visits
in progress or the other lists, so a node is visited once for every call that reaches
it, and a visit inside a cycle has no end.

The nodes are visited once each precisely when every reached node has one caller: the
walk of the roots, or one of the reached nodes.
-/

import Mathlib.Data.List.Nodup
import Mathlib.Data.Set.Finite.Lattice

namespace CryptoBot.Math.Traversal

universe u

variable {κ : Type u}

section Calls

variable (next : κ → List κ) (roots : List κ)

inductive Reached : κ → Prop
  | root {node : κ} (hnode : node ∈ roots) : Reached node
  | step {caller node : κ} (hcaller : Reached caller) (hnode : node ∈ next caller) : Reached node

/-- The calls of the traversal; the walk of the roots is the caller `none`. -/
def Calls : Option κ → κ → Prop
  | none, node => node ∈ roots
  | some caller, node => Reached next roots caller ∧ node ∈ next caller

def UniqueCallers : Prop :=
  ∀ node first second, Calls next roots first node → Calls next roots second node → first = second

/-- The nodes that are reached through so many callers. -/
def Level : ℕ → κ → Prop
  | 0, node => node ∈ roots
  | level + 1, node => ∃ caller, Level level caller ∧ node ∈ next caller

/-- Every reached node is visited once, and nothing else is visited. -/
def VisitsOnce (run : ℕ → Option (List κ)) : Prop :=
  ∃ log, (∃ bound, ∀ fuel ≥ bound, run fuel = some log) ∧ log.Nodup ∧
    ∀ node, node ∈ log ↔ Reached next roots node

variable {next roots} {node : κ}

theorem reached_iff_exists_level :
    Reached next roots node ↔ ∃ level, Level next roots level node := by
  constructor
  · intro h
    induction h with
    | root hnode => exact ⟨0, hnode⟩
    | step _ hnode ih =>
        obtain ⟨level, hlevel⟩ := ih
        exact ⟨level + 1, _, hlevel, hnode⟩
  · rintro ⟨level, hlevel⟩
    induction level generalizing node with
    | zero => exact .root hlevel
    | succ level ih =>
        obtain ⟨caller, hcaller, hnode⟩ := hlevel
        exact .step (ih hcaller) hnode

theorem Level.calls {level : ℕ} (h : Level next roots (level + 1) node) :
    ∃ caller, Level next roots level caller ∧ Calls next roots (some caller) node := by
  obtain ⟨caller, hcaller, hnode⟩ := h
  exact ⟨caller, hcaller, reached_iff_exists_level.mpr ⟨level, hcaller⟩, hnode⟩

/-- With one caller for each node, a node has one level. -/
theorem UniqueCallers.level_unique (hunique : UniqueCallers next roots) {first second : ℕ}
    (hfirst : Level next roots first node) (hsecond : Level next roots second node) :
    first = second := by
  induction first generalizing second node with
  | zero =>
      cases second with
      | zero => rfl
      | succ second =>
          obtain ⟨caller, -, hcall⟩ := hsecond.calls
          cases hunique node none (some caller) hfirst hcall
  | succ first ih =>
      obtain ⟨caller, hcaller, hcall⟩ := hfirst.calls
      cases second with
      | zero => cases hunique node (some caller) none hcall hsecond
      | succ second =>
          obtain ⟨other, hother, hcallOther⟩ := hsecond.calls
          obtain rfl : caller = other :=
            Option.some.inj (hunique node (some caller) (some other) hcall hcallOther)
          rw [ih hcaller hother]

theorem UniqueCallers.exists_bound (hunique : UniqueCallers next roots)
    (hfinite : {node | Reached next roots node}.Finite) :
    ∃ bound, ∀ level node, Level next roots level node → level ≤ bound := by
  choose level hlevel using fun node : {node // Reached next roots node} =>
    reached_iff_exists_level.mp node.2
  have hsubtype : Finite {node // Reached next roots node} := hfinite.to_subtype
  obtain ⟨bound, hbound⟩ := (Set.finite_range level).bddAbove
  refine ⟨bound, fun found node hfound => ?_⟩
  have hreached : Reached next roots node := reached_iff_exists_level.mpr ⟨found, hfound⟩
  rw [hunique.level_unique hfound (hlevel ⟨node, hreached⟩)]
  exact hbound ⟨⟨node, hreached⟩, rfl⟩

theorem eq_of_countP_le_one {log : List κ} {p : κ → Bool} {first second : κ}
    (h : log.countP p ≤ 1) (hfirst : first ∈ log) (hpfirst : p first) (hsecond : second ∈ log)
    (hpsecond : p second) :
    first = second := by
  rw [List.countP_eq_length_filter] at h
  have hmemFirst : first ∈ log.filter p := List.mem_filter.mpr ⟨hfirst, hpfirst⟩
  have hmemSecond : second ∈ log.filter p := List.mem_filter.mpr ⟨hsecond, hpsecond⟩
  match hfilter : log.filter p with
  | [] =>
      rw [hfilter] at hmemFirst
      cases hmemFirst
  | [only] =>
      rw [hfilter, List.mem_singleton] at hmemFirst hmemSecond
      rw [hmemFirst, hmemSecond]
  | _ :: _ :: _ =>
      rw [hfilter] at h
      simp at h

end Calls

variable [DecidableEq κ]

/-- The visits of a list, in their order.  A visit without result has no end. -/
def visitEach (visit : κ → Option (List κ)) (processed : List κ) : List κ → Option (List κ)
  | [] => some []
  | node :: rest =>
      if node ∈ processed then visitEach visit processed rest
      else do
        let visited ← visit node
        let later ← visitEach visit (node :: processed) rest
        return visited ++ later

/-- A visit with at most `fuel` visits inside each other. -/
def visit (next : κ → List κ) : ℕ → κ → Option (List κ)
  | 0, _ => none
  | fuel + 1, node => (visitEach (visit next fuel) [] (next node)).map (node :: ·)

/-- A run of the traversal. -/
def run (next : κ → List κ) (roots : List κ) (fuel : ℕ) : Option (List κ) :=
  visitEach (visit next fuel) [] roots

variable {next : κ → List κ} {roots : List κ} {visiting : κ → Option (List κ)} {fuel : ℕ} {node : κ}
  {processed rest log : List κ}

/-! ### One list -/

/-- What a walk over a list with a first node does. -/
theorem visitEach_cons_eq_some_iff :
    visitEach visiting processed (node :: rest) = some log ↔
      (node ∈ processed ∧ visitEach visiting processed rest = some log) ∨
      (node ∉ processed ∧ ∃ visited later, visiting node = some visited ∧
        visitEach visiting (node :: processed) rest = some later ∧ log = visited ++ later) := by
  rw [visitEach]
  by_cases hmem : node ∈ processed
  · simp [hmem]
  · simp only [hmem, if_false, false_and, false_or, not_false_eq_true, true_and]
    cases hvisited : visiting node with
    | none => simp
    | some visited =>
        cases visitEach visiting (node :: processed) rest with
        | none => simp
        | some later => simp [eq_comm]

theorem visit_succ_eq_some_iff : visit next (fuel + 1) node = some log ↔
    ∃ inner, visitEach (visit next fuel) [] (next node) = some inner ∧ log = node :: inner := by
  simp only [visit, Option.map_eq_some_iff, @eq_comm _ log]

/-- What holds of the nodes of every visit holds of the nodes of a walk. -/
theorem forall_mem_visitEach {P : κ → Prop}
    (hvisit : ∀ node ∈ rest, ∀ visited, visiting node = some visited → ∀ other ∈ visited, P other)
    (h : visitEach visiting processed rest = some log) : ∀ other ∈ log, P other := by
  induction rest generalizing processed log with
  | nil =>
      obtain rfl : log = [] := by simpa [visitEach, eq_comm] using h
      simp
  | cons node rest ih =>
      have hrest := fun other hother => hvisit other (List.mem_cons_of_mem node hother)
      rcases visitEach_cons_eq_some_iff.mp h with
        ⟨-, hlater⟩ | ⟨-, visited, later, hvisited, hlater, rfl⟩
      · exact ih hrest hlater
      · intro other hother
        rcases List.mem_append.mp hother with hother | hother
        · exact hvisit node List.mem_cons_self visited hvisited other hother
        · exact ih hrest hlater other hother

theorem exists_visitEach (hvisit : ∀ node ∈ rest, ∃ visited, visiting node = some visited) :
    ∃ log, visitEach visiting processed rest = some log := by
  induction rest generalizing processed with
  | nil => exact ⟨[], rfl⟩
  | cons node rest ih =>
      have hrest := fun other hother => hvisit other (List.mem_cons_of_mem node hother)
      by_cases hmem : node ∈ processed
      · obtain ⟨log, hlog⟩ := ih hrest
        exact ⟨log, visitEach_cons_eq_some_iff.mpr (.inl ⟨hmem, hlog⟩)⟩
      · obtain ⟨visited, hvisited⟩ := hvisit node List.mem_cons_self
        obtain ⟨later, hlater⟩ := ih hrest
        exact ⟨visited ++ later,
          visitEach_cons_eq_some_iff.mpr (.inr ⟨hmem, visited, later, hvisited, hlater, rfl⟩)⟩

theorem visitEach_congr {other : κ → Option (List κ)}
    (hvisit : ∀ node visited, visiting node = some visited → other node = some visited)
    (h : visitEach visiting processed rest = some log) :
    visitEach other processed rest = some log := by
  induction rest generalizing processed log with
  | nil => exact h
  | cons node rest ih =>
      rw [visitEach_cons_eq_some_iff] at h ⊢
      rcases h with ⟨hmem, hlater⟩ | ⟨hmem, visited, later, hvisited, hlater, rfl⟩
      · exact .inl ⟨hmem, ih hlater⟩
      · exact .inr ⟨hmem, visited, later, hvisit node visited hvisited, ih hlater, rfl⟩

/-- More fuel does not change a result. -/
theorem visit_of_le {more : ℕ} (hmore : fuel ≤ more) (h : visit next fuel node = some log) :
    visit next more node = some log := by
  induction fuel generalizing more node log with
  | zero => simp [visit] at h
  | succ fuel ih =>
      obtain ⟨more, rfl⟩ : ∃ larger, more = larger + 1 := ⟨more - 1, by omega⟩
      obtain ⟨inner, hinner, rfl⟩ := visit_succ_eq_some_iff.mp h
      have hsame : visitEach (visit next more) [] (next node) = some inner :=
        visitEach_congr (fun node visited => ih (by omega)) hinner
      exact visit_succ_eq_some_iff.mpr ⟨inner, hsame, rfl⟩

/-! ### The number of visits -/

/-- A walk visits a node once for its own list, and once for every visit of a caller. -/
theorem count_visitEach {target : κ}
    (hvisit : ∀ node visited, visiting node = some visited →
      visited.count target =
        (if target = node then 1 else 0) + visited.countP fun caller => target ∈ next caller)
    (h : visitEach visiting processed rest = some log) :
    log.count target = (if target ∈ rest ∧ target ∉ processed then 1 else 0) +
      log.countP fun caller => target ∈ next caller := by
  induction rest generalizing processed log with
  | nil =>
      obtain rfl : log = [] := by simpa [visitEach, eq_comm] using h
      simp
  | cons node rest ih =>
      rcases visitEach_cons_eq_some_iff.mp h with
        ⟨hmem, hlater⟩ | ⟨hmem, visited, later, hvisited, hlater, rfl⟩
      · have hsame : (target ∈ node :: rest ∧ target ∉ processed) ↔
            (target ∈ rest ∧ target ∉ processed) := by
          grind
        simp only [hsame, ih hlater]
      · have hsum : (if target = node then 1 else 0) +
            (if target ∈ rest ∧ target ∉ node :: processed then 1 else 0) =
              if target ∈ node :: rest ∧ target ∉ processed then 1 else 0 := by
          by_cases heq : target = node <;> simp [heq, hmem]
        rw [List.count_append, List.countP_append, hvisit node visited hvisited, ih hlater, ← hsum]
        omega

theorem count_visit {target : κ} (h : visit next fuel node = some log) :
    log.count target =
      (if target = node then 1 else 0) + log.countP fun caller => target ∈ next caller := by
  induction fuel generalizing node log with
  | zero => simp [visit] at h
  | succ fuel ih =>
      obtain ⟨inner, hinner, rfl⟩ := visit_succ_eq_some_iff.mp h
      have hcount := count_visitEach (fun node visited => ih) hinner
      rw [List.count_cons, hcount, List.countP_cons]
      simp only [List.not_mem_nil, not_false_eq_true, and_true, beq_iff_eq, decide_eq_true_eq,
        @eq_comm _ node target]
      omega

theorem count_run {target : κ} (h : run next roots fuel = some log) :
    log.count target =
      (if target ∈ roots then 1 else 0) + log.countP fun caller => target ∈ next caller := by
  have hcount : log.count target = (if target ∈ roots ∧ target ∉ [] then 1 else 0) +
      log.countP fun caller => target ∈ next caller :=
    count_visitEach (fun node visited => count_visit) h
  simpa using hcount

theorem reached_of_mem_visit (hnode : Reached next roots node)
    (h : visit next fuel node = some log) : ∀ other ∈ log, Reached next roots other := by
  induction fuel generalizing node log with
  | zero => simp [visit] at h
  | succ fuel ih =>
      obtain ⟨inner, hinner, rfl⟩ := visit_succ_eq_some_iff.mp h
      rw [List.forall_mem_cons]
      refine ⟨hnode, forall_mem_visitEach ?_ hinner⟩
      intro child hchild visited hvisited
      exact ih (.step hnode hchild) hvisited

theorem reached_of_mem_run (h : run next roots fuel = some log) :
    ∀ other ∈ log, Reached next roots other :=
  forall_mem_visitEach (fun _ hroot _ => reached_of_mem_visit (.root hroot)) h

/-! ### Termination and visits -/

theorem exists_visit {bound level : ℕ}
    (hbound : ∀ level node, Level next roots level node → level ≤ bound)
    (hlevel : Level next roots level node) (hfuel : bound < level + fuel) :
    ∃ log, visit next fuel node = some log := by
  induction fuel generalizing level node with
  | zero =>
      have hle := hbound level node hlevel
      omega
  | succ fuel ih =>
      have hnext : ∀ child ∈ next node, ∃ visited, visit next fuel child = some visited := by
        intro child hchild
        have hchildLevel : Level next roots (level + 1) child := ⟨node, hlevel, hchild⟩
        exact ih hchildLevel (by omega)
      obtain ⟨inner, hinner⟩ := exists_visitEach hnext
      exact ⟨node :: inner, visit_succ_eq_some_iff.mpr ⟨inner, hinner, rfl⟩⟩

theorem UniqueCallers.exists_run (hunique : UniqueCallers next roots)
    (hfinite : {node | Reached next roots node}.Finite) :
    ∃ bound log, ∀ fuel ≥ bound, run next roots fuel = some log := by
  obtain ⟨bound, hbound⟩ := hunique.exists_bound hfinite
  have hroots : ∀ node ∈ roots, ∃ visited, visit next (bound + 1) node = some visited := by
    intro node hnode
    exact exists_visit hbound (show Level next roots 0 node from hnode) (by omega)
  obtain ⟨log, hlog⟩ := exists_visitEach hroots
  refine ⟨bound + 1, log, fun fuel hfuel => ?_⟩
  exact visitEach_congr (fun node visited => visit_of_le hfuel) hlog

/-- With one caller for each node, a node of a run is visited once. -/
theorem UniqueCallers.count_run (hunique : UniqueCallers next roots)
    (hrun : run next roots fuel = some log) {level : ℕ} (hlevel : Level next roots level node) :
    log.count node = 1 := by
  have hcalls : ∀ caller ∈ log, node ∈ next caller → Calls next roots (some caller) node :=
    fun caller hcaller hnode => ⟨reached_of_mem_run hrun caller hcaller, hnode⟩
  induction level generalizing node with
  | zero =>
      have hnone : log.countP (fun caller => node ∈ next caller) = 0 := by
        rw [List.countP_eq_zero]
        intro caller hcaller hnode
        cases hunique node none (some caller) hlevel
          (hcalls caller hcaller (of_decide_eq_true hnode))
      have hroot : node ∈ roots := hlevel
      rw [Traversal.count_run hrun, hnone, if_pos hroot]
  | succ level ih =>
      obtain ⟨caller, hcaller, hcall⟩ := hlevel.calls
      have hroot : node ∉ roots := by
        intro hroot
        cases hunique node none (some caller) hroot hcall
      have honly : log.countP (fun other => node ∈ next other) = log.count caller := by
        apply List.countP_congr
        intro other hother
        simp only [decide_eq_true_eq, beq_iff_eq]
        constructor
        · intro hnode
          exact Option.some.inj (hunique node _ _ (hcalls other hother hnode) hcall)
        · rintro rfl
          exact hcall.2
      rw [Traversal.count_run hrun, if_neg hroot, honly, Nat.zero_add]
      exact ih hcaller fun other hother hnode => ⟨reached_of_mem_run hrun other hother, hnode⟩

theorem UniqueCallers.visitsOnce_run (hunique : UniqueCallers next roots)
    (hfinite : {node | Reached next roots node}.Finite) :
    VisitsOnce next roots (run next roots) := by
  obtain ⟨bound, log, hlog⟩ := hunique.exists_run hfinite
  have hrun : run next roots bound = some log := hlog bound le_rfl
  have hcount : ∀ node, Reached next roots node → log.count node = 1 := by
    intro node hnode
    obtain ⟨level, hlevel⟩ := reached_iff_exists_level.mp hnode
    exact hunique.count_run hrun hlevel
  refine ⟨log, ⟨bound, hlog⟩, ?_, fun node => ⟨reached_of_mem_run hrun node, fun hnode => ?_⟩⟩
  · rw [List.nodup_iff_count_le_one]
    intro node
    by_cases hmem : node ∈ log
    · exact (hcount node (reached_of_mem_run hrun node hmem)).le
    · rw [List.count_eq_zero_of_not_mem hmem]
      exact Nat.zero_le 1
  · rw [← List.count_pos_iff, hcount node hnode]
    exact Nat.one_pos

theorem VisitsOnce.uniqueCallers (h : VisitsOnce next roots (run next roots)) :
    UniqueCallers next roots := by
  obtain ⟨log, ⟨bound, hlog⟩, hnodup, hmem⟩ := h
  intro node first second hfirst hsecond
  have hle : (if node ∈ roots then 1 else 0) +
      log.countP (fun caller => node ∈ next caller) ≤ 1 := by
    rw [← count_run (hlog bound le_rfl)]
    exact List.nodup_iff_count_le_one.mp hnodup node
  have hcaller : ∀ caller, Calls next roots (some caller) node →
      caller ∈ log ∧ decide (node ∈ next caller) = true :=
    fun caller hcall => ⟨(hmem caller).mpr hcall.1, decide_eq_true hcall.2⟩
  have honce : log.countP (fun caller => node ∈ next caller) ≤ 1 := by omega
  -- a root has no caller among the visited nodes
  have hroot : ∀ caller, node ∈ roots → ¬ Calls next roots (some caller) node := by
    intro caller hroot hcall
    have hpos : 0 < log.countP (fun caller => node ∈ next caller) :=
      List.countP_pos_iff.mpr ⟨caller, hcaller caller hcall⟩
    rw [if_pos hroot] at hle
    omega
  cases first with
  | none =>
      cases second with
      | none => rfl
      | some caller => exact absurd hsecond (hroot caller hfirst)
  | some caller =>
      cases second with
      | none => exact absurd hfirst (hroot caller hsecond)
      | some other =>
          obtain ⟨hmemCaller, hcallerNode⟩ := hcaller caller hfirst
          obtain ⟨hmemOther, hotherNode⟩ := hcaller other hsecond
          rw [eq_of_countP_le_one honce hmemCaller hcallerNode hmemOther hotherNode]

theorem visitsOnce_run_iff (hfinite : {node | Reached next roots node}.Finite) :
    VisitsOnce next roots (run next roots) ↔ UniqueCallers next roots :=
  ⟨VisitsOnce.uniqueCallers, fun hunique => hunique.visitsOnce_run hfinite⟩

end CryptoBot.Math.Traversal

/-
# Replaying a journal from a listing

A journal numbers the changes of a map.  A replica that knows the map at one
number catches up from listings: a listing of a range of numbers gives the value
at the end of the range of every key changed in it.  The range may start too
early, in which case some of its changes are applied a second time; that does no
harm because the values are absolute and those at the end of the range.
-/

import CryptoBot.Math.LastWrite

namespace CryptoBot.Math

universe uk uq

/-- A map and the numbered changes made to it. -/
structure Journal (K : Type uk) (Q : Type uq) where
  start : K → Q
  changes : List (Nat × (K × Q))

namespace Journal

variable {K : Type uk} {Q : Type uq} [DecidableEq K] (journal : Journal K Q)

/-- The map after all changes with numbers up to `number`. -/
def stateAt (number : Nat) : K → Q :=
  writes journal.start
    ((journal.changes.filter fun change => change.1 ≤ number).map Prod.snd)

/-- Some change of the range is a change of `key`. -/
def ChangedIn (first last : Nat) (key : K) : Prop :=
  ∃ change ∈ journal.changes, first ≤ change.1 ∧ change.1 ≤ last ∧ change.2.1 = key

/-- The entries give the value at `last` of every key changed between `first`
and `last`.  They may repeat a key or give keys that were not changed. -/
structure Lists (first last : Nat) (entries : List (K × Q)) : Prop where
  correct : ∀ entry ∈ entries, entry.2 = journal.stateAt last entry.1
  complete : ∀ key, journal.ChangedIn first last key → key ∈ entries.map Prod.fst

/-- The entries are the nonzero values at `number`. -/
def ListsAll [Zero Q] (number : Nat) (entries : List (K × Q)) : Prop :=
  ∀ key value, (key, value) ∈ entries ↔ journal.stateAt number key = value ∧ value ≠ 0

variable {journal}

/-- A key keeps its value over a range without a change of it. -/
theorem stateAt_eq_of_not_changedIn {first last : Nat} {key : K} (hle : first ≤ last)
    (h : ¬ journal.ChangedIn (first + 1) last key) :
    journal.stateAt last key = journal.stateAt first key := by
  refine writes_filter_apply_congr (fun change hchange hkey => ?_) rfl
  rw [decide_eq_decide]
  refine ⟨fun hlast => ?_, fun hfirst => Nat.le_trans hfirst hle⟩
  by_contra hlater
  exact h ⟨change, hchange, by omega, hlast, hkey⟩

/-- A listing is checked entry by entry and change by change. -/
theorem Lists.of_forall_change {first last : Nat} {entries : List (K × Q)}
    (hcorrect : ∀ entry ∈ entries, entry.2 = journal.stateAt last entry.1)
    (hcomplete : ∀ change ∈ journal.changes, first ≤ change.1 → change.1 ≤ last →
      change.2.1 ∈ entries.map Prod.fst) : journal.Lists first last entries := by
  refine ⟨hcorrect, ?_⟩
  rintro key ⟨change, hchange, hfirst, hlast, rfl⟩
  exact hcomplete change hchange hfirst hlast

/-- A listing that starts no later than right after `number` and does not end
before it carries the map from `number` to the end of its range. -/
theorem Lists.writes_stateAt {first last number : Nat} {entries : List (K × Q)}
    (hlists : journal.Lists first last entries) (hfirst : first ≤ number + 1)
    (hlast : number ≤ last) :
    writes (journal.stateAt number) entries = journal.stateAt last := by
  funext key
  by_cases hkey : key ∈ entries.map Prod.fst
  · refine writes_apply_of_forall_mem hkey (fun entry hentry heq => ?_) _
    rw [hlists.correct entry hentry, heq]
  · rw [writes_apply_of_notMem hkey]
    refine (stateAt_eq_of_not_changedIn hlast fun hchanged => hkey ?_).symm
    obtain ⟨change, hchange, hlower, hupper, heq⟩ := hchanged
    exact hlists.complete key ⟨change, hchange, by omega, hupper, heq⟩

/-- A full listing determines the map. -/
theorem ListsAll.writes_zero [Zero Q] {number : Nat} {entries : List (K × Q)}
    (hlists : journal.ListsAll number entries) :
    writes (fun _ => 0) entries = journal.stateAt number := by
  funext key
  by_cases hkey : key ∈ entries.map Prod.fst
  · refine writes_apply_of_forall_mem hkey (fun entry hentry heq => ?_) _
    rw [← heq]
    exact ((hlists entry.1 entry.2).mp hentry).1.symm
  · rw [writes_apply_of_notMem hkey]
    by_contra hne
    exact hkey (List.mem_map.mpr ⟨_, (hlists key _).mpr ⟨rfl, fun h => hne h.symm⟩, rfl⟩)

end Journal

end CryptoBot.Math

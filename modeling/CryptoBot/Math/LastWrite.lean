/-
# Last write wins

A stream of absolute values, each addressed to a key, determines a map: every
key holds the value of its last write and keeps its earlier value when it is
never written.  The lemmas say how the map depends on the list: only through the
last write of each key, so writing a key makes its earlier value irrelevant, and
writes of other keys can be added or left out.
-/

import Mathlib.Logic.Function.Basic
import Mathlib.Data.List.Nodup

namespace CryptoBot.Math

universe uk uq

variable {K : Type uk} {Q : Type uq} [DecidableEq K]

/-- The map `start` after the writes of `entries`, applied from left to right. -/
def writes (start : K → Q) (entries : List (K × Q)) : K → Q :=
  entries.foldl (fun values entry => Function.update values entry.1 entry.2) start

@[simp]
theorem writes_nil (start : K → Q) : writes start [] = start := rfl

@[simp]
theorem writes_cons (start : K → Q) (entry : K × Q) (entries : List (K × Q)) :
    writes start (entry :: entries) =
      writes (Function.update start entry.1 entry.2) entries := rfl

theorem writes_append (start : K → Q) (first second : List (K × Q)) :
    writes start (first ++ second) = writes (writes start first) second := by
  simp [writes]

/-- A key that is not written keeps its value. -/
theorem writes_apply_of_notMem {entries : List (K × Q)} {key : K}
    (hkey : key ∉ entries.map Prod.fst) (start : K → Q) :
    writes start entries key = start key := by
  induction entries generalizing start with
  | nil => rfl
  | cons entry entries ih =>
      simp only [List.map_cons, List.mem_cons, not_or] at hkey
      rw [writes_cons, ih hkey.2, Function.update_of_ne hkey.1]

/-- A key that is written does not depend on its earlier value. -/
theorem writes_apply_eq_of_mem {entries : List (K × Q)} {key : K}
    (hkey : key ∈ entries.map Prod.fst) (first second : K → Q) :
    writes first entries key = writes second entries key := by
  induction entries generalizing first second with
  | nil => simp at hkey
  | cons entry entries ih =>
      rw [writes_cons, writes_cons]
      by_cases hlater : key ∈ entries.map Prod.fst
      · exact ih hlater _ _
      · have hhere : key = entry.1 := by simpa [hlater] using hkey
        rw [writes_apply_of_notMem hlater, writes_apply_of_notMem hlater, hhere,
          Function.update_self, Function.update_self]

/-- A key that is written holds the value of one of its writes. -/
theorem mem_writes_of_mem {entries : List (K × Q)} {key : K}
    (hkey : key ∈ entries.map Prod.fst) (start : K → Q) :
    (key, writes start entries key) ∈ entries := by
  induction entries generalizing start with
  | nil => simp at hkey
  | cons entry entries ih =>
      rw [writes_cons]
      by_cases hlater : key ∈ entries.map Prod.fst
      · exact List.mem_cons_of_mem _ (ih hlater _)
      · have hhere : key = entry.1 := by simpa [hlater] using hkey
        rw [writes_apply_of_notMem hlater, hhere, Function.update_self]
        exact List.mem_cons_self

/-- A key that is written with one value only holds that value. -/
theorem writes_apply_of_forall_mem {entries : List (K × Q)} {key : K} {value : Q}
    (hkey : key ∈ entries.map Prod.fst)
    (hvalue : ∀ entry ∈ entries, entry.1 = key → entry.2 = value) (start : K → Q) :
    writes start entries key = value := by
  induction entries generalizing start with
  | nil => simp at hkey
  | cons entry entries ih =>
      rw [writes_cons]
      by_cases hlater : key ∈ entries.map Prod.fst
      · exact ih hlater (fun later hmem => hvalue later (by simp [hmem])) _
      · have hhere : key = entry.1 := by simpa [hlater] using hkey
        rw [writes_apply_of_notMem hlater, hhere, Function.update_self]
        exact hvalue entry (by simp) hhere.symm

/-- Writes of distinct keys may come in any order. -/
theorem writes_eq_of_perm {first second : List (K × Q)} (hperm : first.Perm second)
    (hnodup : (first.map Prod.fst).Nodup) (start : K → Q) :
    writes start first = writes start second := by
  apply hperm.foldl_eq'
  intro entry hentry other hother values
  by_cases hkey : entry.1 = other.1
  · have hsame : entry = other := List.inj_on_of_nodup_map hnodup hentry hother hkey
    rw [hsame]
  · exact Function.update_comm hkey _ _ _

/-- The value of a key depends only on the writes of that key: two selections
from one list that agree on them agree on the key. -/
theorem writes_filter_apply_congr {α : Type*} {items : List α} {entry : α → K × Q} {key : K}
    {first second : α → Bool}
    (h : ∀ item ∈ items, (entry item).1 = key → first item = second item)
    {start other : K → Q} (hstart : start key = other key) :
    writes start ((items.filter first).map entry) key =
      writes other ((items.filter second).map entry) key := by
  induction items generalizing start other with
  | nil => exact hstart
  | cons item items ih =>
      have hrest : ∀ later ∈ items, (entry later).1 = key → first later = second later :=
        fun later hlater => h later (by simp [hlater])
      -- a write of another key leaves the two maps equal at `key`
      have hskip (values : K → Q) (hkey : (entry item).1 ≠ key) :
          Function.update values (entry item).1 (entry item).2 key = values key :=
        Function.update_of_ne (Ne.symm hkey) _ _
      rw [List.filter_cons, List.filter_cons]
      by_cases hkey : (entry item).1 = key
      · rw [h item (by simp) hkey]
        cases second item with
        | false => exact ih hrest hstart
        | true =>
            apply ih hrest
            subst hkey
            simp
      · cases first item <;> cases second item
        · exact ih hrest hstart
        · exact ih hrest (hstart.trans (hskip other hkey).symm)
        · exact ih hrest ((hskip start hkey).trans hstart)
        · exact ih hrest ((hskip start hkey).trans (hstart.trans (hskip other hkey).symm))

/-- Earlier writes can be left out exactly when each of them that changed its key
is overwritten later. -/
theorem writes_append_eq_iff (start : K → Q) (first second : List (K × Q)) :
    writes start (first ++ second) = writes start second ↔
      ∀ key ∈ first.map Prod.fst, writes start first key ≠ start key →
        key ∈ second.map Prod.fst := by
  rw [writes_append]
  constructor
  · intro hequal key _ hchanged
    by_contra hkept
    have hkey := congrFun hequal key
    rw [writes_apply_of_notMem hkept, writes_apply_of_notMem hkept] at hkey
    exact hchanged hkey
  · intro hcovered
    funext key
    by_cases hsecond : key ∈ second.map Prod.fst
    · exact writes_apply_eq_of_mem hsecond _ _
    · rw [writes_apply_of_notMem hsecond, writes_apply_of_notMem hsecond]
      by_cases hfirst : key ∈ first.map Prod.fst
      · by_contra hchanged
        exact hsecond (hcovered key hfirst hchanged)
      · exact writes_apply_of_notMem hfirst start

end CryptoBot.Math

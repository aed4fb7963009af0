/-
# Ladders

A ladder is a finite map kept in a strict total order of its keys: each key
occurs once and no value is zero.  It is the shape of one side of a limit order
book, with the order chosen so that the best key comes first.

Storing the sortedness and the absence of zeros in the structure makes the
representation canonical: two ladders with the same values are equal, so every
equation between ladders is an equation between functions.  The `best` entry is
the head of the list, and `best_eq_some_iff` reads it back as the
order-theoretic best key of the values.  `isRanked_entries` does the same for
every position of the list.
-/

import CryptoBot.Math.LastWrite
import Mathlib.Order.RelClasses
import Mathlib.Data.List.Perm.Basic
import Mathlib.Data.List.Pairwise
import Mathlib.Data.Set.Card

namespace CryptoBot.Math

universe uk uq

/-- A finite map from keys to nonzero values, listed in the order `r`. -/
@[ext]
structure Ladder {K : Type uk} (r : K → K → Prop) (Q : Type uq) [Zero Q] where
  entries : List (K × Q)
  sorted : entries.Pairwise fun first second => r first.1 second.1
  nonzero : ∀ entry ∈ entries, entry.2 ≠ 0

/-- `key` is the best key of `values` in the order `r`, and `value` its value. -/
def IsBest {K : Type uk} {Q : Type uq} [Zero Q] (r : K → K → Prop)
    (values : K → Q) (key : K) (value : Q) : Prop :=
  values key = value ∧ value ≠ 0 ∧ ∀ other, values other ≠ 0 → other ≠ key → r key other

/-- `key` has the nonzero value `value`, and `rank` keys come before it. -/
def IsRanked {K : Type uk} {Q : Type uq} [Zero Q] (r : K → K → Prop)
    (values : K → Q) (rank : Nat) (key : K) (value : Q) : Prop :=
  values key = value ∧ value ≠ 0 ∧ {other | values other ≠ 0 ∧ r other key}.ncard = rank

namespace Ladder

variable {K : Type uk} {Q : Type uq} {r : K → K → Prop} [Zero Q]

/-- The ladder without entries. -/
def empty : Ladder r Q := ⟨[], .nil, by simp⟩

@[simp]
theorem entries_empty : (empty : Ladder r Q).entries = [] := rfl

/-- The entries come in the order `r`, by position. -/
theorem sorted_entries (ladder : Ladder r Q) {first second : Nat} (hless : first < second)
    (h : second < ladder.entries.length) :
    r (ladder.entries[first]).1 (ladder.entries[second]).1 :=
  List.pairwise_iff_getElem.mp ladder.sorted first second (by omega) h hless

/-- The first entry. -/
def best (ladder : Ladder r Q) : Option (K × Q) := ladder.entries.head?

section Order

variable [IsStrictTotalOrder K r] (ladder : Ladder r Q)

theorem keys_nodup : (ladder.entries.map Prod.fst).Nodup := by
  rw [List.Nodup, List.pairwise_map]
  apply ladder.sorted.imp
  intro first second h heq
  rw [heq] at h
  exact irrefl_of r second.1 h

/-- Distinct entries have distinct keys. -/
theorem value_unique {key : K} {first second : Q}
    (hfirst : (key, first) ∈ ladder.entries) (hsecond : (key, second) ∈ ladder.entries) :
    first = second := by
  have hequal := List.inj_on_of_nodup_map ladder.keys_nodup hfirst hsecond rfl
  exact congrArg Prod.snd hequal

/-- The entries are determined by the set of their members. -/
theorem ext_mem {first second : Ladder r Q}
    (h : ∀ entry, entry ∈ first.entries ↔ entry ∈ second.entries) : first = second := by
  have hperm : first.entries.Perm second.entries :=
    (List.perm_ext_iff_of_nodup first.keys_nodup.of_map second.keys_nodup.of_map).mpr h
  refine Ladder.ext (hperm.eq_of_pairwise ?_ first.sorted second.sorted)
  intro a b _ _ hab hba
  exact (asymm_of r hab hba).elim

end Order

section Values

variable [DecidableEq K] (ladder : Ladder r Q)

/-- The value of a key, zero when the key has no entry. -/
def get (key : K) : Q := (ladder.entries.lookup key).getD 0

theorem mem_entries_of_get_ne_zero {key : K} (h : ladder.get key ≠ 0) :
    (key, ladder.get key) ∈ ladder.entries := by
  unfold get at h ⊢
  cases hlookup : ladder.entries.lookup key with
  | none => simp [hlookup] at h
  | some value =>
      obtain ⟨before, after, heq, -⟩ := List.lookup_eq_some_iff.mp hlookup
      simp [heq]

variable [IsStrictTotalOrder K r]

theorem get_of_mem {key : K} {value : Q} (h : (key, value) ∈ ladder.entries) :
    ladder.get key = value := by
  have hsome : ladder.get key ≠ 0 := by
    unfold get
    cases hlookup : ladder.entries.lookup key with
    | none =>
        have hnone := List.lookup_eq_none_iff.mp hlookup (key, value) h
        simp at hnone
    | some found =>
        obtain ⟨before, after, heq, -⟩ := List.lookup_eq_some_iff.mp hlookup
        exact ladder.nonzero (key, found) (by simp [heq])
  exact ladder.value_unique (ladder.mem_entries_of_get_ne_zero hsome) h

/-- Membership is a statement about the values. -/
theorem mem_entries_iff {key : K} {value : Q} :
    (key, value) ∈ ladder.entries ↔ ladder.get key = value ∧ value ≠ 0 := by
  constructor
  · intro h
    exact ⟨ladder.get_of_mem h, ladder.nonzero _ h⟩
  · rintro ⟨rfl, hne⟩
    exact ladder.mem_entries_of_get_ne_zero hne

theorem get_eq_zero_iff {key : K} :
    ladder.get key = 0 ↔ ∀ value, (key, value) ∉ ladder.entries := by
  constructor
  · intro h value hmem
    obtain ⟨hget, hne⟩ := ladder.mem_entries_iff.mp hmem
    exact hne (hget.symm.trans h)
  · intro h
    by_contra hne
    exact h _ (ladder.mem_entries_of_get_ne_zero hne)

/-- A ladder is determined by its values. -/
theorem ext_get {first second : Ladder r Q} (h : first.get = second.get) :
    first = second :=
  ext_mem fun ⟨key, value⟩ => by rw [mem_entries_iff, mem_entries_iff, h]

theorem best_eq_some_iff {key : K} {value : Q} :
    ladder.best = some (key, value) ↔ IsBest r ladder.get key value := by
  constructor
  · intro h
    obtain ⟨rest, hentries⟩ := List.head?_eq_some_iff.mp h
    have hhead : (key, value) ∈ ladder.entries := by simp [hentries]
    obtain ⟨hget, hne⟩ := ladder.mem_entries_iff.mp hhead
    refine ⟨hget, hne, fun other hother hdistinct => ?_⟩
    have hmem := ladder.mem_entries_of_get_ne_zero hother
    rw [hentries, List.mem_cons] at hmem
    have htail := hmem.resolve_left fun heq => hdistinct (congrArg Prod.fst heq)
    have hsorted := ladder.sorted
    rw [hentries, List.pairwise_cons] at hsorted
    exact hsorted.1 _ htail
  · rintro ⟨hget, hne, hbest⟩
    have hmem := ladder.mem_entries_iff.mpr ⟨hget, hne⟩
    cases hentries : ladder.entries with
    | nil => simp [hentries] at hmem
    | cons head rest =>
        have hhead : head ∈ ladder.entries := by simp [hentries]
        have hsorted := ladder.sorted
        rw [hentries, List.pairwise_cons] at hsorted
        rw [hentries, List.mem_cons] at hmem
        rcases hmem with rfl | htail
        · simp [best, hentries]
        · -- a best key cannot be strictly after the head
          have hafter := hsorted.1 _ htail
          obtain ⟨hheadGet, hheadNe⟩ := ladder.mem_entries_iff.mp hhead
          have hdistinct : head.1 ≠ key := fun heq =>
            irrefl_of r key (heq ▸ hafter)
          exact (asymm_of r hafter
            (hbest head.1 (by rw [hheadGet]; exact hheadNe) hdistinct)).elim

theorem best_eq_none_iff : ladder.best = none ↔ ∀ key, ladder.get key = 0 := by
  rw [best, List.head?_eq_none_iff]
  constructor
  · intro h key
    simp [get, h]
  · intro h
    refine List.eq_nil_iff_forall_not_mem.mpr fun ⟨key, value⟩ hmem => ?_
    obtain ⟨hget, hne⟩ := ladder.mem_entries_iff.mp hmem
    exact hne (hget ▸ h key)

/-! ## Ranks -/

/-- The keys with a value are those of the entries. -/
theorem get_ne_zero_iff {key : K} :
    ladder.get key ≠ 0 ↔ key ∈ ladder.entries.map Prod.fst := by
  constructor
  · intro h
    exact List.mem_map.mpr ⟨_, ladder.mem_entries_of_get_ne_zero h, rfl⟩
  · intro h
    obtain ⟨⟨_, value⟩, hmem, rfl⟩ := List.mem_map.mp h
    rw [ladder.get_of_mem hmem]
    exact ladder.nonzero _ hmem

theorem ncard_support : {key | ladder.get key ≠ 0}.ncard = ladder.entries.length := by
  have hkeys : {key | ladder.get key ≠ 0} =
      ((ladder.entries.map Prod.fst).toFinset : Set K) := by
    ext key
    rw [Set.mem_ofPred_eq, get_ne_zero_iff, List.coe_toFinset, Set.mem_ofPred_eq]
  rw [hkeys, Set.ncard_coe_finset, List.toFinset_card_of_nodup ladder.keys_nodup,
    List.length_map]

/-- The keys before an entry are those of the entries before it. -/
theorem before_iff {rank : Nat} (h : rank < ladder.entries.length) {key : K} :
    ladder.get key ≠ 0 ∧ r key (ladder.entries[rank]).1 ↔
      key ∈ (ladder.entries.map Prod.fst).take rank := by
  rw [get_ne_zero_iff, List.mem_iff_getElem, List.mem_take_iff_getElem]
  constructor
  · rintro ⟨⟨position, hposition, rfl⟩, hbefore⟩
    rw [List.length_map] at hposition
    rw [List.getElem_map] at hbefore
    refine ⟨position, ?_, rfl⟩
    by_contra hafter
    rcases Nat.lt_or_eq_of_le (show rank ≤ position by
      rw [List.length_map] at hafter; omega) with hless | rfl
    · exact asymm_of r hbefore (ladder.sorted_entries hless hposition)
    · exact irrefl_of r _ hbefore
  · rintro ⟨position, hposition, rfl⟩
    have hless : position < rank := by omega
    refine ⟨⟨position, by omega, rfl⟩, ?_⟩
    rw [List.getElem_map]
    exact ladder.sorted_entries hless h

/-- The position of an entry is its rank. -/
theorem isRanked_entries {rank : Nat} (h : rank < ladder.entries.length) :
    IsRanked r ladder.get rank (ladder.entries[rank]).1 (ladder.entries[rank]).2 := by
  have hmem : ladder.entries[rank] ∈ ladder.entries := List.getElem_mem h
  refine ⟨ladder.get_of_mem hmem, ladder.nonzero _ hmem, ?_⟩
  have hbefore : {key | ladder.get key ≠ 0 ∧ r key (ladder.entries[rank]).1} =
      (((ladder.entries.map Prod.fst).take rank).toFinset : Set K) := by
    ext key
    rw [Set.mem_ofPred_eq, ladder.before_iff h, List.coe_toFinset, Set.mem_ofPred_eq]
  have hnodup : ((ladder.entries.map Prod.fst).take rank).Nodup :=
    ladder.keys_nodup.sublist (List.take_sublist _ _)
  rw [hbefore, Set.ncard_coe_finset, List.toFinset_card_of_nodup hnodup, List.length_take,
    List.length_map]
  omega

end Values

section Update

variable [DecidableRel r] [DecidableEq Q] [IsStrictTotalOrder K r]

/-- Set the value of a key; a zero value removes its entry. -/
def set (ladder : Ladder r Q) (key : K) (value : Q) : Ladder r Q where
  entries := ladder.entries.filter (fun entry => r entry.1 key) ++
    ((if value = 0 then [] else [(key, value)]) ++
      ladder.entries.filter (fun entry => r key entry.1))
  sorted := by
    simp only [List.pairwise_append, List.mem_append, List.mem_filter, decide_eq_true_eq]
    refine ⟨ladder.sorted.filter _, ⟨?_, ladder.sorted.filter _, ?_⟩, ?_⟩
    · split <;> simp
    · split
      · simp
      · simp only [List.mem_singleton, forall_eq]
        exact fun entry hentry => hentry.2
    · rintro first ⟨-, hfirst⟩ second (hhere | ⟨-, hsecond⟩)
      · split at hhere
        · simp at hhere
        · rw [List.mem_singleton.mp hhere]
          exact hfirst
      · exact trans_of r hfirst hsecond
  nonzero := by
    intro entry hentry
    simp only [List.mem_append, List.mem_filter] at hentry
    rcases hentry with ⟨hmem, -⟩ | hhere | ⟨hmem, -⟩
    · exact ladder.nonzero entry hmem
    · split at hhere
      · simp at hhere
      · rw [List.mem_singleton.mp hhere]
        assumption
    · exact ladder.nonzero entry hmem

variable (ladder : Ladder r Q)

theorem mem_set {key : K} {value : Q} {entry : K × Q} :
    entry ∈ (ladder.set key value).entries ↔
      (entry = (key, value) ∧ value ≠ 0) ∨ (entry.1 ≠ key ∧ entry ∈ ladder.entries) := by
  simp only [set, List.mem_append, List.mem_filter, decide_eq_true_eq]
  constructor
  · rintro (⟨hmem, hbefore⟩ | hhere | ⟨hmem, hafter⟩)
    · exact .inr ⟨ne_of_irrefl hbefore, hmem⟩
    · split at hhere
      · simp at hhere
      · exact .inl ⟨List.mem_singleton.mp hhere, by assumption⟩
    · exact .inr ⟨ne_of_irrefl' hafter, hmem⟩
  · rintro (⟨rfl, hne⟩ | ⟨hne, hmem⟩)
    · simp [hne]
    · rcases trichotomous_of r entry.1 key with hbefore | heq | hafter
      · exact .inl ⟨hmem, hbefore⟩
      · exact (hne heq).elim
      · exact .inr (.inr ⟨hmem, hafter⟩)

/-- Setting a key that comes after the best one leaves the best entry alone. -/
theorem best_set_of_after {key bestKey : K} {value bestValue : Q}
    (hbest : ladder.best = some (bestKey, bestValue)) (hafter : r bestKey key) :
    (ladder.set key value).best = some (bestKey, bestValue) := by
  obtain ⟨rest, hentries⟩ := List.head?_eq_some_iff.mp hbest
  simp [best, set, hentries, hafter]

variable [DecidableEq K]

/-- `set` is a write of the value map. -/
@[simp]
theorem get_set (key : K) (value : Q) :
    (ladder.set key value).get = Function.update ladder.get key value := by
  funext other
  by_cases hother : other = key
  · subst hother
    rw [Function.update_self]
    by_cases hzero : value = 0
    · rw [hzero, get_eq_zero_iff]
      intro found hmem
      rcases ladder.mem_set.mp hmem with ⟨-, hne⟩ | ⟨hdistinct, -⟩
      · exact hne rfl
      · exact hdistinct rfl
    · exact get_of_mem _ (ladder.mem_set.mpr (.inl ⟨rfl, hzero⟩))
  · rw [Function.update_of_ne hother]
    by_cases hzero : ladder.get other = 0
    · rw [hzero, get_eq_zero_iff]
      intro found hmem
      rcases ladder.mem_set.mp hmem with ⟨heq, -⟩ | ⟨-, hold⟩
      · exact hother (congrArg Prod.fst heq)
      · exact ladder.get_eq_zero_iff.mp hzero found hold
    · exact get_of_mem _ (ladder.mem_set.mpr
        (.inr ⟨hother, ladder.mem_entries_of_get_ne_zero hzero⟩))

/-- Set the keys of a list in order. -/
def setAll (ladder : Ladder r Q) (entries : List (K × Q)) : Ladder r Q :=
  entries.foldl (fun current entry => current.set entry.1 entry.2) ladder

@[simp]
theorem get_setAll (entries : List (K × Q)) :
    (ladder.setAll entries).get = writes ladder.get entries := by
  induction entries generalizing ladder with
  | nil => rfl
  | cons entry entries ih =>
      rw [writes_cons, ← get_set]
      exact ih (ladder.set entry.1 entry.2)

end Update

end Ladder

end CryptoBot.Math

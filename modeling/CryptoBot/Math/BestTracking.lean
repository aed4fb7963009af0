/-
# Tracking the best entry through a list of writes

A cache of the best entry of a ladder need not be refreshed at every write.  The
scan of this module raises a flag when a write is at or before the current best
key, or finds the ladder empty; such a write `touches` the best entry.  Writes
of zero may be exempt from raising the flag.

With removals included, a scan that ends without the flag has not moved the best
entry (`best_scan_of_flag_false`), so refreshing the cache on the flag alone is
sound.  Without removals the same conclusion needs another reason; for a scan
that starts at the empty ladder it is that nothing was ever written
(`scan_empty_flag`).
-/

import CryptoBot.Math.Ladder

namespace CryptoBot.Math.Ladder

universe uk uq

variable {K : Type uk} {Q : Type uq} {r : K → K → Prop} [Zero Q]
variable [DecidableRel r]

/-- A write at `key` may change the best entry. -/
def touches (ladder : Ladder r Q) (key : K) : Bool :=
  match ladder.best with
  | none => true
  | some best => decide (¬ r best.1 key)

theorem touches_empty (key : K) : (empty : Ladder r Q).touches key = true := rfl

variable [DecidableEq Q] [IsStrictTotalOrder K r]

/-- One write of the scan. -/
def scanStep (flagRemovals : Bool) (state : Ladder r Q × Bool) (entry : K × Q) :
    Ladder r Q × Bool :=
  (state.1.set entry.1 entry.2,
    state.2 || ((flagRemovals || decide (entry.2 ≠ 0)) && state.1.touches entry.1))

/-- The ladder after the writes, and whether one of them raised the flag. -/
def scan (flagRemovals : Bool) (ladder : Ladder r Q) (entries : List (K × Q)) :
    Ladder r Q × Bool :=
  entries.foldl (scanStep flagRemovals) (ladder, false)

variable (ladder : Ladder r Q) (flagRemovals : Bool)

theorem foldl_scanStep_fst (entries : List (K × Q)) (flag : Bool) :
    (entries.foldl (scanStep flagRemovals) (ladder, flag)).1 = ladder.setAll entries := by
  induction entries generalizing ladder flag with
  | nil => rfl
  | cons entry entries ih => exact ih _ _

@[simp]
theorem scan_fst (entries : List (K × Q)) :
    (ladder.scan flagRemovals entries).1 = ladder.setAll entries :=
  ladder.foldl_scanStep_fst flagRemovals entries false

/-- The flag is never taken back. -/
theorem foldl_scanStep_snd_of_true (entries : List (K × Q)) :
    (entries.foldl (scanStep flagRemovals) (ladder, true)).2 = true := by
  induction entries generalizing ladder with
  | nil => rfl
  | cons entry entries ih => exact ih _

/-- The first write decides the flag, or leaves it to the rest. -/
theorem scan_cons_snd (entry : K × Q) (entries : List (K × Q)) :
    (ladder.scan flagRemovals (entry :: entries)).2 =
      (((flagRemovals || decide (entry.2 ≠ 0)) && ladder.touches entry.1) ||
        ((ladder.set entry.1 entry.2).scan flagRemovals entries).2) := by
  cases hflag : ((flagRemovals || decide (entry.2 ≠ 0)) && ladder.touches entry.1) with
  | true =>
      rw [scan, List.foldl_cons, scanStep, hflag]
      exact foldl_scanStep_snd_of_true _ _ entries
  | false =>
      rw [scan, List.foldl_cons, scanStep, hflag]
      rfl

/-- The flag of two lists of writes, one after the other. -/
theorem scan_append_snd (first second : List (K × Q)) :
    (ladder.scan flagRemovals (first ++ second)).2 =
      ((ladder.scan flagRemovals first).2 ||
        ((ladder.setAll first).scan flagRemovals second).2) := by
  induction first generalizing ladder with
  | nil => rfl
  | cons entry first ih =>
      rw [List.cons_append, scan_cons_snd, scan_cons_snd, ih, Bool.or_assoc]
      rfl

/-- A write that does not touch the best entry leaves it alone. -/
theorem best_set_of_not_touches {key : K} (value : Q) (h : ladder.touches key = false) :
    (ladder.set key value).best = ladder.best := by
  unfold touches at h
  cases hbest : ladder.best with
  | none => simp [hbest] at h
  | some best =>
      rw [hbest] at h
      exact ladder.best_set_of_after hbest (by simpa using h)

/-- Without the flag the best entry is where it was. -/
theorem best_scan_of_flag_false (entries : List (K × Q))
    (h : (ladder.scan true entries).2 = false) : (ladder.setAll entries).best = ladder.best := by
  induction entries generalizing ladder with
  | nil => rfl
  | cons entry entries ih =>
      rw [scan_cons_snd, Bool.true_or, Bool.true_and, Bool.or_eq_false_iff] at h
      rw [← ladder.best_set_of_not_touches entry.2 h.1]
      exact ih _ h.2

/-- A write before the first one that touches the best entry does not move it, so
the flag compares every write with the best entry of the start. -/
theorem scan_flag_eq_any (entries : List (K × Q)) :
    (ladder.scan true entries).2 = entries.any fun entry => ladder.touches entry.1 := by
  induction entries generalizing ladder with
  | nil => rfl
  | cons entry entries ih =>
      rw [scan_cons_snd, Bool.true_or, Bool.true_and, ih, List.any_cons]
      cases htouches : ladder.touches entry.1 with
      | true => rfl
      | false =>
          simp only [touches, ladder.best_set_of_not_touches entry.2 htouches]

theorem set_empty_zero (key : K) : (empty : Ladder r Q).set key 0 = empty := by
  apply ext_mem
  intro entry
  rw [mem_set]
  simp

/-- A scan of the empty ladder raises the flag exactly when it writes a nonzero
value. -/
theorem scan_empty_flag (entries : List (K × Q)) :
    ((empty : Ladder r Q).scan false entries).2 = decide (∃ entry ∈ entries, entry.2 ≠ 0) := by
  induction entries with
  | nil => simp [scan]
  | cons entry entries ih =>
      rw [scan_cons_snd, touches_empty, Bool.false_or, Bool.and_true]
      by_cases hzero : entry.2 = 0
      · rw [hzero, set_empty_zero, ih]
        simp [hzero]
      · simp [hzero]

/-- Writes of zero do not fill the empty ladder. -/
theorem setAll_empty_of_zero {entries : List (K × Q)} (h : ∀ entry ∈ entries, entry.2 = 0) :
    (empty : Ladder r Q).setAll entries = empty := by
  induction entries with
  | nil => rfl
  | cons entry entries ih =>
      rw [setAll, List.foldl_cons, h entry (by simp), set_empty_zero]
      exact ih fun later hlater => h later (by simp [hlater])

end CryptoBot.Math.Ladder

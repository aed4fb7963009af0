/-
# Search around a circle

A search for a good index that starts anywhere, goes up, wraps around at the
size and gives up when it is back at its start.  The loop is written with fuel,
one unit for each test of an index; the size of the circle is always enough, and
the result is the first good index on the way around, or that there is none.
-/

import Mathlib.Data.List.Range

namespace CryptoBot.Math

inductive SearchResult
  | found (index : Nat)
  | exhausted
  | running
  deriving DecidableEq, Repr

/-- Test the index, else go on to the next one, unless the search started there. -/
def cyclicSearch (good : Nat → Bool) (size start : Nat) : Nat → Nat → SearchResult
  | 0, _ => .running
  | fuel + 1, index =>
      if good index then .found index
      else
        let next := if index + 1 = size then 0 else index + 1
        if start = next then .exhausted else cyclicSearch good size start fuel next

/-- A finished search. -/
def SearchResult.ofOption : Option Nat → SearchResult
  | some index => .found index
  | none => .exhausted

/-- The answer that a finished search owes. -/
def SearchResult.Correct (good : Nat → Bool) (size : Nat) : SearchResult → Prop
  | .found index => index < size ∧ good index
  | .exhausted => ∀ index < size, good index = false
  | .running => False

/-- The index that is some steps ahead on the circle. -/
def ahead (size start steps : Nat) : Nat :=
  if start + steps < size then start + steps else start + steps - size

/-- The indices in the order of the search. -/
def around (size start : Nat) : List Nat := (List.range size).map (ahead size start)

variable {good : Nat → Bool} {size start : Nat}

theorem mem_around (hstart : start < size) {index : Nat} :
    index ∈ around size start ↔ index < size := by
  rw [around, List.mem_map]
  constructor
  · rintro ⟨steps, hsteps, rfl⟩
    rw [List.mem_range] at hsteps
    rw [ahead]
    split <;> omega
  · intro hindex
    by_cases hle : start ≤ index
    · refine ⟨index - start, List.mem_range.mpr (by omega), ?_⟩
      rw [ahead, if_pos (by omega)]
      omega
    · refine ⟨index + size - start, List.mem_range.mpr (by omega), ?_⟩
      rw [ahead, if_neg (by omega)]
      omega

/-- The loop after some steps, with the rest of the circle ahead. -/
theorem cyclicSearch_ahead (hstart : start < size) {fuel steps rest : Nat} (hsteps : steps < size)
    (hrest : steps + rest = size) (hfuel : rest ≤ fuel) :
    cyclicSearch good size start fuel (ahead size start steps) =
      .ofOption (((List.range' steps rest).map (ahead size start)).find? good) := by
  induction rest generalizing fuel steps with
  | zero => omega
  | succ rest ih =>
      obtain ⟨fuel, rfl⟩ := Nat.exists_eq_add_of_lt (show 0 < fuel by omega)
      rw [Nat.zero_add, cyclicSearch, List.range'_succ, List.map_cons, List.find?_cons]
      cases hgood : good (ahead size start steps) with
      | true => rfl
      | false =>
          have hnext : (if ahead size start steps + 1 = size then 0
              else ahead size start steps + 1) =
              if steps + 1 = size then start else ahead size start (steps + 1) := by
            simp only [ahead]
            split_ifs <;> omega
          simp only [hnext, Bool.false_eq_true, if_false]
          by_cases hlast : steps + 1 = size
          · -- The circle is closed.
            obtain rfl : rest = 0 := by omega
            rw [if_pos hlast, if_pos rfl]
            rfl
          · have hne : start ≠ ahead size start (steps + 1) := by
              rw [ahead]
              split <;> omega
            rw [if_neg hlast, if_neg hne]
            exact ih (by omega) (by omega) (by omega)

/-- The search ends within the size of the circle, at the first good index. -/
theorem cyclicSearch_eq_ofOption (hstart : start < size) {fuel : Nat} (hfuel : size ≤ fuel) :
    cyclicSearch good size start fuel start = .ofOption ((around size start).find? good) := by
  have hahead : ahead size start 0 = start := by
    rw [ahead, if_pos (by omega), Nat.add_zero]
  have hloop : cyclicSearch good size start fuel (ahead size start 0) =
      .ofOption (((List.range' 0 size).map (ahead size start)).find? good) :=
    cyclicSearch_ahead hstart (by omega) (by omega) hfuel
  rwa [hahead, ← List.range_eq_range'] at hloop

theorem cyclicSearch_correct (hstart : start < size) {fuel : Nat} (hfuel : size ≤ fuel) :
    (cyclicSearch good size start fuel start).Correct good size := by
  rw [cyclicSearch_eq_ofOption hstart hfuel]
  cases hfind : (around size start).find? good with
  | some index =>
      exact ⟨(mem_around hstart).mp (List.mem_of_find?_eq_some hfind), List.find?_some hfind⟩
  | none =>
      intro index hindex
      have hbad := List.find?_eq_none.mp hfind index ((mem_around hstart).mpr hindex)
      exact Bool.not_eq_true _ ▸ hbad

end CryptoBot.Math

/-
# Partial maps with the insertions of a hash map

A hash map seen through its lookups is a partial function.  Two of the standard
operations insert on the way to a value: `try_emplace` inserts its argument, and
`operator[]` a default.  Both leave a key that is present alone.
-/

import Mathlib.Logic.Function.Basic

namespace CryptoBot.Math

universe uk uv

variable {K : Type uk} [DecidableEq K] {V : Type uv}

/-- The map, the value of the key in it, and whether it was inserted. -/
def tryEmplace (map : K → Option V) (key : K) (value : V) : (K → Option V) × V × Bool :=
  match map key with
  | some present => (map, present, false)
  | none => (Function.update map key (some value), value, true)

/-- `map[key]`. -/
def subscript (map : K → Option V) (key : K) (value : V) : (K → Option V) × V :=
  let (map, present, _) := tryEmplace map key value
  (map, present)

variable {map : K → Option V} {key : K}

theorem tryEmplace_of_some {present : V} (h : map key = some present) (value : V) :
    tryEmplace map key value = (map, present, false) := by
  simp [tryEmplace, h]

theorem tryEmplace_of_none (h : map key = none) (value : V) :
    tryEmplace map key value = (Function.update map key (some value), value, true) := by
  simp [tryEmplace, h]

theorem subscript_of_some {present : V} (h : map key = some present) (value : V) :
    subscript map key value = (map, present) := by
  simp [subscript, tryEmplace_of_some h]

end CryptoBot.Math

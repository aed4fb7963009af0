/-
# Texts joined by a separator

Joining forgets where one text ends and the next one begins when a text contains
the separator.  What it keeps is the list of the pieces between separators: two
lists of texts have the same join exactly when they have the same pieces.
-/

import Mathlib.Data.List.Basic

namespace CryptoBot.Math

universe u

variable {α : Type u} [DecidableEq α]

/-- The pieces between the separators of the texts, in order. -/
def pieces (separator : α) (texts : List (List α)) : List (List α) :=
  texts.flatMap (List.splitOn separator)

variable {separator : α} {texts first second : List (List α)}

theorem splitOn_intercalate_eq_pieces (h : texts ≠ []) :
    ([separator].intercalate texts).splitOn separator = pieces separator texts := by
  induction texts with
  | nil => exact absurd rfl h
  | cons text texts ih =>
      cases texts with
      | nil => simp [pieces]
      | cons next rest =>
          rw [List.intercalate_cons_cons, List.append_assoc, List.singleton_append,
            List.splitOn_append_cons_self, ih (by simp)]
          rfl

theorem intercalate_eq_iff (hfirst : first ≠ []) (hsecond : second ≠ []) :
    [separator].intercalate first = [separator].intercalate second ↔
      pieces separator first = pieces separator second := by
  rw [← splitOn_intercalate_eq_pieces hfirst, ← splitOn_intercalate_eq_pieces hsecond]
  constructor
  · intro h
    rw [h]
  · intro h
    have hfirst : [separator].intercalate (([separator].intercalate first).splitOn separator) =
        [separator].intercalate first := List.intercalate_splitOn separator
    rw [← hfirst, h, List.intercalate_splitOn]

/-- Texts without the separator are their own pieces. -/
theorem pieces_of_forall_notMem (h : ∀ text ∈ texts, separator ∉ text) :
    pieces separator texts = texts := by
  induction texts with
  | nil => rfl
  | cons text texts ih =>
      rw [pieces, List.flatMap_cons, List.splitOn_eq_singleton (h text List.mem_cons_self),
        ← pieces, ih fun other hother => h other (List.mem_cons_of_mem _ hother),
        List.singleton_append]

/-- A function that tells the elements of two lists apart tells the lists apart. -/
theorem eq_of_map_eq {β : Type*} {γ : Type*} {f : β → γ} {xs ys : List β}
    (hf : ∀ x ∈ xs, ∀ y ∈ ys, f x = f y → x = y) (h : xs.map f = ys.map f) : xs = ys := by
  induction xs generalizing ys with
  | nil => simpa using h.symm
  | cons x xs ih =>
      cases ys with
      | nil => cases h
      | cons y ys =>
          rw [List.map_cons, List.map_cons, List.cons.injEq] at h
          rw [hf x List.mem_cons_self y List.mem_cons_self h.1, ih ?_ h.2]
          intro x hx y hy
          exact hf x (List.mem_cons_of_mem _ hx) y (List.mem_cons_of_mem _ hy)

end CryptoBot.Math

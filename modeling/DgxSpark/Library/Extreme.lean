import Mathlib.Order.Lattice
import Mathlib.Order.Defs.LinearOrder

/-
This file bounds the largest and the smallest item of a list, taken by a loop.
-/

namespace DgxSpark.Library

variable {Item : Type} [LinearOrder Item]

theorem foldl_max_le (items : List Item) (start : Item) :
    start ≤ items.foldl max start ∧ ∀ item ∈ items, item ≤ items.foldl max start := by
  induction items generalizing start with
  | nil => exact ⟨le_rfl, List.forall_mem_nil _⟩
  | cons head rest ih =>
      obtain ⟨first, others⟩ := ih (max start head)
      rw [List.foldl_cons, List.forall_mem_cons]
      exact ⟨(le_max_left _ _).trans first, (le_max_right _ _).trans first, others⟩

theorem foldl_max_bound {items : List Item} {start bound : Item} (first : start ≤ bound)
    (each : ∀ item ∈ items, item ≤ bound) : items.foldl max start ≤ bound := by
  induction items generalizing start with
  | nil => exact first
  | cons head rest ih =>
      rw [List.forall_mem_cons] at each
      exact ih (max_le first each.1) each.2

theorem foldl_min_le (items : List Item) (start : Item) :
    items.foldl min start ≤ start ∧ ∀ item ∈ items, items.foldl min start ≤ item := by
  induction items generalizing start with
  | nil => exact ⟨le_rfl, List.forall_mem_nil _⟩
  | cons head rest ih =>
      obtain ⟨first, others⟩ := ih (min start head)
      rw [List.foldl_cons, List.forall_mem_cons]
      exact ⟨first.trans (min_le_left _ _), first.trans (min_le_right _ _), others⟩

end DgxSpark.Library

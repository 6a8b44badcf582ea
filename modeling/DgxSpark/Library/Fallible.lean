import Mathlib.Logic.Basic
import Mathlib.Data.List.Induction

/-
This file gives the rules of a loop whose step may fail.
-/

namespace DgxSpark.Library

variable {State Item Error : Type} {step : State → Item → Except Error State}

theorem bind_ok {First Second : Type} {value : Except Error First} {rest : First → Except Error Second}
    {result : Second} : (value >>= rest) = .ok result ↔ ∃ middle, value = .ok middle ∧ rest middle = .ok result := by
  cases value with
  | error error => exact ⟨nofun, fun ⟨_, same, _⟩ => nomatch same⟩
  | ok middle => exact ⟨fun ended => ⟨middle, rfl, ended⟩, fun ⟨_, same, ended⟩ => by cases same; exact ended⟩

theorem ok_bind {First Second : Type} (value : First) (rest : First → Except Error Second) :
    (Except.ok value >>= rest) = rest value := rfl

theorem bind_error {First Second : Type} {value : Except Error First} {rest : First → Except Error Second}
    {error : Error} : (value >>= rest) = .error error ↔
      value = .error error ∨ ∃ middle, value = .ok middle ∧ rest middle = .error error := by
  cases value with
  | error other =>
      constructor
      · intro failed
        cases failed
        exact .inl rfl
      · rintro (same | ⟨_, same, _⟩)
        · cases same
          rfl
        · cases same
  | ok middle =>
      constructor
      · exact fun failed => .inr ⟨middle, rfl, failed⟩
      · rintro (same | ⟨_, same, failed⟩)
        · cases same
        · cases same
          exact failed

/-- What each step carries over, from the items before its own to these and its own, holds of all items
when the loop ends. -/
theorem foldlM_carries (invariant : List Item → State → Prop) {items : List Item} {start last : State}
    (carries : ∀ before item after state next, items = before ++ item :: after → invariant before state →
      step state item = .ok next → invariant (before ++ [item]) next)
    (begun : invariant [] start) (ended : items.foldlM step start = .ok last) : invariant items last := by
  induction items using List.reverseRecOn generalizing last with
  | nil =>
      cases ended
      exact begun
  | append_singleton before item ih =>
      rw [List.foldlM_append, bind_ok] at ended
      obtain ⟨middle, earlier, ended⟩ := ended
      rw [List.foldlM_cons, bind_ok] at ended
      obtain ⟨next, taken, same⟩ := ended
      cases same
      refine carries before item [] middle last rfl (ih ?_ earlier) taken
      intro early other late state next split
      exact carries early other (late ++ [item]) state next (by rw [split, List.append_assoc, List.cons_append])

/-- A loop that fails fails at one of its items, after the items before it went through. -/
theorem foldlM_fails {items : List Item} {start : State} {error : Error}
    (failed : items.foldlM step start = .error error) :
    ∃ before item after middle, items = before ++ item :: after ∧ before.foldlM step start = .ok middle ∧
      step middle item = .error error := by
  induction items generalizing start with
  | nil => cases failed
  | cons head tail ih =>
      rw [List.foldlM_cons, bind_error] at failed
      cases failed with
      | inl here => exact ⟨[], head, tail, start, rfl, rfl, here⟩
      | inr later =>
          obtain ⟨next, taken, failed⟩ := later
          obtain ⟨before, item, after, middle, split, reached, here⟩ := ih failed
          refine ⟨head :: before, item, after, middle, by rw [split, List.cons_append], ?_, here⟩
          rw [List.foldlM_cons, taken]
          exact reached

end DgxSpark.Library

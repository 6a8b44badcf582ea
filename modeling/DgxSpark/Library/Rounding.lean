import Mathlib.Algebra.Order.Floor.Ring
import Mathlib.Algebra.Order.Round
import Mathlib.Tactic.Linarith

/-
This file rounds exact numbers half to even and clamps them to a range of whole numbers.
-/

namespace DgxSpark.Library

variable {K : Type} [Field K] [LinearOrder K] [FloorRing K]

/-- The nearer of the two whole numbers around, or the even one of them. -/
def roundHalfEven (x : K) : Int :=
  let below := x - ⌊x⌋
  let above := ⌊x⌋ + 1 - x
  if below < above then ⌊x⌋ else if above < below then ⌊x⌋ + 1 else if ⌊x⌋ % 2 = 0 then ⌊x⌋ else ⌊x⌋ + 1

def clamp (low high value : Int) : Int := min (max value low) high

variable [IsStrictOrderedRing K]

theorem roundHalfEven_near (x : K) : |x - roundHalfEven x| ≤ 1 / 2 := by
  have low := Int.floor_le x
  have high := Int.lt_floor_add_one x
  rw [abs_le]
  unfold roundHalfEven
  dsimp only
  split_ifs <;> push_cast <;> constructor <;> linarith

/-- No whole number is nearer. -/
theorem roundHalfEven_nearest (x : K) (m : Int) : |x - roundHalfEven x| ≤ |x - m| := by
  by_cases same : m = roundHalfEven x
  · rw [same]
  · have near := abs_le.mp (roundHalfEven_near x)
    rcases Int.lt_or_gt_of_ne same with below | above
    · have far : (m : K) + 1 ≤ roundHalfEven x := by exact_mod_cast below
      exact (roundHalfEven_near x).trans (le_abs.mpr (.inl (by linarith)))
    · have far : (roundHalfEven x : K) + 1 ≤ m := by exact_mod_cast above
      exact (roundHalfEven_near x).trans (le_abs.mpr (.inr (by linarith)))

theorem clamp_within {low high : Int} (order : low ≤ high) (value : Int) :
    low ≤ clamp low high value ∧ clamp low high value ≤ high := by
  unfold clamp
  omega

/-- No whole number of the range is nearer than the clamped one. -/
theorem clamp_nearest {low high m : Int} (inside : low ≤ m ∧ m ≤ high) (x : K) :
    |x - clamp low high (roundHalfEven x)| ≤ |x - m| := by
  have near := abs_le.mp (roundHalfEven_near x)
  by_cases within : low ≤ roundHalfEven x ∧ roundHalfEven x ≤ high
  · have kept : clamp low high (roundHalfEven x) = roundHalfEven x := by
      unfold clamp
      omega
    rw [kept]
    exact roundHalfEven_nearest x m
  · by_cases below : roundHalfEven x < low
    · have bound : clamp low high (roundHalfEven x) = low := by
        unfold clamp
        omega
      have order : (low : K) ≤ m := by exact_mod_cast inside.1
      have far : (roundHalfEven x : K) + 1 ≤ low := by exact_mod_cast below
      rw [bound, abs_of_nonpos (by linarith), abs_of_nonpos (by linarith)]
      linarith
    · have bound : clamp low high (roundHalfEven x) = high := by
        unfold clamp
        omega
      have order : (m : K) ≤ high := by exact_mod_cast inside.2
      have past : high + 1 ≤ roundHalfEven x := by omega
      have far : (high : K) + 1 ≤ roundHalfEven x := by exact_mod_cast past
      rw [bound, abs_of_nonneg (by linarith), abs_of_nonneg (by linarith)]
      linarith

@[simp] theorem roundHalfEven_zero : roundHalfEven (0 : K) = 0 := by simp [roundHalfEven]

end DgxSpark.Library

import DgxSpark.Library.FirstMax
import Mathlib.Analysis.SpecialFunctions.Log.Basic
import Mathlib.Data.EReal.Basic

/-
This file models floating point with exact reals: the values of IEEE arithmetic with its infinities and its
NaN, and the operations without rounding.
-/

namespace DgxSpark.Library

/-- A real number or one of the special values. -/
inductive ExactFloat where
  | nan
  | negInf
  | real (value : ℝ)
  | posInf

namespace ExactFloat

/-- The order of a maximum that ignores NaN: NaN is below all numbers. -/
noncomputable def rank : ExactFloat → WithBot EReal
  | nan => ⊥
  | negInf => ((⊥ : EReal) : WithBot EReal)
  | real value => ((value : EReal) : WithBot EReal)
  | posInf => ((⊤ : EReal) : WithBot EReal)

theorem rank_injective : Function.Injective rank := by
  intro first second same
  cases first <;> cases second <;> simp_all [rank]

noncomputable instance : LinearOrder ExactFloat := LinearOrder.lift' rank rank_injective

theorem le_def {first second : ExactFloat} : first ≤ second ↔ rank first ≤ rank second := Iff.rfl

theorem lt_def {first second : ExactFloat} : first < second ↔ rank first < rank second := by
  rw [lt_iff_not_ge, lt_iff_not_ge, le_def]

instance : OrderBot ExactFloat where
  bot := nan
  bot_le value := by
    rw [le_def]
    exact bot_le

@[simp] theorem real_le_real {first second : ℝ} : real first ≤ real second ↔ first ≤ second := by
  simp [le_def, rank]

@[simp] theorem real_lt_real {first second : ℝ} : real first < real second ↔ first < second := by
  simp [lt_def, rank]

@[simp] theorem negInf_lt_real (value : ℝ) : negInf < real value := by
  simp [lt_def, rank]

@[simp] theorem negInf_le_real (value : ℝ) : negInf ≤ real value := (negInf_lt_real value).le

/-- A comparison with NaN is false. -/
def Greater (first second : ExactFloat) : Prop := second ≠ nan ∧ second < first

def AtLeast (first second : ExactFloat) : Prop := second ≠ nan ∧ first ≠ nan ∧ second ≤ first

noncomputable instance (first second : ExactFloat) : Decidable (Greater first second) := Classical.dec _

noncomputable instance (first second : ExactFloat) : Decidable (AtLeast first second) := Classical.dec _

noncomputable def add : ExactFloat → ExactFloat → ExactFloat
  | nan, _ => nan
  | _, nan => nan
  | negInf, posInf => nan
  | posInf, negInf => nan
  | negInf, _ => negInf
  | _, negInf => negInf
  | posInf, _ => posInf
  | _, posInf => posInf
  | real first, real second => real (first + second)

noncomputable def neg : ExactFloat → ExactFloat
  | nan => nan
  | negInf => posInf
  | real value => real (-value)
  | posInf => negInf

noncomputable def sub (first second : ExactFloat) : ExactFloat := first.add second.neg

/-- An infinity with the sign of a number; there is none for zero. -/
noncomputable def infinityOf (value : ℝ) : ExactFloat := if 0 < value then posInf else if value < 0 then negInf else nan

noncomputable def mul : ExactFloat → ExactFloat → ExactFloat
  | nan, _ => nan
  | _, nan => nan
  | real first, real second => real (first * second)
  | posInf, real value => infinityOf value
  | real value, posInf => infinityOf value
  | negInf, real value => (infinityOf value).neg
  | real value, negInf => (infinityOf value).neg
  | posInf, posInf => posInf
  | negInf, negInf => posInf
  | posInf, negInf => negInf
  | negInf, posInf => negInf

noncomputable def div : ExactFloat → ExactFloat → ExactFloat
  | nan, _ => nan
  | _, nan => nan
  | real first, real second => if second = 0 then infinityOf first else real (first / second)
  | real _, _ => real 0
  | posInf, real value => if value < 0 then negInf else posInf
  | negInf, real value => if value < 0 then posInf else negInf
  | _, _ => nan

noncomputable def exp : ExactFloat → ExactFloat
  | nan => nan
  | negInf => real 0
  | real value => real (Real.exp value)
  | posInf => posInf

noncomputable def log : ExactFloat → ExactFloat
  | nan => nan
  | negInf => nan
  | real value => if 0 < value then real (Real.log value) else if value = 0 then negInf else nan
  | posInf => posInf

/-- A clamp from above keeps NaN. -/
noncomputable def clampMax (value bound : ExactFloat) : ExactFloat := if value = nan then nan else min value bound

noncomputable def sum (values : List ExactFloat) : ExactFloat := values.foldr add (real 0)

@[simp] theorem real_add_real (first second : ℝ) : (real first).add (real second) = real (first + second) := rfl

@[simp] theorem real_sub_real (first second : ℝ) : (real first).sub (real second) = real (first - second) := by
  simp [sub, neg, sub_eq_add_neg]

@[simp] theorem negInf_sub_real (value : ℝ) : negInf.sub (real value) = negInf := rfl

@[simp] theorem real_mul_real (first second : ℝ) : (real first).mul (real second) = real (first * second) := rfl

@[simp] theorem exp_real (value : ℝ) : (real value).exp = real (Real.exp value) := rfl

@[simp] theorem exp_negInf : negInf.exp = real 0 := rfl

theorem log_real {value : ℝ} (positive : 0 < value) : (real value).log = real (Real.log value) := if_pos positive

@[simp] theorem log_zero : (real 0).log = negInf := by simp [log]

@[simp] theorem greater_negInf (value : ℝ) : Greater (real value) negInf := ⟨by simp, negInf_lt_real value⟩

@[simp] theorem atLeast_real {first second : ℝ} : AtLeast (real first) (real second) ↔ second ≤ first := by
  simp [AtLeast]

@[simp] theorem greater_real {first second : ℝ} : Greater (real first) (real second) ↔ second < first := by
  simp [Greater]

/-- The logarithm of a weight that is not negative: a number, or minus infinity for zero. -/
theorem log_cases {weight : ℝ} (nonneg : 0 ≤ weight) :
    weight = 0 ∧ (real weight).log = negInf ∨ 0 < weight ∧ (real weight).log = real (Real.log weight) := by
  rcases nonneg.eq_or_lt with rfl | positive
  · exact Or.inl ⟨rfl, log_zero⟩
  · exact Or.inr ⟨positive, log_real positive⟩

theorem exp_log {weight : ℝ} (nonneg : 0 ≤ weight) : (real weight).log.exp = real weight := by
  rcases log_cases nonneg with ⟨rfl, zero⟩ | ⟨positive, log⟩
  · rw [zero, exp_negInf]
  · rw [log, exp_real, Real.exp_log positive]

/-- A shifted weight. -/
theorem exp_log_sub {weight : ℝ} (nonneg : 0 ≤ weight) (shift : ℝ) :
    ((real weight).log.sub (real shift)).exp = real (weight * Real.exp (-shift)) := by
  rcases log_cases nonneg with ⟨rfl, zero⟩ | ⟨positive, log⟩
  · rw [zero, negInf_sub_real, exp_negInf, zero_mul]
  · rw [log, real_sub_real, exp_real, Real.exp_sub, Real.exp_log positive, Real.exp_neg, div_eq_mul_inv]

/-- The logarithm of a shifted weight, shifted back. -/
theorem log_mul_exp_add {weight : ℝ} (nonneg : 0 ≤ weight) (shift : ℝ) :
    (real (weight * Real.exp (-shift))).log.add (real shift) = (real weight).log := by
  rcases log_cases nonneg with ⟨rfl, zero⟩ | ⟨positive, log⟩
  · rw [zero_mul, zero]
    rfl
  · rw [log, log_real (mul_pos positive (Real.exp_pos _)), real_add_real,
      Real.log_mul positive.ne' (Real.exp_pos _).ne', Real.log_exp]
    congr 1
    ring

theorem sum_real {Item : Type} (items : List Item) (value : Item → ℝ) :
    sum (items.map fun item => real (value item)) = real (items.map value).sum := by
  induction items with
  | nil => rfl
  | cons head tail ih =>
      show (real (value head)).add (sum (tail.map fun item => real (value item))) = _
      rw [ih, real_add_real, List.map_cons, List.sum_cons]

end ExactFloat

end DgxSpark.Library

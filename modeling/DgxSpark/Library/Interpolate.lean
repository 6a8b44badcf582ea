import Mathlib.Topology.Algebra.Order.Field
import Mathlib.Topology.Order.OrderClosed
import Mathlib.Tactic.Linarith
import Mathlib.Tactic.FieldSimp

/-
This file gives the piecewise linear curve through a list of knots: constant before the first knot and after the last
one, and the line through two neighbours between them.
-/

namespace DgxSpark.Interpolate

section Line

variable {K : Type} [Field K]

/-- The line through two knots. -/
def line (left right : K × K) (t : K) : K := left.2 + (t - left.1) / (right.1 - left.1) * (right.2 - left.2)

theorem line_left (left right : K × K) : line left right left.1 = left.2 := by simp [line]

theorem line_right {left right : K × K} (apart : left.1 ≠ right.1) : line left right right.1 = right.2 := by
  have width : right.1 - left.1 ≠ 0 := sub_ne_zero.mpr apart.symm
  rw [line, div_self width]
  ring

variable [LinearOrder K] [IsStrictOrderedRing K]

/-- Between two knots the line stays between their values. -/
theorem line_between {left right : K × K} {t : K} (apart : left.1 < right.1) (low : left.1 ≤ t) (high : t ≤ right.1) :
    min left.2 right.2 ≤ line left right t ∧ line left right t ≤ max left.2 right.2 := by
  have width : 0 < right.1 - left.1 := sub_pos.mpr apart
  have weight_nonneg : 0 ≤ (t - left.1) / (right.1 - left.1) := div_nonneg (sub_nonneg.mpr low) width.le
  have weight_le : (t - left.1) / (right.1 - left.1) ≤ 1 := (div_le_one width).mpr (sub_le_sub_right high _)
  unfold line
  generalize (t - left.1) / (right.1 - left.1) = weight at weight_nonneg weight_le
  rcases le_total left.2 right.2 with order | order
  · rw [min_eq_left order, max_eq_right order]
    constructor <;> nlinarith
  · rw [min_eq_right order, max_eq_left order]
    constructor <;> nlinarith

end Line

section Curve

variable {K : Type} [Field K] [LinearOrder K]

/-- The curve from a knot on. -/
def onward (left : K × K) : List (K × K) → K → K
  | [], _ => left.2
  | right :: rest, t => if t ≤ right.1 then line left right t else onward right rest t

/-- The curve through a knot and the ones after it. -/
def curve (first : K × K) (rest : List (K × K)) (t : K) : K := if t ≤ first.1 then first.2 else onward first rest t

/-- The knots come in the order of their positions. -/
def Rising (knots : List (K × K)) : Prop := knots.Pairwise fun left right => left.1 < right.1

variable {first left right : K × K} {rest before after : List (K × K)} {t : K}

theorem onward_start (rising : Rising (left :: rest)) : onward left rest left.1 = left.2 := by
  cases rest with
  | nil => rfl
  | cons right rest =>
      have apart := (List.pairwise_cons.mp rising).1 right List.mem_cons_self
      rw [onward, if_pos apart.le, line_left]

theorem onward_knot (rising : Rising (left :: rest)) {knot : K × K} (member : knot ∈ left :: rest) :
    onward left rest knot.1 = knot.2 := by
  induction rest generalizing left with
  | nil =>
      rw [List.mem_singleton.mp member]
      rfl
  | cons right rest ih =>
      have later := (List.pairwise_cons.mp rising).2
      rcases List.mem_cons.mp member with rfl | member
      · exact onward_start rising
      · by_cases reached : knot.1 ≤ right.1
        · have same : knot = right := by
            refine (List.mem_cons.mp member).resolve_right fun beyond => ?_
            exact absurd reached ((List.pairwise_cons.mp later).1 knot beyond).not_ge
          have apart := (List.pairwise_cons.mp rising).1 right List.mem_cons_self
          rw [same, onward, if_pos le_rfl, line_right apart.ne]
        · rw [onward, if_neg reached]
          exact ih later member

/-- At a knot the curve has the value of the knot. -/
theorem curve_knot (rising : Rising (first :: rest)) {knot : K × K} (member : knot ∈ first :: rest) :
    curve first rest knot.1 = knot.2 := by
  rcases List.mem_cons.mp member with rfl | later
  · exact if_pos le_rfl
  · have apart := (List.pairwise_cons.mp rising).1 knot later
    rw [curve, if_neg apart.not_ge]
    exact onward_knot rising member

theorem curve_first (low : t ≤ first.1) : curve first rest t = first.2 := if_pos low

theorem onward_last (beyond : ∀ knot ∈ rest, knot.1 < t) :
    onward left rest t = ((left :: rest).getLast (List.cons_ne_nil left rest)).2 := by
  induction rest generalizing left with
  | nil => rfl
  | cons right rest ih =>
      have past := beyond right List.mem_cons_self
      rw [onward, if_neg past.not_ge, ih fun knot member => beyond knot (List.mem_cons_of_mem right member),
        List.getLast_cons_cons]

/-- After the last knot the curve keeps its value. -/
theorem curve_last (rising : Rising (first :: rest))
    (beyond : ((first :: rest).getLast (List.cons_ne_nil first rest)).1 ≤ t) :
    curve first rest t = ((first :: rest).getLast (List.cons_ne_nil first rest)).2 := by
  have last := List.getLast_mem (List.cons_ne_nil first rest)
  rcases beyond.eq_or_lt with rfl | past
  · exact curve_knot rising last
  · have before : ∀ knot ∈ first :: rest, knot.1 < t := by
      intro knot member
      have order := (rising.imp fun less => less.le).rel_getLast member
      exact lt_of_le_of_lt order past
    rw [curve, if_neg (before first List.mem_cons_self).not_ge]
    exact onward_last fun knot member => before knot (List.mem_cons_of_mem first member)

theorem onward_segment (rising : Rising (first :: rest)) (adjacent : first :: rest = before ++ left :: right :: after)
    (low : left.1 < t) (high : t ≤ right.1) : onward first rest t = line left right t := by
  induction before generalizing first rest with
  | nil =>
      obtain ⟨rfl, rfl⟩ := List.cons.inj adjacent
      rw [onward, if_pos high]
  | cons head before ih =>
      obtain ⟨rfl, rfl⟩ := List.cons.inj adjacent
      have later := (List.pairwise_cons.mp rising).2
      cases before with
      | nil =>
          change onward first (left :: right :: after) t = _
          rw [onward, if_neg low.not_ge]
          exact ih later rfl
      | cons next before =>
          have order : next.1 < left.1 := (List.pairwise_cons.mp later).1 left (by simp)
          change onward first (next :: (before ++ left :: right :: after)) t = _
          rw [onward, if_neg (order.trans low).not_ge]
          exact ih later rfl

/-- Between two neighbours the curve is the line through them. -/
theorem curve_segment (rising : Rising (first :: rest)) (adjacent : first :: rest = before ++ left :: right :: after)
    (low : left.1 ≤ t) (high : t ≤ right.1) : curve first rest t = line left right t := by
  have member : left ∈ first :: rest := by
    rw [adjacent]
    simp
  rcases low.eq_or_lt with rfl | inside
  · rw [curve_knot rising member, line_left]
  · have start : first.1 ≤ left.1 := by
      rcases List.mem_cons.mp member with rfl | later
      · exact le_rfl
      · exact ((List.pairwise_cons.mp rising).1 left later).le
    rw [curve, if_neg (start.trans_lt inside).not_ge]
    exact onward_segment rising adjacent inside high

omit [Field K] in
/-- A position is before the knots, after them, or between two neighbours. -/
theorem position_cases (first : K × K) (rest : List (K × K)) (t : K) :
    t ≤ first.1 ∨ (∀ knot ∈ first :: rest, knot.1 < t) ∨
      ∃ before left right after, first :: rest = before ++ left :: right :: after ∧ left.1 < t ∧ t ≤ right.1 := by
  induction rest generalizing first with
  | nil =>
      rcases le_or_gt t first.1 with low | high
      · exact .inl low
      · exact .inr (.inl fun knot member => List.mem_singleton.mp member ▸ high)
  | cons second rest ih =>
      rcases le_or_gt t first.1 with low | high
      · exact .inl low
      · right
        rcases ih second with low | past | ⟨before, left, right, after, adjacent, inside⟩
        · exact .inr ⟨[], first, second, rest, rfl, high, low⟩
        · left
          intro knot member
          rcases List.mem_cons.mp member with rfl | later
          · exact high
          · exact past knot later
        · exact .inr ⟨first :: before, left, right, after, by rw [adjacent, List.cons_append], inside⟩

/-- What the values of the knots satisfy, the curve satisfies, if everything between two such values does. -/
theorem curve_keeps [IsStrictOrderedRing K] {holds : K → Prop}
    (convex : ∀ x y z, holds x → holds y → min x y ≤ z → z ≤ max x y → holds z) (rising : Rising (first :: rest))
    (all : ∀ knot ∈ first :: rest, holds knot.2) (t : K) : holds (curve first rest t) := by
  rcases position_cases first rest t with low | past | ⟨before, left, right, after, adjacent, low, high⟩
  · rw [curve_first low]
    exact all first List.mem_cons_self
  · have last := List.getLast_mem (List.cons_ne_nil first rest)
    rw [curve_last rising (past _ last).le]
    exact all _ last
  · have members : left ∈ first :: rest ∧ right ∈ first :: rest := by
      rw [adjacent]
      simp
    have between := line_between (low.trans_le high) low.le high
    rw [curve_segment rising adjacent low.le high]
    exact convex left.2 right.2 _ (all left members.1) (all right members.2) between.1 between.2

section Continuity

variable [TopologicalSpace K] [IsTopologicalRing K] [OrderClosedTopology K]

omit [LinearOrder K] [OrderClosedTopology K] in
theorem line_continuous (left right : K × K) : Continuous (line left right) := by
  unfold line
  fun_prop

theorem onward_continuous (rising : Rising (left :: rest)) : Continuous (onward left rest) := by
  induction rest generalizing left with
  | nil => exact continuous_const
  | cons right rest ih =>
      have apart := (List.pairwise_cons.mp rising).1 right List.mem_cons_self
      have later := (List.pairwise_cons.mp rising).2
      apply Continuous.if_le (line_continuous left right) (ih later) continuous_id continuous_const
      intro t same
      rw [show t = right.1 from same, line_right apart.ne, onward_start later]

theorem curve_continuous (rising : Rising (first :: rest)) : Continuous (curve first rest) := by
  apply Continuous.if_le continuous_const (onward_continuous rising) continuous_id continuous_const
  intro t same
  rw [show t = first.1 from same, onward_start rising]

end Continuity

end Curve

end DgxSpark.Interpolate

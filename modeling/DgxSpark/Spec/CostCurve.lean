import DgxSpark.Library.Fallible
import DgxSpark.Library.Interpolate
import DgxSpark.Library.Json
import DgxSpark.Library.Run
import DgxSpark.Spec.Adaptive
import Mathlib.Topology.Instances.Rat

/-
This file embeds the cost curves of `adaptive.py` and shows that what an accepted curve gives at a context is a
continuous interpolation of its calibration points. The numbers are exact; a float that is no finite number is none.
-/

namespace DgxSpark.Adaptive

/-- The costs of the caps, by the cap. -/
abbrev CostTable : Type := OrderedDict Int ℚ

abbrev Prior : Type := Fin 7 → ℚ

/-- A calibration point whose costs are a table or the place of one. -/
structure Point (Costs : Type) where
  context : Int
  costs : Costs
  prior : Option Prior

/-- `points` is not empty where the curve was accepted. -/
structure CostCurve (Costs : Type) where
  bounds : Int × Int
  points : List (Point Costs)

section Parse

variable {Value : Type}

/-- Every exception on the way is given as this one. -/
def invalidCurve : Raised := .valueError "Invalid context cost curve"

def require (condition : Prop) [Decidable condition] : Except Raised Unit :=
  if condition then .ok () else .error invalidCurve

def given : Option Value → Except Raised Value
  | some value => .ok value
  | none => .error invalidCurve

/-- A finite number that is an `int` or a `float`. -/
def finite? : Json (Option ℚ) → Option ℚ
  | .int value => some value
  | .float value => value
  | _ => none

def validatedPrior (values : Json (Option ℚ)) : Option Prior := do
  let values ← values.items?
  let numbers ← values.mapM finite?
  if valid : numbers.length = 7 ∧ ∀ v ∈ numbers, 0 ≤ v ∧ v ≤ 1 then
    some fun j => numbers.get (j.cast valid.1.symm)
  else
    none

-- `int` on the text of a key.
variable (int : String → Option Int)

def addCost (costs : CostTable) (entry : String × Json (Option ℚ)) : Except Raised CostTable := do
  let k ← given (int entry.1)
  let v ← given (finite? entry.2)
  return costs.set k v

/-- A row of the calibration points, after the ones before it. -/
def addPoint (bounds : Int × Int) (points : List (Point CostTable)) (row : Json (Option ℚ)) :
    Except Raised (List (Point CostTable)) := do
  let x ← given ((row.field? "context").bind Json.int?)
  let raw ← given ((row.field? "cycle_ms").bind Json.fields?)
  require (bounds.1 ≤ x ∧ x < bounds.2 ∧ (∀ last ∈ points.getLast?, last.context < x) ∧ raw.length = CAPS.length)
  let costs ← raw.foldlM (addCost int) .empty
  let prior := (row.field? "conditional_acceptance_prior").bind validatedPrior
  require ((∀ k ∈ costs.keys, k ∈ CAPS.map Int.ofNat) ∧ (∀ k ∈ CAPS.map Int.ofNat, k ∈ costs.keys) ∧
    ∀ v ∈ costs.values, 0 < v)
  require (¬((row.field? "conditional_acceptance_prior").isSome ∧ prior.isNone))
  require (∀ strength ∈ row.field? "prior_strength", finite? strength = some 2)
  return points ++ [⟨x, costs, prior⟩]

/-- `CostCurve.parse`. -/
def CostCurve.parse (data : Json (Option ℚ)) (maxModelLen : Int) : Except Raised (CostCurve CostTable) := do
  let bounds ← given ((data.field? "context_range").bind Json.items?)
  let rows ← given ((data.field? "calibration_points").bind Json.items?)
  match bounds with
  | [.int first, .int last] => do
      require (0 ≤ first ∧ first < last ∧ last ≤ maxModelLen ∧ 1 ≤ rows.length ∧ rows.length ≤ 8)
      let points ← rows.foldlM (addPoint int (first, last)) []
      return ⟨(first, last), points⟩
  | _ => .error invalidCurve

end Parse

section Lookup

variable {Costs : Type} (table : Costs → CostTable)

/-- The costs part of the way from one table to another; a table that lacks a cap is a `KeyError`. -/
def blendCosts (left right : CostTable) (weight : ℚ) : Option CostTable :=
  (CAPS.map Int.ofNat).foldlM (fun costs k => do
    let a ← left.get? k
    let b ← right.get? k
    return costs.set k (a + weight * (b - a))) .empty

def blendPriors (left right : Option Prior) (weight : ℚ) : Option Prior := do
  let a ← left
  let b ← right
  return fun j => a j + weight * (b j - a j)

/-- The loop over the neighbours, and what comes after it. -/
def between (left : Point Costs) : List (Point Costs) → Int → Option (CostTable × Option Prior)
  | [], _ => some (table left.costs, left.prior)
  | right :: rest, context =>
      if context ≤ right.context then do
        let weight : ℚ := ((context - left.context : Int) : ℚ) / ((right.context - left.context : Int) : ℚ)
        let costs ← blendCosts (table left.costs) (table right.costs) weight
        return (costs, blendPriors left.prior right.prior weight)
      else between right rest context

/-- `CostCurve.at`; each of its three ways to a table makes a new one. -/
def CostCurve.atContext (curve : CostCurve Costs) (context : Int) : Option (CostTable × Option Prior) :=
  if ¬(curve.bounds.1 ≤ context ∧ context < curve.bounds.2) then some (.empty, none)
  else
    match curve.points with
    | [] => none
    | first :: rest =>
        if context ≤ first.context then some (table first.costs, first.prior) else between table first rest context

end Lookup

section Accepted

variable {Value : Type}

theorem require_ok {condition : Prop} [Decidable condition] {result : Unit} :
    require condition = .ok result ↔ condition := by
  unfold require
  split
  case isTrue holds => simp [holds]
  case isFalse fails => simp [fails]

theorem given_ok {value : Option Value} {result : Value} : given value = .ok result ↔ value = some result := by
  cases value with
  | none => simp [given]
  | some value => simp [given]

/-- Every number of a prior is a probability. -/
def Probable (prior : Prior) : Prop := ∀ j, 0 ≤ prior j ∧ prior j ≤ 1

theorem validatedPrior_probable {values : Json (Option ℚ)} {prior : Prior} (valid : validatedPrior values = some prior) :
    Probable prior := by
  simp only [validatedPrior, Option.bind_eq_bind, Option.bind_eq_some_iff] at valid
  obtain ⟨items, -, numbers, -, checked⟩ := valid
  split at checked
  case isTrue probable =>
    cases checked
    exact fun j => probable.2 _ (List.get_mem _ _)
  case isFalse => cases checked

/-- A calibration point in the range, with a positive cost for each cap and a prior of probabilities if any. -/
structure Point.Sound (point : Point CostTable) (bounds : Int × Int) : Prop where
  inside : bounds.1 ≤ point.context ∧ point.context < bounds.2
  keys : ∀ k, k ∈ point.costs.keys ↔ k ∈ CAPS.map Int.ofNat
  positive : ∀ v ∈ point.costs.values, 0 < v
  prior : ∀ prior, point.prior = some prior → Probable prior

/-- The points of a row list so far are sound and rise. -/
def SoundPoints (bounds : Int × Int) (rows : List (Json (Option ℚ))) (points : List (Point CostTable)) : Prop :=
  points.length = rows.length ∧ (∀ point ∈ points, point.Sound bounds) ∧
    points.Pairwise fun left right => left.context < right.context

variable {int : String → Option Int}

theorem addPoint_sound {bounds : Int × Int} {rows : List (Json (Option ℚ))} {row : Json (Option ℚ)}
    {points next : List (Point CostTable)} (sound : SoundPoints bounds rows points)
    (added : addPoint int bounds points row = .ok next) : SoundPoints bounds (rows ++ [row]) next := by
  simp only [addPoint, Library.bind_ok, given_ok, require_ok] at added
  obtain ⟨x, -, raw, -, -, ⟨low, high, later, -⟩, costs, -, -, ⟨known, complete, positive⟩, -, -, -, -, same⟩ := added
  cases same
  refine ⟨by simp [sound.1], ?_, ?_⟩
  · intro point member
    rcases List.mem_append.mp member with old | new
    · exact sound.2.1 point old
    · rw [List.mem_singleton.mp new]
      refine ⟨⟨low, high⟩, fun k => ⟨known k, complete k⟩, positive, fun prior same => ?_⟩
      obtain ⟨values, -, valid⟩ := Option.bind_eq_some_iff.mp same
      exact validatedPrior_probable valid
  · rw [List.pairwise_append]
    refine ⟨sound.2.2, List.pairwise_singleton _ _, fun left member right new => ?_⟩
    rw [List.mem_singleton.mp new]
    -- The last of the points before is the greatest of them.
    have nonempty := List.ne_nil_of_mem member
    have before := later (points.getLast nonempty) (List.getLast?_eq_some_getLast nonempty)
    have order := (sound.2.2.imp fun less => less.le).rel_getLast member
    exact lt_of_le_of_lt order before

/-- A curve with at least one point, whose points are sound and rise. -/
structure CostCurve.Sound (curve : CostCurve CostTable) (first : Point CostTable) (rest : List (Point CostTable)) :
    Prop where
  points : curve.points = first :: rest
  sound : ∀ point ∈ first :: rest, point.Sound curve.bounds
  rising : (first :: rest).Pairwise fun left right => left.context < right.context

theorem CostCurve.parse_sound {data : Json (Option ℚ)} {maxModelLen : Int} {curve : CostCurve CostTable}
    (accepted : CostCurve.parse int data maxModelLen = .ok curve) : ∃ first rest, curve.Sound first rest := by
  simp only [CostCurve.parse, Library.bind_ok, given_ok] at accepted
  obtain ⟨bounds, -, rows, -, accepted⟩ := accepted
  split at accepted
  case h_1 low high =>
    simp only [Library.bind_ok, require_ok] at accepted
    obtain ⟨-, ⟨-, -, -, nonempty, -⟩, points, built, same⟩ := accepted
    cases same
    have sound : SoundPoints (low, high) rows points :=
      Library.foldlM_carries (SoundPoints (low, high))
        (fun before row after state next _ sound added => addPoint_sound sound added) ⟨rfl, by simp, by simp⟩ built
    cases points with
    | nil => simp [SoundPoints] at sound; omega
    | cons first rest => exact ⟨first, rest, rfl, sound.2.1, sound.2.2⟩
  case h_2 => cases accepted

end Accepted

section Interpolation

open Interpolate

/-- The keys of a complete table. -/
abbrev capKeys : List Int := CAPS.map Int.ofNat

/-- The cost of a cap at a calibration point, as a knot of its curve. -/
def Point.knot (k : Int) (point : Point CostTable) : ℚ × ℚ := (point.context, (point.costs.get? k).getD 0)

/-- The cost of a cap at every rational context. -/
def costCurve (first : Point CostTable) (rest : List (Point CostTable)) (k : Int) : ℚ → ℚ :=
  curve (first.knot k) (rest.map (Point.knot k))

variable {bounds : Int × Int} {point left right first : Point CostTable} {points rest : List (Point CostTable)}
  {context : Int}

theorem Point.Sound.cost (sound : point.Sound bounds) {k : Int} (cap : k ∈ capKeys) :
    point.costs.get? k = some (point.knot k).2 ∧ 0 < (point.knot k).2 := by
  obtain ⟨cost, found⟩ := OrderedDict.mem_keys_iff.mp ((sound.keys k).mpr cap)
  have positive := sound.positive cost (OrderedDict.mem_values_iff.mpr ⟨k, found⟩)
  rw [knot, found]
  exact ⟨rfl, positive⟩

theorem Point.Sound.absent (sound : point.Sound bounds) {k : Int} (other : k ∉ capKeys) : point.costs.get? k = none :=
  OrderedDict.get?_eq_none_iff.mpr fun member => other ((sound.keys k).mp member)

theorem rising_knots (rising : (first :: rest).Pairwise fun left right => left.context < right.context) (k : Int) :
    Rising (first.knot k :: rest.map (Point.knot k)) := by
  rw [← List.map_cons, Rising, List.pairwise_map]
  exact rising.imp fun less => Int.cast_lt.mpr less

/-- Both points are the first one, or the last one, or they are the neighbours on the two sides of the context. -/
inductive Around (points : List (Point CostTable)) (context : Int) : Point CostTable → Point CostTable → Prop
  | low (first : Point CostTable) (rest : List (Point CostTable)) (split : points = first :: rest)
      (before : context ≤ first.context) :
      Around points context first first
  | high (last : Point CostTable) (final : points.getLast? = some last) (after : last.context < context) :
       Around points context last last
  | amid (before : List (Point CostTable)) (left right : Point CostTable) (after : List (Point CostTable))
      (split : points = before ++ left :: right :: after) (low : left.context < context)
      (high : context ≤ right.context) : Around points context left right

/-- From the second point on. -/
theorem Around.cons (around : Around points context left right) {head : Point CostTable}
    (beyond : ∀ point, points.head? = some point → point.context < context) :
    Around (head :: points) context left right := by
  cases around with
  | low _ rest split before =>
      have late := beyond left (by rw [split, List.head?_cons])
      omega
  | high _ final after => exact .high left (by rw [List.getLast?_cons, final, Option.getD_some]) after
  | amid before _ _ after split low high =>
      exact .amid (head :: before) left right after (by rw [split, List.cons_append]) low high

/-- The table and the prior at a context are those of the lines through two points. -/
structure Interpolates (left right : Point CostTable) (context : Int) (costs : CostTable) (prior : Option Prior) :
    Prop where
  costs : ∀ k, costs.get? k = if k ∈ capKeys then some (line (left.knot k) (right.knot k) context) else none
  prior : ∀ p, prior = some p → ∃ a b, left.prior = some a ∧ right.prior = some b ∧
    ∀ j, p j = line (↑left.context, a j) (↑right.context, b j) context

theorem line_self (knot : ℚ × ℚ) (t : ℚ) : line knot knot t = knot.2 := by simp [line]

/-- A point by itself. -/
theorem Point.Sound.interpolates (sound : point.Sound bounds) (context : Int) :
    Interpolates point point context point.costs point.prior where
  costs k := by
    split
    case isTrue cap => rw [line_self, (sound.cost cap).1]
    case isFalse other => exact sound.absent other
  prior p same := ⟨p, p, same, same, fun j => by rw [line_self]⟩

theorem blend_loop {left right : CostTable} (a b : Int → ℚ) (weight : ℚ) {caps : List Int} (costs : CostTable)
    (found : ∀ k ∈ caps, left.get? k = some (a k) ∧ right.get? k = some (b k)) :
    ∃ last, caps.foldlM (fun costs k => do
        let a ← left.get? k
        let b ← right.get? k
        return costs.set k (a + weight * (b - a))) costs = some last ∧
      ∀ k, last.get? k = if k ∈ caps then some (a k + weight * (b k - a k)) else costs.get? k := by
  induction caps generalizing costs with
  | nil => exact ⟨costs, rfl, fun k => by simp⟩
  | cons head caps ih =>
      have here := found head List.mem_cons_self
      obtain ⟨last, looped, values⟩ := ih (costs.set head (a head + weight * (b head - a head)))
        fun k member => found k (List.mem_cons_of_mem head member)
      refine ⟨last, ?_, fun k => ?_⟩
      · simp only [List.foldlM_cons, here.1, here.2, Option.bind_eq_bind, Option.bind_some, Option.pure_def]
        exact looped
      · rw [values k, OrderedDict.get?_set]
        by_cases later : k ∈ caps
        · simp [later]
        · by_cases same : k = head
          · simp [same]
          · simp [later, same]

theorem blendCosts_line (soundLeft : left.Sound bounds) (soundRight : right.Sound bounds) (context : Int) :
    ∃ costs, blendCosts left.costs right.costs
        (((context - left.context : Int) : ℚ) / ((right.context - left.context : Int) : ℚ)) = some costs ∧
      Interpolates left right context costs (blendPriors left.prior right.prior
        (((context - left.context : Int) : ℚ) / ((right.context - left.context : Int) : ℚ))) := by
  obtain ⟨costs, blended, values⟩ := blend_loop (fun k => (left.knot k).2) (fun k => (right.knot k).2)
    (((context - left.context : Int) : ℚ) / ((right.context - left.context : Int) : ℚ))
    .empty fun k (cap : k ∈ capKeys) => ⟨(soundLeft.cost cap).1, (soundRight.cost cap).1⟩
  refine ⟨costs, blended, fun k => ?_, fun p same => ?_⟩
  · rw [values k]
    split
    case isTrue => simp [line, Point.knot]
    case isFalse => rfl
  · simp only [blendPriors, Option.bind_eq_bind, Option.bind_eq_some_iff] at same
    obtain ⟨a, left, b, right, same⟩ := same
    cases same
    exact ⟨a, b, left, right, fun j => by simp [line]⟩

theorem between_around (sound : ∀ point ∈ first :: rest, point.Sound bounds) (past : first.context < context) :
    ∃ left right costs prior, between id first rest context = some (costs, prior) ∧
      Around (first :: rest) context left right ∧ Interpolates left right context costs prior := by
  induction rest generalizing first with
  | nil =>
      have here := sound first List.mem_cons_self
      exact ⟨first, first, first.costs, first.prior, rfl, .high first rfl past, here.interpolates context⟩
  | cons second rest ih =>
      by_cases reached : context ≤ second.context
      · obtain ⟨costs, blended, interpolates⟩ :=
          blendCosts_line (sound first (by simp)) (sound second (by simp)) context
        refine ⟨first, second, costs, _, ?_, .amid [] first second rest rfl past reached, interpolates⟩
        simp only [between, if_pos reached, id, blended, Option.bind_eq_bind, Option.bind_some, Option.pure_def]
      · have later := not_le.mp reached
        obtain ⟨left, right, costs, prior, found, around, interpolates⟩ :=
          ih (fun point member => sound point (List.mem_cons_of_mem first member)) later
        refine ⟨left, right, costs, prior, ?_, around.cons fun point same => ?_, interpolates⟩
        · rw [between, if_neg reached]
          exact found
        · cases same
          exact later

variable {curve : CostCurve CostTable}

/-- Inside the range the curve gives the lines through the points around the context. -/
theorem CostCurve.Sound.atContext (sound : curve.Sound first rest)
    (inside : curve.bounds.1 ≤ context ∧ context < curve.bounds.2) :
    ∃ left right costs prior, curve.atContext id context = some (costs, prior) ∧
      Around (first :: rest) context left right ∧ Interpolates left right context costs prior := by
  simp only [CostCurve.atContext, inside, and_self, not_true_eq_false, if_false, sound.points]
  by_cases before : context ≤ first.context
  · have here := sound.sound first List.mem_cons_self
    rw [if_pos before]
    exact ⟨first, first, first.costs, first.prior, rfl, .low first rest rfl before, here.interpolates context⟩
  · rw [if_neg before]
    exact between_around sound.sound (not_le.mp before)

theorem Around.members (around : Around points context left right) : left ∈ points ∧ right ∈ points := by
  cases around with
  | low _ rest split before => simp [split]
  | high _ final after => exact ⟨List.mem_of_getLast? final, List.mem_of_getLast? final⟩
  | amid before _ _ after split low high => simp [split]

section Pieces

variable (rising : (first :: rest).Pairwise fun left right => left.context < right.context) (k : Int)

include rising

theorem costCurve_continuous : Continuous (costCurve first rest k) := curve_continuous (rising_knots rising k)

theorem costCurve_knot (member : point ∈ first :: rest) : costCurve first rest k point.context = (point.knot k).2 := by
  have knot : point.knot k ∈ first.knot k :: rest.map (Point.knot k) := by
    rw [← List.map_cons]
    exact List.mem_map_of_mem member
  exact curve_knot (rising_knots rising k) knot

theorem costCurve_last {last : Point CostTable} (final : (first :: rest).getLast? = some last) {t : ℚ}
    (beyond : last.context ≤ t) : costCurve first rest k t = (last.knot k).2 := by
  have ends : (first.knot k :: rest.map (Point.knot k)).getLast (List.cons_ne_nil _ _) = last.knot k := by
    rw [← Option.some_inj, ← List.getLast?_eq_some_getLast, ← List.map_cons, List.getLast?_map, final]
    rfl
  rw [costCurve, curve_last (rising_knots rising k), ends]
  rw [ends]
  exact beyond

theorem costCurve_segment {before after : List (Point CostTable)} (split : first :: rest = before ++ left :: right :: after)
    {t : ℚ} (low : left.context ≤ t) (high : t ≤ right.context) :
    costCurve first rest k t = line (left.knot k) (right.knot k) t := by
  have adjacent : first.knot k :: rest.map (Point.knot k) =
      before.map (Point.knot k) ++ left.knot k :: right.knot k :: after.map (Point.knot k) := by
    rw [← List.map_cons, split]
    simp
  exact curve_segment (rising_knots rising k) adjacent low high

theorem costCurve_pos (sound : ∀ point ∈ first :: rest, point.Sound bounds) (cap : k ∈ capKeys) (t : ℚ) :
    0 < costCurve first rest k t := by
  refine curve_keeps (fun x y z low high between _ => (lt_min low high).trans_le between) (rising_knots rising k) ?_ t
  intro knot member
  rw [← List.map_cons] at member
  obtain ⟨point, inside, rfl⟩ := List.mem_map.mp member
  exact ((sound point inside).cost cap).2

/-- The lines through the points around a context make up the curve of a cap. -/
theorem Around.costCurve (around : Around (first :: rest) context left right) :
    line (left.knot k) (right.knot k) context = costCurve first rest k context := by
  cases around with
  | low _ rest' split before =>
      obtain ⟨rfl, rfl⟩ := List.cons.inj split
      rw [line_self]
      exact (curve_first (Int.cast_le.mpr before)).symm
  | high _ final after =>
      rw [line_self, costCurve_last rising k final (Int.cast_lt.mpr after).le]
  | amid before _ _ after split low high =>
      exact (costCurve_segment rising k split (Int.cast_lt.mpr low).le (Int.cast_le.mpr high)).symm

end Pieces

/-- A line through the points around a context stays between their values. -/
theorem Around.between (around : Around points context left right) (a b : ℚ) (same : left = right → a = b) :
    min a b ≤ line (↑left.context, a) (↑right.context, b) context ∧
      line (↑left.context, a) (↑right.context, b) context ≤ max a b := by
  have single : left = right → line ((left.context : ℚ), a) (↑right.context, b) context = a ∧ a = b := by
    intro equal
    rw [← same equal, equal]
    exact ⟨line_self _ _, rfl⟩
  cases around with
  | low _ rest split before =>
      obtain ⟨value, rfl⟩ := single rfl
      rw [value]
      simp
  | high _ final after =>
      obtain ⟨value, rfl⟩ := single rfl
      rw [value]
      simp
  | amid before _ _ after split low high =>
      have order : (left.context : ℚ) < context ∧ (context : ℚ) ≤ right.context :=
        ⟨Int.cast_lt.mpr low, Int.cast_le.mpr high⟩
      have inside := @line_between ℚ _ _ _ (↑left.context, a) (↑right.context, b) context
      exact inside (order.1.trans_le order.2) order.1.le order.2

end Interpolation

section Objects

variable {First Second : Type}

def Point.map (table : First → Second) (point : Point First) : Point Second :=
  ⟨point.context, table point.costs, point.prior⟩

def CostCurve.map (table : First → Second) (curve : CostCurve First) : CostCurve Second :=
  ⟨curve.bounds, curve.points.map (Point.map table)⟩

theorem between_map (table : First → CostTable) (left : Point First) (rest : List (Point First)) (context : Int) :
    between table left rest context = between id (left.map table) (rest.map (Point.map table)) context := by
  induction rest generalizing left with
  | nil => rfl
  | cons right rest ih =>
      rw [List.map_cons, between, between, ih right]
      rfl

theorem CostCurve.atContext_map (table : First → CostTable) (curve : CostCurve First) (context : Int) :
    curve.atContext table context = (curve.map table).atContext id context := by
  unfold atContext CostCurve.map
  cases curve.points with
  | nil => rfl
  | cons first rest =>
      dsimp only [List.map_cons]
      rw [between_map table first rest context]
      rfl

/-- A curve among the objects of a heap: the table of a point is the object at the place of the point. -/
def CostCurve.placed (curve : CostCurve CostTable) : CostCurve Nat :=
  ⟨curve.bounds, curve.points.mapIdx fun place point => ⟨point.context, place, point.prior⟩⟩

def CostCurve.heap (curve : CostCurve CostTable) : List CostTable := curve.points.map Point.costs

def readTable (heap : List CostTable) (place : Nat) : CostTable := heap[place]?.getD .empty

/-- What the users of a curve do: they look a context up, or they change a table they were given. -/
inductive CurveUse where
  | lookup (context : Int)
  | mutate (place : Nat) (change : CostTable → CostTable)

/-- A lookup returns a new object; the objects of the points are not given away. -/
def CostCurve.step (curve : CostCurve CostTable) (heap : List CostTable) : CurveUse → Option (List CostTable)
  | .lookup context => do
      let (costs, _) ← curve.placed.atContext (readTable heap) context
      return heap ++ [costs]
  | .mutate place change => do
      guard (curve.points.length ≤ place)
      return heap.modify place change

variable {curve : CostCurve CostTable} {heap : List CostTable}

/-- The objects of the points stay in front of the others, unchanged. -/
theorem CostCurve.step_heap {next : List CostTable} {use : CurveUse} (kept : curve.heap <+: heap)
    (taken : curve.step heap use = some next) : curve.heap <+: next := by
  cases use with
  | lookup context =>
      simp only [CostCurve.step, Option.bind_eq_bind, Option.bind_eq_some_iff] at taken
      obtain ⟨result, -, same⟩ := taken
      cases same
      exact kept.trans (List.prefix_append heap _)
  | mutate place change =>
      simp only [CostCurve.step, Option.bind_eq_bind, Option.bind_eq_some_iff, Option.guard_eq_some'] at taken
      obtain ⟨-, beyond, same⟩ := taken
      cases same
      rw [List.prefix_iff_getElem?] at kept ⊢
      intro i inside
      have apart : place ≠ i := by
        rw [CostCurve.heap, List.length_map] at inside
        omega
      rw [List.getElem?_modify_ne _ _ apart]
      exact kept i inside

theorem CostCurve.placed_atContext (kept : curve.heap <+: heap) (context : Int) :
    curve.placed.atContext (readTable heap) context = curve.atContext id context := by
  have same : curve.placed.map (readTable heap) = curve := by
    obtain ⟨rest, rfl⟩ := kept
    obtain ⟨bounds, points⟩ := curve
    simp only [CostCurve.map, CostCurve.placed, CostCurve.mk.injEq, true_and]
    refine List.ext_getElem (by simp) fun i short inside => ?_
    have here : (points.map Point.costs ++ rest)[i]? = some points[i].costs := by
      rw [List.getElem?_append_left (by simpa using inside), List.getElem?_map, List.getElem?_eq_getElem inside]
      rfl
    simp [Point.map, readTable, CostCurve.heap, here]
  rw [CostCurve.atContext_map, same]

end Objects

open Interpolate in
/-- What an accepted curve gives at a context, whatever was done with the tables it gave before, is empty outside the
range. Inside it there is a positive cost for each cap on a continuous curve that has the calibrated values at the
points, keeps the first and the last of them outside the points, and is a line between two neighbours; a prior lies
between those of the points around the context, and is one of probabilities. -/
theorem curve_interpolates {int : String → Option Int} {data : Json (Option ℚ)} {maxModelLen : Int}
    {curve : CostCurve CostTable} (accepted : CostCurve.parse int data maxModelLen = .ok curve) :
    ∃ first rest, curve.points = first :: rest ∧
      (∀ uses heap, Run.run curve.step curve.heap uses = some heap → ∀ context,
        curve.placed.atContext (readTable heap) context = curve.atContext id context) ∧
      (∀ context, ∃ costs prior, curve.atContext id context = some (costs, prior) ∧
        (¬(curve.bounds.1 ≤ context ∧ context < curve.bounds.2) → costs = .empty ∧ prior = none) ∧
        (curve.bounds.1 ≤ context ∧ context < curve.bounds.2 →
          (∀ k, k ∈ costs.keys ↔ k ∈ capKeys) ∧
          (∀ k ∈ capKeys, costs.get? k = some (costCurve first rest k context) ∧ 0 < costCurve first rest k context) ∧
          ∀ p, prior = some p → Probable p ∧
            ∃ left right a b, Around (first :: rest) context left right ∧ left.prior = some a ∧ right.prior = some b ∧
              ∀ j, min (a j) (b j) ≤ p j ∧ p j ≤ max (a j) (b j))) ∧
      ∀ k ∈ capKeys, Continuous (costCurve first rest k) ∧
        (∀ point ∈ first :: rest, point.costs.get? k = some (costCurve first rest k point.context)) ∧
        (∀ t : ℚ, t ≤ first.context → costCurve first rest k t = costCurve first rest k first.context) ∧
        (∀ last, (first :: rest).getLast? = some last → ∀ t : ℚ, last.context ≤ t →
          costCurve first rest k t = costCurve first rest k last.context) ∧
        ∀ before left right after, first :: rest = before ++ left :: right :: after →
          ∀ t : ℚ, left.context ≤ t → t ≤ right.context →
            costCurve first rest k t = line (left.knot k) (right.knot k) t ∧
            min (costCurve first rest k left.context) (costCurve first rest k right.context) ≤ costCurve first rest k t ∧
            costCurve first rest k t ≤ max (costCurve first rest k left.context) (costCurve first rest k right.context) := by
  obtain ⟨first, rest, sound⟩ := CostCurve.parse_sound accepted
  refine ⟨first, rest, sound.points, ?_, ?_, ?_⟩
  · intro uses heap reached context
    have kept : curve.heap <+: heap :=
      Run.run_invariant (fun heap use next kept taken => CostCurve.step_heap kept taken) List.prefix_rfl reached
    exact CostCurve.placed_atContext kept context
  · intro context
    by_cases inside : curve.bounds.1 ≤ context ∧ context < curve.bounds.2
    · obtain ⟨left, right, costs, prior, found, around, interpolates⟩ := sound.atContext inside
      have value : ∀ k ∈ capKeys, costs.get? k = some (costCurve first rest k context) := by
        intro k cap
        rw [interpolates.costs k, if_pos cap, around.costCurve sound.rising k]
      refine ⟨costs, prior, found, fun outside => absurd inside outside, fun _ => ⟨fun k => ?_, fun k cap => ?_, ?_⟩⟩
      · constructor
        · intro member
          obtain ⟨cost, present⟩ := OrderedDict.mem_keys_iff.mp member
          by_contra other
          rw [interpolates.costs k, if_neg other] at present
          cases present
        · exact fun cap => OrderedDict.mem_keys_iff.mpr ⟨_, value k cap⟩
      · exact ⟨value k cap, costCurve_pos sound.rising k sound.sound cap context⟩
      · intro p same
        obtain ⟨a, b, first, second, lines⟩ := interpolates.prior p same
        have bounded : ∀ j, min (a j) (b j) ≤ p j ∧ p j ≤ max (a j) (b j) := by
          intro j
          rw [lines j]
          refine around.between (a j) (b j) fun equal => ?_
          rw [equal, second] at first
          exact congrFun (Option.some.inj first).symm j
        have probable := And.intro ((sound.sound left around.members.1).prior a first)
          ((sound.sound right around.members.2).prior b second)
        refine ⟨fun j => ?_, left, right, a, b, around, first, second, bounded⟩
        exact ⟨(le_min (probable.1 j).1 (probable.2 j).1).trans (bounded j).1,
          (bounded j).2.trans (max_le (probable.1 j).2 (probable.2 j).2)⟩
    · refine ⟨.empty, none, ?_, fun _ => ⟨rfl, rfl⟩, fun within => absurd within inside⟩
      rw [CostCurve.atContext, if_pos inside]
  · intro k cap
    refine ⟨costCurve_continuous sound.rising k, fun point member => ?_, fun t low => ?_, fun last final t beyond => ?_, ?_⟩
    · rw [costCurve_knot sound.rising k member]
      exact ((sound.sound point member).cost cap).1
    · rw [costCurve_knot sound.rising k List.mem_cons_self]
      exact curve_first low
    · rw [costCurve_last sound.rising k final beyond, costCurve_last sound.rising k final le_rfl]
    · intro before left right after split t low high
      have member : left ∈ first :: rest ∧ right ∈ first :: rest := by
        rw [split]
        simp
      have apart : left.context < right.context := by
        have rising := sound.rising
        rw [split, List.pairwise_append] at rising
        exact (List.pairwise_cons.mp rising.2.1).1 right List.mem_cons_self
      rw [costCurve_knot sound.rising k member.1, costCurve_knot sound.rising k member.2,
        costCurve_segment sound.rising k split low high]
      exact ⟨rfl, line_between (Int.cast_lt.mpr apart) low high⟩

/-- Two points of which the second has a prior. -/
def twoPoints : Json (Option ℚ) :=
  let costs (scale : Int) : Json (Option ℚ) :=
    .object [("1", .int (95 * scale)), ("3", .int (115 * scale)), ("5", .float (some 130)), ("7", .int (145 * scale))]
  .object [("context_range", .list [.int 0, .int 512]), ("calibration_points", .list [
    .object [("context", .int 0), ("cycle_ms", costs 1)],
    .object [("context", .int 256), ("cycle_ms", costs 2),
      ("conditional_acceptance_prior", .list (List.replicate 7 (.float (some (1 / 2)))))]])]

/-- `int` on the texts of the caps. -/
def capNumeral (key : String) : Option Int := [("1", (1 : Int)), ("3", 3), ("5", 5), ("7", 7)].lookup key

theorem curve_interpolates_twoPoints : ∃ curve, CostCurve.parse capNumeral twoPoints 1024 = .ok curve ∧
    ∃ first rest, curve.points = first :: rest ∧ ∀ uses heap, Run.run curve.step curve.heap uses = some heap →
      ∀ context, curve.placed.atContext (readTable heap) context = curve.atContext id context := by
  have accepted : (CostCurve.parse capNumeral twoPoints 1024).isOk = true := by decide +kernel
  cases parsed : CostCurve.parse capNumeral twoPoints 1024 with
  | error raised =>
      rw [parsed] at accepted
      cases accepted
  | ok curve =>
      obtain ⟨first, rest, points, later, -⟩ := curve_interpolates parsed
      exact ⟨curve, rfl, first, rest, points, later⟩

end DgxSpark.Adaptive

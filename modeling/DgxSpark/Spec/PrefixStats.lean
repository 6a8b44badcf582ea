import Mathlib.Algebra.Order.BigOperators.Ring.Finset
import Mathlib.Tactic.Linarith
import DgxSpark.Library.Run
import DgxSpark.Spec.Adaptive

/-
This file shows that the acceptance statistics stay a survival model along every sequence of calls, and that the
cap that `choose` returns is within the hysteresis of the best. The numbers are exact.
-/

namespace DgxSpark.Adaptive

section Survival

/-- The product of the first rates. -/
def survival (rates : Nat → ℚ) (count : Nat) : ℚ := ∏ j ∈ Finset.range count, rates j

/-- How long a prefix is expected to be when the positions pass at these rates, the first token included. -/
def expectedPrefix (rates : Nat → ℚ) (count : Nat) : ℚ := ∑ i ∈ Finset.range (count + 1), survival rates i

variable {rates : Nat → ℚ}

theorem survival_succ (count : Nat) : survival rates (count + 1) = survival rates count * rates count :=
  Finset.prod_range_succ rates count

theorem expectedPrefix_succ (count : Nat) :
    expectedPrefix rates (count + 1) = expectedPrefix rates count + survival rates (count + 1) :=
  Finset.sum_range_succ (survival rates) (count + 1)

variable (within : ∀ j, 0 ≤ rates j ∧ rates j ≤ 1)

include within

theorem survival_within (count : Nat) : 0 ≤ survival rates count ∧ survival rates count ≤ 1 :=
  ⟨Finset.prod_nonneg fun j _ => (within j).1, Finset.prod_le_one (fun j _ => (within j).1) fun j _ => (within j).2⟩

theorem survival_antitone (count : Nat) : survival rates (count + 1) ≤ survival rates count := by
  rw [survival_succ]
  exact mul_le_of_le_one_right (survival_within within count).1 (within count).2

/-- The first token is certain, and each position adds one token at most. -/
theorem expectedPrefix_within (count : Nat) : 1 ≤ expectedPrefix rates count ∧ expectedPrefix rates count ≤ count + 1 := by
  induction count with
  | zero => simp [expectedPrefix, survival]
  | succ count ih =>
      have more := survival_within within (count + 1)
      rw [expectedPrefix_succ]
      push_cast
      constructor <;> linarith [ih.1, ih.2, more.1, more.2]

end Survival

namespace PrefixStats

section Calls

variable {F : Type} [PyFloat F]

/-- `observe` with a decay of the caller's. -/
def observeDecayed (stats : PrefixStats F) (k accepted : Nat) (decay : F) : Except Raised (PrefixStats F) :=
  if ¬(1 ≤ k ∧ k ≤ 7) ∨ ¬accepted ≤ k then
    .error (.valueError "invalid accepted-prefix observation")
  else
    .ok { stats with
      successes := fun j =>
        let decayed := PyFloat.mul (stats.successes j) decay
        if j < k ∧ j ≤ accepted then PyFloat.add decayed (PyFloat.ofNat (if j < accepted then 1 else 0)) else decayed
      trials := fun j =>
        let decayed := PyFloat.mul (stats.trials j) decay
        if j < k ∧ j ≤ accepted then PyFloat.add decayed (PyFloat.ofNat 1) else decayed
      observations := stats.observations + 1 }

theorem observe_eq (stats : PrefixStats F) (k accepted : Nat) :
    stats.observe k accepted = stats.observeDecayed k accepted PyFloat.decay := rfl

theorem expected_eq (stats : PrefixStats F) (k : Cap) (allowPriorOnly : Bool) :
    stats.expected k allowPriorOnly = stats.expectedUpTo k.1 allowPriorOnly := by
  have positive : 0 < k.1 := k.range.1
  simp only [expected, expectedUpTo, positive, true_and]
  rfl

/-- The part of a step before the rates are compared in which `choose` gives the full cap. -/
def Withheld (stats : PrefixStats F) (costs : OrderedDict Nat F) (scheduledSteps : Nat) (coldStart : Bool) : Prop :=
  scheduledSteps % 16 = 0 ∨ stats.observations < (if coldStart ∧ stats.prior.isSome then 0 else 8) ∨
    ¬∀ k, k ∈ costs.keys ↔ k ∈ CAPS

end Calls

inductive StatsCall where
  | observe (k accepted : Nat) (decay : ℚ)
  | prior (values : Option (Fin 7 → ℚ))
  | choose (costs : OrderedDict Nat (Option ℚ)) (scheduledSteps : Nat) (coldStart : Bool)

/-- Every cost is a positive number. -/
def Positive (costs : OrderedDict Nat (Option ℚ)) : Prop :=
  ∀ k cost, costs.get? k = some cost → ∃ value : ℚ, 0 < value ∧ cost = some value

/-- A decay in (0, 1], a prior of probabilities, and a table of positive costs. -/
def StatsCall.Valid : StatsCall → Prop
  | .observe _ _ decay => 0 < decay ∧ decay ≤ 1
  | .prior values => ∀ p, values = some p → ∀ j, 0 ≤ p j ∧ p j ≤ 1
  | .choose costs _ _ => Positive costs

/-- A call that raises does not go on. -/
def step (stats : PrefixStats (Option ℚ)) : StatsCall → Option (PrefixStats (Option ℚ))
  | .observe k accepted decay => (stats.observeDecayed k accepted (some decay)).toOption
  | .prior values => some { stats with prior := values.map fun p j => some (p j) }
  | .choose costs scheduledSteps coldStart => some (stats.choose costs scheduledSteps coldStart).1

@[simp] theorem exact_ofNat (n : Nat) : (PyFloat.ofNat n : Option ℚ) = some (n : ℚ) := rfl

@[simp] theorem exact_add (x y : ℚ) : PyFloat.add (some x) (some y) = some (x + y) := rfl

@[simp] theorem exact_mul (x y : ℚ) : PyFloat.mul (some x) (some y) = some (x * y) := rfl

@[simp] theorem exact_lt (x y : ℚ) : PyFloat.lt (some x) (some y) = decide (x < y) := rfl

@[simp] theorem exact_le (x y : ℚ) : PyFloat.le (some x) (some y) = decide (x ≤ y) := rfl

@[simp] theorem exact_eq (x y : ℚ) : PyFloat.eq (some x) (some y) = decide (x = y) := rfl

theorem exact_div {x y : ℚ} (nonzero : y ≠ 0) : PyFloat.div (some x) (some y) = some (x / y) := if_neg nonzero

/-- A position was passed no more often than tried, and tried no more often than the one before it was passed. -/
structure Surviving (stats : PrefixStats (Option ℚ)) (passed tried : Fin 7 → ℚ) : Prop where
  successes : ∀ j, stats.successes j = some (passed j)
  trials : ∀ j, stats.trials j = some (tried j)
  nonneg : ∀ j, 0 ≤ passed j
  bounded : ∀ j, passed j ≤ tried j
  chain : ∀ j next : Fin 7, next.1 = j.1 + 1 → tried next ≤ passed j
  prior : ∀ prior, stats.prior = some prior → ∃ p : Fin 7 → ℚ, prior = (fun j => some (p j)) ∧ ∀ j, 0 ≤ p j ∧ p j ≤ 1

variable {stats next : PrefixStats (Option ℚ)} {passed tried : Fin 7 → ℚ}

theorem fresh_surviving : (fresh : PrefixStats (Option ℚ)).Surviving (fun _ => 0) (fun _ => 0) where
  successes _ := by simp [fresh]
  trials _ := by simp [fresh]
  nonneg _ := le_rfl
  bounded _ := le_rfl
  chain _ _ _ := le_rfl
  prior _ same := by cases same

/-- One more trial of a position that its predecessors reached, and one more success where it was passed. -/
theorem Surviving.observe (surviving : stats.Surviving passed tried) {k accepted : Nat} {decay : ℚ}
    (valid : 0 < decay ∧ decay ≤ 1) (observed : stats.observeDecayed k accepted (some decay) = .ok next) :
    ∃ passed tried, next.Surviving passed tried := by
  unfold observeDecayed at observed
  split at observed
  · cases observed
  case isFalse inside =>
    cases observed
    have positive := valid.1.le
    refine ⟨fun j => passed j * decay + if j.1 < k ∧ j.1 < accepted then 1 else 0,
      fun j => tried j * decay + if j.1 < k ∧ j.1 ≤ accepted then 1 else 0, ?_, ?_, ?_, ?_, ?_, surviving.prior⟩
    · intro j
      simp only [surviving.successes j, exact_mul, exact_ofNat]
      by_cases risk : j.1 < k ∧ j.1 ≤ accepted
      · by_cases here : j.1 < accepted <;> simp [risk, here]
      · have outside : ¬(j.1 < k ∧ j.1 < accepted) := by omega
        simp [risk, outside]
    · intro j
      simp only [surviving.trials j, exact_mul, exact_ofNat]
      split <;> simp
    · intro j
      have old := mul_nonneg (surviving.nonneg j) positive
      split <;> linarith
    · intro j
      have old := mul_le_mul_of_nonneg_right (surviving.bounded j) positive
      by_cases here : j.1 < k ∧ j.1 < accepted
      · rw [if_pos here, if_pos ⟨here.1, here.2.le⟩]
        linarith
      · rw [if_neg here]
        split <;> linarith
    · intro j later order
      have old := mul_le_mul_of_nonneg_right (surviving.chain j later order) positive
      by_cases here : later.1 < k ∧ later.1 ≤ accepted
      · rw [if_pos here, if_pos (by omega)]
        linarith
      · rw [if_neg here]
        split <;> linarith

/-- The rate of a cap: how many tokens it is expected to give for its cost. -/
def rateOf (stats : PrefixStats (Option ℚ)) (costs : OrderedDict Nat (Option ℚ)) (coldStart : Bool) (k : Cap) :
    Option ℚ :=
  PyFloat.div (stats.expected k coldStart) ((costs.get? k).getD PyFloat.nan)

section Choose

variable {costs : OrderedDict Nat (Option ℚ)} {scheduledSteps : Nat} {coldStart : Bool}

theorem withheld_iff : stats.Withheld costs scheduledSteps coldStart ↔
    stats.observations < (if coldStart ∧ stats.prior.isSome then 0 else 8) ∨
      decide (scheduledSteps % 16 = 0) = true ∨ ¬(costs.keys ⊆ CAPS ∧ CAPS ⊆ costs.keys) := by
  have table : (∀ k, k ∈ costs.keys ↔ k ∈ CAPS) ↔ costs.keys ⊆ CAPS ∧ CAPS ⊆ costs.keys :=
    ⟨fun same => ⟨fun k => (same k).mp, fun k => (same k).mpr⟩,
      fun both k => ⟨fun member => both.1 member, fun member => both.2 member⟩⟩
  rw [Withheld, table, decide_eq_true_iff]
  tauto

theorem choose_withheld (withheld : stats.Withheld costs scheduledSteps coldStart) :
    stats.choose costs scheduledSteps coldStart = (stats, .full, decide (scheduledSteps % 16 = 0)) :=
  if_pos (withheld_iff.mp withheld)

/-- Where the rates are compared, one that is not a positive number gives the full cap too. -/
theorem choose_compared (compared : ¬stats.Withheld costs scheduledSteps coldStart) :
    stats.choose costs scheduledSteps coldStart =
      if ¬∀ k ∈ CAPS.attach, PyFloat.isFinite (stats.rateOf costs coldStart k) ∧
          PyFloat.lt (PyFloat.ofNat 0) (stats.rateOf costs coldStart k) then
        (stats, .full, decide (scheduledSteps % 16 = 0))
      else (stats.adapt (stats.rateOf costs coldStart), (stats.adapt (stats.rateOf costs coldStart)).cap,
        decide (scheduledSteps % 16 = 0)) :=
  if_neg fun held => compared (withheld_iff.mpr held)

variable (stats) in
theorem adapt_cases (rates : Cap → Option ℚ) : ∃ cap, stats.adapt rates = { stats with cap := cap } := by
  simp only [adapt]
  split
  case isTrue => exact ⟨_, rfl⟩
  case isFalse => exact ⟨stats.cap, rfl⟩

/-- `choose` may move the cap, and nothing else. -/
theorem choose_cases (stats : PrefixStats (Option ℚ)) (costs : OrderedDict Nat (Option ℚ)) (scheduledSteps : Nat)
    (coldStart : Bool) : ∃ cap, (stats.choose costs scheduledSteps coldStart).1 = { stats with cap := cap } := by
  by_cases withheld : stats.Withheld costs scheduledSteps coldStart
  · rw [choose_withheld withheld]
    exact ⟨stats.cap, rfl⟩
  · rw [choose_compared withheld]
    split
    case isTrue => exact ⟨stats.cap, rfl⟩
    case isFalse => exact adapt_cases stats _

end Choose

theorem Surviving.step (surviving : stats.Surviving passed tried) {call : StatsCall} (valid : call.Valid)
    (taken : stats.step call = some next) : ∃ passed tried, next.Surviving passed tried := by
  cases call with
  | observe k accepted decay =>
      have observed : stats.observeDecayed k accepted (some decay) = .ok next := by
        simp only [PrefixStats.step, Except.toOption] at taken
        split at taken
        case h_1 value same =>
          cases taken
          exact same
        case h_2 => cases taken
      exact surviving.observe valid observed
  | prior prior =>
      cases taken
      refine ⟨passed, tried, surviving.successes, surviving.trials, surviving.nonneg, surviving.bounded, surviving.chain,
        fun prior' same => ?_⟩
      obtain ⟨p, given, rfl⟩ := Option.map_eq_some_iff.mp same
      exact ⟨p, rfl, valid p given⟩
  | choose costs scheduledSteps coldStart =>
      cases taken
      obtain ⟨cap, same⟩ := stats.choose_cases costs scheduledSteps coldStart
      rw [same]
      exact ⟨passed, tried, surviving.successes, surviving.trials, surviving.nonneg, surviving.bounded, surviving.chain,
        surviving.prior⟩

/-- The rates of a survival model are probabilities. -/
theorem Surviving.conditional (surviving : stats.Surviving passed tried) :
    ∃ rates : Nat → ℚ, (∀ j, 0 ≤ rates j ∧ rates j ≤ 1) ∧ ∀ j : Fin 7, stats.conditional j = some (rates j.1) := by
  have each : ∀ j : Fin 7, ∃ rate : ℚ, stats.conditional j = some rate ∧ 0 ≤ rate ∧ rate ≤ 1 := by
    intro j
    have low := surviving.nonneg j
    have high := surviving.bounded j
    unfold PrefixStats.conditional
    split
    case h_1 prior given =>
      obtain ⟨p, rfl, probable⟩ := surviving.prior prior given
      have strength : (PRIOR_STRENGTH : Option ℚ) = some 2 := rfl
      have nonzero : tried j + 2 ≠ 0 := by linarith
      refine ⟨(passed j + 2 * p j) / (tried j + 2), ?_, ?_, ?_⟩
      · simp only [surviving.successes j, surviving.trials j, strength, exact_mul, exact_add, exact_div nonzero]
      · have := (probable j).1
        exact div_nonneg (by linarith) (by linarith)
      · have := (probable j).2
        rw [div_le_one (by linarith)]
        linarith
    case h_2 =>
      simp only [surviving.trials j, surviving.successes j, exact_ofNat, exact_le]
      by_cases enough : ((2 : Nat) : ℚ) ≤ tried j
      · have positive : 0 < tried j := lt_of_lt_of_le (by norm_num) enough
        refine ⟨passed j / tried j, ?_, div_nonneg low positive.le, (div_le_one positive).mpr high⟩
        rw [if_pos (decide_eq_true enough), exact_div positive.ne']
      · refine ⟨1, ?_, zero_le_one, le_rfl⟩
        rw [if_neg fun more => enough (of_decide_eq_true more)]
        norm_num
  choose rate same within using each
  refine ⟨fun j => if inside : j < 7 then rate ⟨j, inside⟩ else 0, fun j => ?_, fun j => ?_⟩
  · dsimp only
    split
    case isTrue inside => exact within ⟨j, inside⟩
    case isFalse => exact ⟨le_rfl, zero_le_one⟩
  · dsimp only
    rw [same j, dif_pos j.2]

section Expected

variable {rates : Nat → ℚ} (same : ∀ j : Fin 7, stats.conditional j = some (rates j.1))

include same

/-- The loop keeps the product of the rates and the sum of these products. -/
theorem expected_loop {k : Nat} (range : k ≤ 7) :
    ((List.finRange 7).take k).foldl stats.survive (PyFloat.ofNat 1, PyFloat.ofNat 1) =
        ((some (survival rates k), some (expectedPrefix rates k)) : Option ℚ × Option ℚ) := by
  induction k with
  | zero => simp [survival, expectedPrefix]
  | succ k ih =>
      have here : (List.finRange 7)[k]? = some (⟨k, by omega⟩ : Fin 7) := by
        rw [List.getElem?_eq_getElem (by simpa using range), List.getElem_finRange]
        rfl
      rw [List.take_add_one, List.foldl_append, ih (by omega), here]
      simp only [Option.toList_some, List.foldl_cons, List.foldl_nil, survive, same, exact_mul, exact_add, survival_succ,
        expectedPrefix_succ]

theorem expectedUpTo_cases {k : Nat} (range : k ≤ 7) (allow : Bool) :
    stats.expectedUpTo k allow = none ∨ stats.expectedUpTo k allow = some (expectedPrefix rates k) := by
  unfold expectedUpTo
  split
  case isTrue => exact .inl rfl
  case isFalse =>
    rw [expected_loop same range]
    exact .inr rfl

theorem expectedUpTo_value {k : Nat} (range : k ≤ 7) {allow : Bool} {value : ℚ}
    (defined : stats.expectedUpTo k allow = some value) : value = expectedPrefix rates k := by
  rcases expectedUpTo_cases same range allow with undefined | computed
  · rw [undefined] at defined
    cases defined
  · rw [computed] at defined
    exact (Option.some.inj defined).symm

end Expected

section Best

/-- One comparison of `max`. -/
def better (rates : Cap → Option ℚ) (best k : Cap) : Cap :=
  if PyFloat.eq (rates best) (rates k) then (if best.1 < k.1 then k else best)
  else if PyFloat.lt (rates best) (rates k) then k else best

theorem bestCap_eq (rates : Cap → Option ℚ) : bestCap rates = CAPS.attach.foldl (better rates) ⟨1, by decide⟩ := rfl

variable {rates : Cap → Option ℚ} {rate : Cap → ℚ} (same : ∀ k, rates k = some (rate k))

include same

theorem better_ge (best k : Cap) : rate best ≤ rate (better rates best k) ∧ rate k ≤ rate (better rates best k) := by
  simp only [better, same, exact_eq, exact_lt, decide_eq_true_eq]
  by_cases equal : rate best = rate k
  · rw [if_pos equal]
    split
    case isTrue => exact ⟨equal.le, le_rfl⟩
    case isFalse => exact ⟨le_rfl, equal.ge⟩
  · rw [if_neg equal]
    split
    case isTrue less => exact ⟨less.le, le_rfl⟩
    case isFalse more => exact ⟨le_rfl, le_of_not_gt more⟩

theorem best_ge (caps : List Cap) (best : Cap) :
    rate best ≤ rate (caps.foldl (better rates) best) ∧ ∀ k ∈ caps, rate k ≤ rate (caps.foldl (better rates) best) := by
  induction caps generalizing best with
  | nil => exact ⟨le_rfl, fun k member => absurd member List.not_mem_nil⟩
  | cons head tail ih =>
      have first := better_ge same best head
      have rest := ih (better rates best head)
      rw [List.foldl_cons]
      refine ⟨first.1.trans rest.1, fun k member => ?_⟩
      rcases List.mem_cons.mp member with rfl | later
      · exact first.2.trans rest.1
      · exact rest.2 k later

theorem bestCap_ge (k : Cap) : rate k ≤ rate (bestCap rates) :=
  (best_ge same CAPS.attach _).2 k (List.mem_attach _ _)

variable (stats) in
/-- The cap after a comparison is within the hysteresis of every cap, and moves to the best one only. -/
theorem adapt_near (positive : ∀ k, 0 < rate k) (k : Cap) :
    rate k ≤ 103 / 100 * rate (stats.adapt rates).cap ∧
      ((stats.adapt rates).cap ≠ stats.cap →
        103 / 100 * rate stats.cap < rate (stats.adapt rates).cap ∧ rate k ≤ rate (stats.adapt rates).cap) := by
  have hysteresis : (PyFloat.hysteresis : Option ℚ) = some (103 / 100) := rfl
  have best := bestCap_ge same k
  have own := positive (bestCap rates)
  simp only [adapt, same, hysteresis, exact_mul, exact_lt, decide_eq_true_eq]
  split
  case isTrue exceeds =>
    dsimp only
    refine ⟨by linarith, fun _ => ⟨by linarith, best⟩⟩
  case isFalse within => exact ⟨by linarith, fun moved => absurd rfl moved⟩

end Best

/-- The rates of a complete table are numbers where the expectations are. -/
theorem rateOf_some {costs : OrderedDict Nat (Option ℚ)} (positive : Positive costs) (complete : ∀ k, k ∈ costs.keys ↔ k ∈ CAPS)
    {coldStart : Bool} {gain : Cap → ℚ} (defined : ∀ k : Cap, stats.expected k coldStart = some (gain k)) :
    ∃ cost : Cap → ℚ, (∀ k : Cap, costs.get? k.1 = some (some (cost k)) ∧ 0 < cost k) ∧
      ∀ k, stats.rateOf costs coldStart k = some (gain k / cost k) := by
  have each : ∀ k : Cap, ∃ cost : ℚ, costs.get? k.1 = some (some cost) ∧ 0 < cost := by
    intro k
    obtain ⟨value, found⟩ := OrderedDict.mem_keys_iff.mp ((complete k.1).mpr k.2)
    obtain ⟨cost, more, rfl⟩ := positive k.1 value found
    exact ⟨cost, found, more⟩
  choose cost found using each
  refine ⟨cost, found, fun k => ?_⟩
  rw [rateOf, defined k, (found k).1, Option.getD_some, exact_div (found k).2.ne']

/-- After every sequence of valid calls a position was passed no more often than tried and tried no more often than
its predecessor was passed; an expectation lies in [1, k + 1], grows with k, and by less and less. On a table of
positive costs `choose` gives the full cap and keeps the statistics where it does not compare; else it may move the cap,
to the best one by more than the hysteresis, and gives one that is within the hysteresis of every other. -/
theorem statistics_survive {calls : List StatsCall} {stats : PrefixStats (Option ℚ)}
    (valid : Run.Meets step (fun _ call => call.Valid) .fresh calls) (reached : Run.run step .fresh calls = some stats) :
    (∃ passed tried : Fin 7 → ℚ,
      (∀ j, stats.successes j = some (passed j) ∧ stats.trials j = some (tried j) ∧ 0 ≤ passed j ∧ passed j ≤ tried j) ∧
      ∀ j next : Fin 7, next.1 = j.1 + 1 → tried next ≤ passed j) ∧
    (∀ allow k value, k ≤ 7 → stats.expectedUpTo k allow = some value → 1 ≤ value ∧ value ≤ k + 1) ∧
    (∀ allow k short long, k + 1 ≤ 7 → stats.expectedUpTo k allow = some short →
      stats.expectedUpTo (k + 1) allow = some long → short ≤ long) ∧
    (∀ allow k short middle long, k + 2 ≤ 7 → stats.expectedUpTo k allow = some short →
      stats.expectedUpTo (k + 1) allow = some middle → stats.expectedUpTo (k + 2) allow = some long →
      long - middle ≤ middle - short) ∧
    ∀ costs scheduledSteps coldStart, Positive costs →
      (stats.Withheld costs scheduledSteps coldStart ∨ (∃ k, stats.expected k coldStart = none) →
        stats.choose costs scheduledSteps coldStart = (stats, .full, decide (scheduledSteps % 16 = 0))) ∧
      (¬stats.Withheld costs scheduledSteps coldStart → (∀ k, stats.expected k coldStart ≠ none) →
        ∃ gain cost : Cap → ℚ, ∃ chosen : Cap,
          (∀ k : Cap, stats.expected k coldStart = some (gain k) ∧ costs.get? k.1 = some (some (cost k))) ∧
          stats.choose costs scheduledSteps coldStart =
            ({ stats with cap := chosen }, chosen, decide (scheduledSteps % 16 = 0)) ∧
          (∀ k, gain k / cost k ≤ 103 / 100 * (gain chosen / cost chosen)) ∧
          (chosen ≠ stats.cap → 103 / 100 * (gain stats.cap / cost stats.cap) < gain chosen / cost chosen ∧
            ∀ k, gain k / cost k ≤ gain chosen / cost chosen)) := by
  have keeps : ∀ (state : PrefixStats (Option ℚ)) (call : StatsCall) (next : PrefixStats (Option ℚ)),
      (∃ passed tried, state.Surviving passed tried) → call.Valid → state.step call = some next →
        ∃ passed tried, next.Surviving passed tried := by
    intro state call next held valid taken
    obtain ⟨passed, tried, surviving⟩ := held
    exact surviving.step valid taken
  obtain ⟨passed, tried, surviving⟩ := Run.run_invariant_of_meets keeps ⟨_, _, fresh_surviving⟩ valid reached
  obtain ⟨rates, within, same⟩ := surviving.conditional
  refine ⟨⟨passed, tried, fun j => ⟨surviving.successes j, surviving.trials j, surviving.nonneg j, surviving.bounded j⟩,
    surviving.chain⟩, ?_, ?_, ?_, ?_⟩
  · intro allow k value range defined
    rw [expectedUpTo_value same range defined]
    exact expectedPrefix_within within k
  · intro allow k short long range shorter longer
    rw [expectedUpTo_value same (by omega) shorter, expectedUpTo_value same range longer, expectedPrefix_succ]
    linarith [(survival_within within (k + 1)).1]
  · intro allow k short middle long range first second third
    rw [expectedUpTo_value same (by omega) first, expectedUpTo_value same (by omega) second,
      expectedUpTo_value same range third, expectedPrefix_succ (k + 1), expectedPrefix_succ k]
    linarith [survival_antitone within (k + 1)]
  · intro costs scheduledSteps coldStart positive
    constructor
    · intro reason
      by_cases withheld : stats.Withheld costs scheduledSteps coldStart
      · exact choose_withheld withheld
      · obtain ⟨k, undefined⟩ := reason.resolve_left withheld
        have rate : stats.rateOf costs coldStart k = none := by
          rw [rateOf, undefined]
          rfl
        rw [choose_compared withheld, if_pos]
        intro all
        have finite := (all k (List.mem_attach _ _)).1
        rw [rate] at finite
        cases finite
    · intro compared defined
      have value : ∀ k : Cap, stats.expected k coldStart = some (expectedPrefix rates k.1) := by
        intro k
        have range := k.range.2
        have some := expectedUpTo_cases same range coldStart
        rw [← expected_eq] at some
        exact some.resolve_left (defined k)
      have complete : ∀ k, k ∈ costs.keys ↔ k ∈ CAPS := by
        by_contra incomplete
        exact compared (.inr (.inr incomplete))
      obtain ⟨cost, found, rate⟩ := rateOf_some positive complete value
      have gains : ∀ k : Cap, 0 < expectedPrefix rates k.1 / cost k := fun k =>
        div_pos (lt_of_lt_of_le one_pos (expectedPrefix_within within k.1).1) (found k).2
      have near := adapt_near stats rate gains
      obtain ⟨cap, adapted⟩ := adapt_cases stats (stats.rateOf costs coldStart)
      rw [adapted] at near
      refine ⟨fun k => expectedPrefix rates k.1, cost, cap, fun k => ⟨value k, (found k).1⟩, ?_, fun k => (near k).1,
        fun moved => ⟨((near cap).2 moved).1, fun k => ((near k).2 moved).2⟩⟩
      rw [choose_compared compared, if_neg, adapted]
      intro refused
      refine refused fun k _ => ?_
      rw [rate k]
      exact ⟨rfl, decide_eq_true (by exact_mod_cast gains k)⟩

/-- Two cycles of three drafts, a prior, and a choice on a table that leaves caps out. -/
theorem statistics_survive_twoCycles : ∃ stats, Run.run step .fresh [.observe 3 3 1, .observe 3 1 (97 / 100),
      .prior (some fun _ => 1 / 2), .choose (OrderedDict.empty.set 7 (some 145)) 7 true] = some stats ∧
    ∃ passed tried : Fin 7 → ℚ,
      (∀ j, stats.successes j = some (passed j) ∧ stats.trials j = some (tried j) ∧ 0 ≤ passed j ∧ passed j ≤ tried j) ∧
      ∀ j next : Fin 7, next.1 = j.1 + 1 → tried next ≤ passed j := by
  have half : StatsCall.Valid (.prior (some fun _ => 1 / 2)) := by
    intro p given j
    cases given
    constructor <;> norm_num
  have table : StatsCall.Valid (.choose (OrderedDict.empty.set 7 (some 145)) 7 true) := by
    intro k cost found
    rw [OrderedDict.get?_set] at found
    split at found
    case isTrue =>
      cases found
      exact ⟨145, by norm_num, rfl⟩
    case isFalse => simp at found
  have valid : Run.Meets step (fun _ call => call.Valid) .fresh [.observe 3 3 1, .observe 3 1 (97 / 100),
      .prior (some fun _ => 1 / 2), .choose (OrderedDict.empty.set 7 (some 145)) 7 true] := by
    refine ⟨?_, fun _ _ => ⟨?_, fun _ _ => ⟨half, fun _ _ => ⟨table, fun _ _ => trivial⟩⟩⟩⟩
    · constructor <;> norm_num
    · constructor <;> norm_num
  exact ⟨_, rfl, (statistics_survive valid rfl).1⟩

end PrefixStats

end DgxSpark.Adaptive

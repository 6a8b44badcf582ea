import Mathlib.Tactic

namespace DgxSpark

/-- A field that one step of a loop keeps is kept by the whole loop. -/
theorem foldl_keeps {State Item Field : Type} (field : State → Field) {step : State → Item → State}
    (keeps : ∀ state item, field (step state item) = field state) (items : List Item) (start : State) :
    field (items.foldl step start) = field start := by
  induction items generalizing start with
  | nil => rfl
  | cons head tail ih => rw [List.foldl_cons, ih, keeps]

namespace Run

variable {State Action : Type}

/-- A run takes its actions from left to right and stops at the first disabled one. -/
def run (step : State → Action → Option State) : State → List Action → Option State
  | state, [] => some state
  | state, action :: rest => (step state action).bind fun next => run step next rest

/-- Every action of the run meets the condition in the state it is taken in. -/
def Meets (step : State → Action → Option State) (condition : State → Action → Prop) :
    State → List Action → Prop
  | _, [] => True
  | state, action :: rest =>
      condition state action ∧ ∀ next, step state action = some next → Meets step condition next rest

variable {step : State → Action → Option State}

@[simp] theorem run_nil (state : State) : run step state [] = some state := rfl

theorem run_cons (state : State) (action : Action) (rest : List Action) :
    run step state (action :: rest) = (step state action).bind fun next => run step next rest := rfl

theorem run_cons_some {state last : State} {action : Action} {rest : List Action} :
    run step state (action :: rest) = some last ↔
      ∃ next, step state action = some next ∧ run step next rest = some last := by
  simp only [run_cons, Option.bind_eq_some_iff]

theorem run_append (state : State) (first second : List Action) :
    run step state (first ++ second) =
      (run step state first).bind fun middle => run step middle second := by
  induction first generalizing state with
  | nil => rfl
  | cons action rest ih =>
      simp only [List.cons_append, run_cons, Option.bind_assoc]
      exact congrArg _ (funext fun next => ih next)

/-- The last action of a run starts in a state that the earlier actions reach. -/
theorem run_concat_some {state last : State} {actions : List Action} {action : Action} :
    run step state (actions ++ [action]) = some last ↔
      ∃ middle, run step state actions = some middle ∧ step middle action = some last := by
  simp only [run_append, run_cons, run_nil, Option.bind_eq_some_iff]
  constructor
  · rintro ⟨middle, reached, next, taken, same⟩
    exact ⟨middle, reached, by rw [taken, same]⟩
  · rintro ⟨middle, reached, taken⟩
    exact ⟨middle, reached, last, taken, rfl⟩

/-- A property that each step keeps holds at the end of every run. -/
theorem run_invariant {invariant : State → Prop}
    (keeps : ∀ state action next, invariant state → step state action = some next → invariant next)
    {state last : State} {actions : List Action} (start : invariant state)
    (reached : run step state actions = some last) : invariant last := by
  induction actions generalizing state with
  | nil =>
      simp only [run_nil, Option.some.injEq] at reached
      exact reached ▸ start
  | cons action rest ih =>
      obtain ⟨next, taken, tail⟩ := run_cons_some.mp reached
      exact ih (keeps state action next start taken) tail

/-- A property that each step under a condition keeps holds where the run meets that condition. -/
theorem run_invariant_of_meets {invariant : State → Prop} {condition : State → Action → Prop}
    (keeps : ∀ state action next, invariant state → condition state action →
      step state action = some next → invariant next)
    {state last : State} {actions : List Action} (start : invariant state)
    (meets : Meets step condition state actions)
    (reached : run step state actions = some last) : invariant last := by
  induction actions generalizing state with
  | nil =>
      simp only [run_nil, Option.some.injEq] at reached
      exact reached ▸ start
  | cons action rest ih =>
      obtain ⟨next, taken, tail⟩ := run_cons_some.mp reached
      exact ih (keeps state action next start meets.1 taken) (meets.2 next taken) tail

/-- When each step pays its cost out of a rank, a run costs no more than the rank it starts with. -/
theorem run_cost {invariant : State → Prop} {condition : State → Action → Prop} {cost : Action → Nat}
    {rank : State → Nat}
    (keeps : ∀ state action next, invariant state → step state action = some next → invariant next)
    (pays : ∀ state action next, invariant state → condition state action → step state action = some next →
      cost action + rank next ≤ rank state)
    {state last : State} {actions : List Action} (start : invariant state)
    (meets : Meets step condition state actions)
    (reached : run step state actions = some last) : (actions.map cost).sum + rank last ≤ rank state := by
  induction actions generalizing state with
  | nil =>
      simp only [run_nil, Option.some.injEq] at reached
      simp [reached]
  | cons action rest ih =>
      obtain ⟨next, taken, tail⟩ := run_cons_some.mp reached
      have here := pays state action next start meets.1 taken
      have later := ih (keeps state action next start taken) (meets.2 next taken) tail
      rw [List.map_cons, List.sum_cons]
      omega

theorem meets_of_forall {condition : State → Action → Prop} (always : ∀ state action, condition state action)
    (state : State) (actions : List Action) : Meets step condition state actions := by
  induction actions generalizing state with
  | nil => trivial
  | cons action rest ih => exact ⟨always state action, fun next _ => ih next⟩

/-- Conditions that agree wherever an invariant holds are met by the same runs. -/
theorem meets_congr {invariant : State → Prop} {condition other : State → Action → Prop}
    (keeps : ∀ state action next, invariant state → step state action = some next → invariant next)
    (agree : ∀ state action, invariant state → (condition state action ↔ other state action))
    {state : State} {actions : List Action} (start : invariant state) :
    Meets step condition state actions ↔ Meets step other state actions := by
  induction actions generalizing state with
  | nil => exact Iff.rfl
  | cons action rest ih =>
      have later : ∀ next, step state action = some next →
          (Meets step condition next rest ↔ Meets step other next rest) :=
        fun next taken => ih (keeps state action next start taken)
      rw [Meets, Meets, agree state action start]
      exact and_congr_right fun _ => forall_congr' fun next => imp_congr_right (later next)

theorem Meets.cons {condition : State → Action → Prop} {state next : State} {action : Action}
    {rest : List Action} (here : condition state action) (taken : step state action = some next)
    (later : Meets step condition next rest) : Meets step condition state (action :: rest) :=
  ⟨here, fun _ same => Option.some.inj (taken.symm.trans same) ▸ later⟩

theorem meets_append {condition : State → Action → Prop} {state : State} {first second : List Action} :
    Meets step condition state (first ++ second) ↔
      Meets step condition state first ∧
        ∀ middle, run step state first = some middle → Meets step condition middle second := by
  induction first generalizing state with
  | nil => simp [Meets]
  | cons action rest ih =>
      simp only [List.cons_append, Meets, ih]
      constructor
      · rintro ⟨here, later⟩
        refine ⟨⟨here, fun next taken => (later next taken).1⟩, ?_⟩
        intro middle reached
        obtain ⟨next, taken, tail⟩ := run_cons_some.mp reached
        exact (later next taken).2 middle tail
      · rintro ⟨⟨here, early⟩, late⟩
        refine ⟨here, fun next taken => ⟨early next taken, ?_⟩⟩
        intro middle tail
        exact late middle (run_cons_some.mpr ⟨next, taken, tail⟩)

theorem Meets.of_prefix {condition : State → Action → Prop} {state : State} {before actions : List Action}
    (meets : Meets step condition state actions) (initial : before <+: actions) :
    Meets step condition state before := by
  obtain ⟨after, rfl⟩ := initial
  exact (meets_append.mp meets).1

/-- When each step against the condition breaks a property at once, the property holds along a run
exactly when the whole run meets the condition. -/
theorem always_iff_meets (invariant : State → Prop) {property : State → Prop}
    {condition : State → Action → Prop}
    (keeps : ∀ state action next, invariant state → condition state action →
      step state action = some next → invariant next)
    (gives : ∀ state, invariant state → property state)
    (breaks : ∀ state action next, invariant state → ¬condition state action →
      step state action = some next → ¬property next)
    {state last : State} {actions : List Action} (start : invariant state)
    (reached : run step state actions = some last) :
    (∀ before middle, before <+: actions → run step state before = some middle → property middle) ↔
      Meets step condition state actions := by
  constructor
  · intro always
    induction actions generalizing state with
    | nil => trivial
    | cons action rest ih =>
        obtain ⟨next, taken, tail⟩ := run_cons_some.mp reached
        have after : property next := always [action] next (List.prefix_append [action] rest)
          (run_cons_some.mpr ⟨next, taken, rfl⟩)
        have here : condition state action := by
          by_contra bad
          exact breaks state action next start bad taken after
        have later : Meets step condition next rest := by
          refine ih (keeps state action next start here taken) tail ?_
          intro before middle initial there
          exact always (action :: before) middle (List.cons_prefix_cons.mpr ⟨rfl, initial⟩)
            (run_cons_some.mpr ⟨next, taken, there⟩)
        exact .cons here taken later
  · intro meets before middle initial there
    exact gives middle (run_invariant_of_meets keeps start (meets.of_prefix initial) there)

end Run

end DgxSpark

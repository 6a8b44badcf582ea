import DgxSpark.Nvme.CoalescedPump

/-
This file says once what a step of the body of `coalesced_weights` can do, and from it that the caller gets the tensors
of each batch that arrives, in order, and the empty tensors behind them.
-/

namespace DgxSpark.Nvme.Coalesced

open Library Streaming

variable {DType : Type}

/-- Where the body of the generator can still raise. -/
def Point.Running : Point DType → Prop
  | .closing _ => False
  | .ended _ => False
  | _ => True

namespace CoalescedWeights

/-- What a step of the body does. -/
inductive Advanced (call : CoalescedCall DType) (disk : Disk) (batches : List (Batch DType))
    (state : CoalescedWeights DType) : CoalescedWeights DType → Prop where
  | consumed {prefetch : Prefetch Item CoalescedError} (point : state.point = .iterating ∨ ¬state.point.Running)
      (taken : Prefetch.consumerStep state.prefetch = some prefetch) :
      Advanced call disk batches state { state with prefetch := prefetch }
  | entered {item : Item} {batch : Batch DType} (point : state.point = .iterating)
      (here : state.prefetch.consumer = .holding item) (found : batches[item.index]? = some batch) :
      Advanced call disk batches state { state with point := .tensors item batch.tensors }
  | exhausted (point : state.point = .iterating) (here : state.prefetch.consumer = .ended .exhausted) :
      Advanced call disk batches state { state with point := .empties call.metadata.tensors.entries }
  | stopped {finish : Finish} (running : state.point.Running) (early : finish ≠ .returned) :
      Advanced call disk batches state { state with point := .closing finish }
  | turned {item : Item} {prefetch : Prefetch Item CoalescedError} (point : state.point = .tensors item [])
      (taken : Prefetch.userStep state.prefetch false = some prefetch) :
      Advanced call disk batches state { state with point := .iterating, prefetch := prefetch }
  | skipped {item : Item} {row : Row DType} {rest : List (Row DType)} (point : state.point = .tensors item (row :: rest))
      (skip : call.skip row.1 = true) :
      Advanced call disk batches state { state with point := .tensors item rest }
  | yielded {item : Item} {row : Row DType} {rest : List (Row DType)} {batch : Batch DType} {yielded : Yielded DType}
      (point : state.point = .tensors item (row :: rest)) (skip : call.skip row.1 = false)
      (found : batches[item.index]? = some batch) (view : viewOf call.elementSize batch item row = .ok yielded) :
      Advanced call disk batches state { state with point := .yielded item rest, yields := state.yields ++ [yielded] }
  | passed {row : Row DType} {rest : List (Row DType)} (point : state.point = .empties (row :: rest))
      (pass : row.2.bytes ≠ 0 ∨ call.skip row.1 = true) :
      Advanced call disk batches state { state with point := .empties rest }
  | yieldedEmpty {row : Row DType} {rest : List (Row DType)} (point : state.point = .empties (row :: rest))
      (empty : row.2.bytes = 0) (skip : call.skip row.1 = false) :
      Advanced call disk batches state { state with
        point := .yieldedEmpty rest
        yields := state.yields ++ [⟨row.1, row.2.shape, row.2.dtype, none⟩] }
  | swept (point : state.point = .empties []) : Advanced call disk batches state { state with point := .checking }
  | returned (point : state.point = .checking)
      (same : ∀ entry ∈ call.metadata.stamps.entries, (disk entry.1).map SourceFile.stamp = some entry.2) :
      Advanced call disk batches state { state with point := .closing .returned, complete := true }
  | resumed {item : Item} {rest : List (Row DType)} (point : state.point = .yielded item rest) :
      Advanced call disk batches state { state with point := .tensors item rest }
  | resumedEmpty {rest : List (Row DType)} (point : state.point = .yieldedEmpty rest) :
      Advanced call disk batches state { state with point := .empties rest }
  | cancelled {finish : Finish} {item : Item} {prefetch : Prefetch Item CoalescedError}
      (point : state.point = .closing finish) (here : state.prefetch.consumer = .holding item)
      (taken : Prefetch.userStep state.prefetch true = some prefetch) :
      Advanced call disk batches state { state with prefetch := prefetch }
  | ended {finish : Finish} {outcome : Nvme.Outcome CoalescedError} (point : state.point = .closing finish)
      (here : state.prefetch.consumer = .ended outcome) (joined : outcome ≠ .stuck) :
      Advanced call disk batches state { state with point := .ended finish }
  | stuck {finish : Finish} (point : state.point = .closing finish) (here : state.prefetch.consumer = .ended .stuck) :
      Advanced call disk batches state { state with point := .ended (.raised CoalescedWeights.stuck) }

variable {call : CoalescedCall DType} {disk : Disk} {batches : List (Batch DType)}
  {state next : CoalescedWeights DType}

theorem consume_advanced (point : state.point = .iterating ∨ ¬state.point.Running) (taken : state.consume = some next) :
    Advanced call disk batches state next := by
  obtain ⟨prefetch, stepped, rfl⟩ := Option.map_eq_some_iff.mp taken
  exact .consumed point stepped

theorem check_advanced (point : state.point = .checking) : Advanced call disk batches state (state.check call disk) := by
  unfold check
  split
  case h_1 => exact .stopped (by rw [point]; trivial) (by split <;> exact Finish.noConfusion)
  case h_2 found =>
    refine .returned point ?_
    intro entry inside
    have same := List.find?_eq_none.mp found entry inside
    simpa using same

theorem main_advanced (taken : state.main call disk batches = some next) : Advanced call disk batches state next := by
  unfold main at taken
  split at taken
  case h_1 point =>
    have running : state.point.Running := by
      rw [point]
      trivial
    split at taken
    case h_1 item here =>
      obtain ⟨batch, found, taken⟩ := Option.bind_eq_some_iff.mp taken
      cases taken
      exact .entered point here found
    case h_2 here =>
      cases taken
      exact .exhausted point here
    case h_3 error here =>
      cases taken
      exact .stopped running Finish.noConfusion
    case h_4 here =>
      cases taken
      exact .stopped running Finish.noConfusion
    case h_5 => cases taken
    case h_6 => exact consume_advanced (.inl point) taken
  case h_2 item point =>
    obtain ⟨prefetch, stepped, taken⟩ := Option.bind_eq_some_iff.mp taken
    cases taken
    exact .turned point stepped
  case h_3 item row rest point =>
    split at taken
    case isTrue skip =>
      cases taken
      exact .skipped point skip
    case isFalse skip =>
      obtain ⟨batch, found, taken⟩ := Option.bind_eq_some_iff.mp taken
      split at taken
      case h_1 error view =>
        cases taken
        exact .stopped (by rw [point]; trivial) Finish.noConfusion
      case h_2 yielded view =>
        cases taken
        exact .yielded point (Bool.eq_false_of_not_eq_true skip) found view
  case h_4 point =>
    cases taken
    exact .swept point
  case h_5 row rest point =>
    split at taken
    case isTrue pass =>
      cases taken
      exact .passed point pass
    case isFalse stay =>
      cases taken
      rw [not_or, not_not] at stay
      exact .yieldedEmpty point stay.1 (Bool.eq_false_of_not_eq_true stay.2)
  case h_6 point =>
    cases taken
    exact check_advanced point
  case h_7 finish point =>
    split at taken
    case h_1 item here =>
      obtain ⟨prefetch, stepped, rfl⟩ := Option.map_eq_some_iff.mp taken
      exact .cancelled point here stepped
    case h_2 here =>
      cases taken
      exact .stuck point here
    case h_3 outcome joined here =>
      cases taken
      exact .ended point here joined
    case h_4 => exact consume_advanced (.inr (by rw [point]; exact id)) taken
  case h_8 => cases taken
  case h_9 => cases taken
  case h_10 => cases taken

theorem fails_advanced (taken : state.fails = some next) : Advanced call disk batches state next := by
  unfold fails at taken
  split at taken
  case h_1 item rows point =>
    cases taken
    exact .stopped (by rw [point]; trivial) Finish.noConfusion
  case h_2 rows point =>
    cases taken
    exact .stopped (by rw [point]; trivial) Finish.noConfusion
  case h_3 point =>
    cases taken
    exact .stopped (by rw [point]; trivial) Finish.noConfusion
  case h_4 => cases taken

theorem resumed_advanced (taken : state.resumed = some next) : Advanced call disk batches state next := by
  unfold CoalescedWeights.resumed at taken
  split at taken
  case h_1 item rest point =>
    cases taken
    exact .resumed point
  case h_2 rest point =>
    cases taken
    exact .resumedEmpty point
  case h_3 => cases taken

theorem leave_advanced {finish : Finish} (early : finish ≠ .returned) (taken : state.leave finish = some next) :
    Advanced call disk batches state next := by
  unfold leave at taken
  split at taken
  case h_1 item rows point =>
    cases taken
    exact .stopped (by rw [point]; trivial) early
  case h_2 rows point =>
    cases taken
    exact .stopped (by rw [point]; trivial) early
  case h_3 => cases taken

/-- What a step of the machine does. -/
inductive Transition (call : CoalescedCall DType) (disk : Disk) (batches : List (Batch DType))
    (state : CoalescedWeights DType) : CoalescedWeights DType → Prop where
  | source {action : SourceAction} {source : Source} (allowed : state.allows action = true)
      (taken : state.source.step call disk batches action = some source) :
      Transition call disk batches state { state with source := source }
  | pump {next : CoalescedWeights DType} (pumped : state.Pumped next) : Transition call disk batches state next
  | pumpTimeout {prefetch : Prefetch Item CoalescedError} (taken : Prefetch.pumpTimeout state.prefetch = some prefetch) :
      Transition call disk batches state { state with prefetch := prefetch }
  | joinTimeout {prefetch : Prefetch Item CoalescedError} (taken : Prefetch.joinTimeout state.prefetch = some prefetch) :
      Transition call disk batches state { state with prefetch := prefetch }
  | body {next : CoalescedWeights DType} (advanced : Advanced call disk batches state next) :
      Transition call disk batches state next

theorem step_transition {action : Action} (taken : state.step call disk batches action = some next) :
    Transition call disk batches state next := by
  cases action with
  | source action =>
      simp only [step, Option.ite_none_right_eq_some] at taken
      obtain ⟨source, stepped, rfl⟩ := Option.map_eq_some_iff.mp taken.2
      exact .source taken.1 stepped
  | pump => exact .pump (pump_pumped taken)
  | pumpTimeout =>
      obtain ⟨prefetch, stepped, rfl⟩ := Option.map_eq_some_iff.mp taken
      exact .pumpTimeout stepped
  | joinTimeout =>
      obtain ⟨prefetch, stepped, rfl⟩ := Option.map_eq_some_iff.mp taken
      exact .joinTimeout stepped
  | main => exact .body (main_advanced taken)
  | fails => exact .body (fails_advanced taken)
  | resumed => exact .body (resumed_advanced taken)
  | closed => exact .body (leave_advanced Finish.noConfusion taken)
  | thrown => exact .body (leave_advanced Finish.noConfusion taken)

end CoalescedWeights

end DgxSpark.Nvme.Coalesced

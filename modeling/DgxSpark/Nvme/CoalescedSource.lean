import Mathlib.Data.Option.Basic
import DgxSpark.Nvme.Coalesced

/-
This file says once what a step of `produce` and of its reader can do.
-/

namespace DgxSpark.Nvme.Coalesced

open Library Streaming

variable {DType : Type}

/-- A generator that ends so did not come to its end. -/
def Ending.Early : Ending → Prop
  | .completed => False
  | .failed _ => True
  | .cancelled => True

/-- `produce` is in its loop over the batches. -/
def SourcePoint.Open : SourcePoint → Prop
  | .created => False
  | .closing _ => False
  | .finished _ => False
  | .ended _ => False
  | .suspended _ => False
  | _ => True

namespace Source

/-- What a step of `produce` does. The cases follow the lines of the generator. -/
inductive Transition (call : CoalescedCall DType) (disk : Disk) (batches : List (Batch DType)) (state : Source) :
    Source → Prop where
  | made {reader : RangeReader} (point : state.point = .created) (made : call.reader = .ok reader) :
      Transition call disk batches state { state with point := .checking 0 }
  | refused (point : state.point = .created) {ending : Ending} (early : ending.Early) :
      Transition call disk batches state { state with point := .finished ending }
  | resumed {index : Nat} (point : state.point = .suspended index) :
      Transition call disk batches state { state with point := .checking (index + 1) }
  | completed {index : Nat} (point : state.point = .checking index) (last : batches[index]? = none) :
      Transition call disk batches state { state with point := .closing .completed }
  | checked {index : Nat} {batch : Batch DType} (point : state.point = .checking index)
      (found : batches[index]? = some batch) :
      Transition call disk batches state { state with point := .reserving index }
  | stopped {error : CoalescedError} (running : state.point.Open) :
      Transition call disk batches state { state with point := .closing (.failed error) }
  | cancelled {index : Nat} (point : state.point = .suspended index) :
      Transition call disk batches state { state with point := .closing .cancelled }
  | reserved {index : Nat} {batch : Batch DType} {budget : OwnedStorageBudget} (point : state.point = .reserving index)
      (found : batches[index]? = some batch)
      (reserved : state.budget.reserve state.expired batch.bytes = .ok budget) :
      Transition call disk batches state { state with
        point := .opening index
        budget := budget.track index batch.bytes
        allocated := state.allocated ++ [(index, batch.bytes)] }
  | unallocated {index : Nat} {batch : Batch DType} {budget : OwnedStorageBudget}
      (point : state.point = .reserving index)
      (reserved : state.budget.reserve state.expired batch.bytes = .ok budget) :
      Transition call disk batches state { state with point := .closing (.failed .outside), budget := budget }
  | entered {index : Nat} {batch : Batch DType} (point : state.point = .opening index)
      (found : batches[index]? = some batch) :
      Transition call disk batches state { state with point := .fencing index 0 none, path := some batch.file }
  | fenced {index position : Nat} {finalEvent : Option Nat} {batch : Batch DType} {reader : RangeReader}
      (point : state.point = .fencing index position finalEvent) (made : call.reader = .ok reader)
      (found : batches[index]? = some batch) (more : position < batch.bytes.toNat) {slot : Fin 2}
      (reached : state.uploads.Reached (state.uploads.event slot)) :
      Transition call disk batches state { state with
        point := .reading slot index position finalEvent
          ((reader.subReads (tileAt reader batch position).length).map Reading.start)
        nextSlot := state.nextSlot + 1 }
  | filled {index position : Nat} {finalEvent : Option Nat} {batch : Batch DType}
      (point : state.point = .fencing index position finalEvent) (found : batches[index]? = some batch)
      (whole : batch.bytes.toNat ≤ position) :
      Transition call disk batches state { state with point := .yielding index finalEvent }
  | received {slot : Fin 2} {index position : Nat} {finalEvent : Option Nat} {readings : List Reading}
      {batch : Batch DType} {reader : RangeReader} {path : String} {action : Nat × PreadvAnswer} {filling : Filling}
      (point : state.point = .reading slot index position finalEvent readings) (made : call.reader = .ok reader)
      (found : batches[index]? = some batch) (opened : state.path = some path)
      (taken : Filling.step (bytesAt disk path) call.direct
        (RangeReader.sourceOffset batch (tileAt reader batch position)) ⟨state.slots slot, readings, []⟩ action =
          some filling) :
      Transition call disk batches state { state with
        point := .reading slot index position finalEvent filling.readings
        slots := Function.update state.slots slot filling.bytes }
  | submitted {slot : Fin 2} {index position : Nat} {finalEvent : Option Nat} {readings : List Reading}
      {batch : Batch DType} {reader : RangeReader} {upload : Upload}
      (point : state.point = .reading slot index position finalEvent readings) (made : call.reader = .ok reader)
      (found : batches[index]? = some batch) (ended : ∀ reading ∈ readings, ¬reading.Runs)
      (fine : ∀ reading ∈ readings, reading.failure = none) (cuda : call.cuda = true)
      (same : upload = ⟨index, position, (tileAt reader batch position).length⟩) :
      Transition call disk batches state { state with
        point := .fencing index (position + reader.tileBytes) ((state.uploads.submit slot upload).event slot)
        uploads := state.uploads.submit slot upload }
  | delivered {slot : Fin 2} {index position : Nat} {finalEvent : Option Nat} {readings : List Reading}
      {batch : Batch DType} {reader : RangeReader} {upload : Upload}
      (point : state.point = .reading slot index position finalEvent readings) (made : call.reader = .ok reader)
      (found : batches[index]? = some batch) (ended : ∀ reading ∈ readings, ¬reading.Runs)
      (fine : ∀ reading ∈ readings, reading.failure = none) (host : call.cuda = false)
      (same : upload = ⟨index, position, (tileAt reader batch position).length⟩) :
      Transition call disk batches state { state with
        point := .fencing index (position + reader.tileBytes) finalEvent
        outputs := deliver state.slots state.outputs slot upload }
  | copied {slot : Fin 2} {upload : Upload} {uploads : CopyStream (Fin 2) Upload}
      (advanced : state.uploads.advance = some ((slot, upload), uploads)) :
      Transition call disk batches state { state with
        uploads := uploads
        outputs := deliver state.slots state.outputs slot upload }
  | synchronized {ending : Ending} (point : state.point = .closing ending)
      (idle : call.cuda = true → state.uploads.waiting = []) :
      Transition call disk batches state { state with point := .finished ending }
  | broken {ending : Ending} (point : state.point = .closing ending) :
      Transition call disk batches state { state with point := .finished (.failed .outside) }
  | expired {output : Nat} (below : output < state.allocated.length) (alive : output ∉ state.expired)
      (free : holds state.point ≠ some output) :
      Transition call disk batches state { state with expired := state.expired ++ [output] }

variable {call : CoalescedCall DType} {disk : Disk} {batches : List (Batch DType)} {state next : Source}

theorem resume_transition (taken : state.resume call = some next) : Transition call disk batches state next := by
  unfold resume at taken
  split at taken
  case h_1 point =>
    split at taken
    case h_1 error made =>
      cases taken
      exact .refused point trivial
    case h_2 reader made =>
      cases taken
      exact .made point made
  case h_2 index point =>
    cases taken
    exact .resumed point
  case h_3 => cases taken

theorem cancel_transition (taken : state.cancel = some next) : Transition call disk batches state next := by
  unfold cancel at taken
  split at taken
  case h_1 point =>
    cases taken
    exact .refused point trivial
  case h_2 index point =>
    cases taken
    exact .cancelled point
  case h_3 => cases taken

theorem check_transition (taken : state.check call disk batches = some next) :
    Transition call disk batches state next := by
  unfold check at taken
  split at taken
  case h_2 => cases taken
  case h_1 index point =>
    have running : state.point.Open := by
      rw [point]
      trivial
    split at taken
    case h_1 last =>
      cases taken
      exact .completed point last
    case h_2 batch found =>
      split at taken
      case h_1 =>
        cases taken
        exact .stopped running
      case h_2 =>
        cases taken
        exact .stopped running
      case h_3 file before _ _ =>
        split at taken
        case isTrue =>
          cases taken
          exact .stopped running
        case isFalse =>
          cases taken
          exact .checked point found

theorem reserve_transition {allocated : Bool} (taken : state.reserve batches allocated = some next) :
    Transition call disk batches state next := by
  unfold reserve at taken
  split at taken
  case h_2 => cases taken
  case h_1 index point =>
    obtain ⟨batch, found, taken⟩ := Option.bind_eq_some_iff.mp taken
    split at taken
    case h_1 =>
      cases taken
      exact .stopped (by rw [point]; trivial)
    case h_2 budget reserved =>
      split at taken
      case isTrue =>
        cases taken
        exact .reserved point found reserved
      case isFalse =>
        cases taken
        exact .unallocated point reserved

theorem enter_transition {opened : Bool} (taken : state.enter disk batches opened = some next) :
    Transition call disk batches state next := by
  unfold enter at taken
  split at taken
  case h_2 => cases taken
  case h_1 index point =>
    obtain ⟨batch, found, taken⟩ := Option.bind_eq_some_iff.mp taken
    split at taken
    case isTrue same =>
      cases taken
      have entered : Transition call disk batches state _ := .entered point found
      rwa [← same] at entered
    case isFalse =>
      split at taken
      case isTrue =>
        cases taken
        exact .entered point found
      case isFalse =>
        cases taken
        exact .stopped (by rw [point]; trivial)

theorem reader_toOption {reader : RangeReader} (made : call.reader.toOption = some reader) : call.reader = .ok reader := by
  cases result : call.reader with
  | error error =>
      rw [result] at made
      cases made
  | ok other =>
      rw [result] at made
      cases made
      rfl

theorem fence_transition (taken : state.fence call batches = some next) : Transition call disk batches state next := by
  unfold fence at taken
  split at taken
  case h_2 => cases taken
  case h_1 index position finalEvent point =>
    obtain ⟨reader, made, taken⟩ := Option.bind_eq_some_iff.mp taken
    obtain ⟨batch, found, taken⟩ := Option.bind_eq_some_iff.mp taken
    split at taken
    case isTrue more =>
      obtain ⟨_, reached, taken⟩ := Option.bind_eq_some_iff.mp taken
      cases taken
      exact .fenced point (reader_toOption made) found more ((Option.guard_eq_some' _).mp reached)
    case isFalse whole =>
      cases taken
      exact .filled point found (Nat.le_of_not_lt whole)

theorem preadv_transition {thread : Nat} {answer : PreadvAnswer}
    (taken : state.preadv call disk batches thread answer = some next) : Transition call disk batches state next := by
  unfold preadv at taken
  split at taken
  case h_2 => cases taken
  case h_1 slot index position finalEvent readings point =>
    obtain ⟨reader, made, taken⟩ := Option.bind_eq_some_iff.mp taken
    obtain ⟨batch, found, taken⟩ := Option.bind_eq_some_iff.mp taken
    obtain ⟨path, opened, taken⟩ := Option.bind_eq_some_iff.mp taken
    obtain ⟨filling, stepped, taken⟩ := Option.bind_eq_some_iff.mp taken
    cases taken
    exact .received point (reader_toOption made) found opened stepped

theorem collect_transition (taken : state.collect call batches = some next) :
    Transition call disk batches state next := by
  unfold collect at taken
  split at taken
  case h_2 => cases taken
  case h_1 slot index position finalEvent readings point =>
    obtain ⟨reader, made, taken⟩ := Option.bind_eq_some_iff.mp taken
    obtain ⟨batch, found, taken⟩ := Option.bind_eq_some_iff.mp taken
    obtain ⟨_, ended, taken⟩ := Option.bind_eq_some_iff.mp taken
    have ended := (Option.guard_eq_some' _).mp ended
    split at taken
    case h_1 =>
      cases taken
      exact .stopped (by rw [point]; trivial)
    case h_2 failure =>
      have fine := List.findSome?_eq_none_iff.mp failure
      split at taken
      case isTrue cuda =>
        cases taken
        exact .submitted point (reader_toOption made) found ended fine cuda rfl
      case isFalse host =>
        cases taken
        exact .delivered point (reader_toOption made) found ended fine (Bool.eq_false_of_not_eq_true host) rfl

theorem synchronize_transition {done : Bool} (taken : state.synchronize call done = some next) :
    Transition call disk batches state next := by
  unfold synchronize at taken
  split at taken
  case h_2 => cases taken
  case h_1 ending point =>
    split at taken
    case isTrue =>
      split at taken
      case isTrue => cases taken
      case isFalse idle =>
        cases taken
        refine .synchronized point fun cuda => ?_
        by_contra waits
        exact idle ⟨cuda, waits⟩
    case isFalse =>
      split at taken
      case isTrue =>
        cases taken
        exact .broken point
      case isFalse => cases taken

theorem step_transition {action : SourceAction} (taken : state.step call disk batches action = some next) :
    Transition call disk batches state next := by
  cases action with
  | resume => exact resume_transition taken
  | cancel => exact cancel_transition taken
  | check => exact check_transition taken
  | reserve allocated => exact reserve_transition taken
  | enter opened => exact enter_transition taken
  | fence => exact fence_transition taken
  | preadv thread answer => exact preadv_transition taken
  | collect => exact collect_transition taken
  | copy =>
      obtain ⟨⟨⟨slot, upload⟩, uploads⟩, advanced, taken⟩ := Option.bind_eq_some_iff.mp taken
      cases taken
      exact .copied advanced
  | synchronize done => exact synchronize_transition taken
  | expire output =>
      simp only [step, expire, Option.ite_none_right_eq_some, Option.some.injEq] at taken
      obtain ⟨⟨below, alive, free⟩, rfl⟩ := taken
      exact .expired below alive free

/-- A generator that is over stays so. -/
theorem Transition.ended (taken : Transition call disk batches state next) {ending : Ending}
    (point : state.point = .ended ending) : next.point = .ended ending := by
  cases taken with
  | stopped running =>
      rw [point] at running
      exact running.elim
  | copied advanced => exact point
  | expired => exact point
  | _ => simp_all

/-- No batch is yielded within a step. -/
theorem Transition.events (taken : Transition call disk batches state next) : next.events = state.events := by
  cases taken <;> rfl

end Source

end DgxSpark.Nvme.Coalesced

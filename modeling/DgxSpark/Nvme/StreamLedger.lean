import DgxSpark.Nvme.StreamSteps

/-
This file keeps account of the extents of a `stream` that nothing has stopped: each one taken from the list is
read in one slot, or waits in one copy, or was copied once.
-/

namespace DgxSpark.Nvme
open Library

/-- The extent that a slot is read for. -/
def ReadTask.index : ReadTask → Option Nat
  | .free => none
  | .submitted index => some index
  | .reading index _ => some index
  | .finished index _ => some index

theorem ReadTask.index_none {task : ReadTask} : task.index = none ↔ task = .free := by
  cases task <;> simp [ReadTask.index]

/-- Something was raised. -/
def StreamPoint.Failed : StreamPoint → Prop
  | .unwinding _ => True
  | .raised _ => True
  | _ => False

namespace Stream

/-- The extents of the reads under way. -/
def inFlight (depth : Nat) (tasks : Nat → ReadTask) : List Nat :=
  (List.range depth).filterMap fun slot => (tasks slot).index

theorem inFlight_update {depth slot : Nat} (tasks : Nat → ReadTask) (task : ReadTask) (below : slot < depth) :
    (inFlight depth (Function.update tasks slot task) ++ (tasks slot).index.toList).Perm
      (inFlight depth tasks ++ task.index.toList) := by
  obtain ⟨early, late, slots⟩ := List.append_of_mem (List.mem_range.mpr below)
  have once : (early ++ slot :: late).Nodup := slots ▸ List.nodup_range
  rw [List.nodup_append, List.nodup_cons] at once
  have others : ∀ part : List Nat, slot ∉ part →
      part.filterMap (fun other => (Function.update tasks slot task other).index) =
        part.filterMap fun other => (tasks other).index := by
    intro part absent
    apply List.filterMap_congr
    intro other member
    have different : other ≠ slot := by
      rintro rfl
      exact absent member
    rw [Function.update_of_ne different]
  have cut : ∀ tasks : Nat → ReadTask, inFlight depth tasks =
      early.filterMap (fun other => (tasks other).index) ++ ((tasks slot).index.toList ++
        late.filterMap fun other => (tasks other).index) := by
    intro tasks
    rw [inFlight, slots, List.filterMap_append, List.filterMap_cons]
    cases (tasks slot).index <;> rfl
  have before := others early fun member => once.2.2 slot member slot List.mem_cons_self rfl
  have after := others late once.2.1.1
  rw [cut, cut, Function.update_self, before, after]
  rw [List.perm_iff_count]
  intro index
  simp only [List.count_append]
  omega

/-- A read that goes on keeps its extent. -/
theorem inFlight_update_same {depth slot : Nat} {tasks : Nat → ReadTask} {task : ReadTask}
    (same : task.index = (tasks slot).index) : inFlight depth (Function.update tasks slot task) = inFlight depth tasks := by
  apply List.filterMap_congr
  intro other _
  by_cases here : other = slot
  · subst here
    rw [Function.update_self, same]
  · rw [Function.update_of_ne here]

variable (setup : StreamSetup) (extents : List Extent)

/-- What the main thread leaves behind at each of its points. -/
def Place (state : Stream) : StreamPoint → Prop
  | .opening => ∀ slot, state.tasks slot = .free
  | .submitting slot =>
      (∀ other, slot ≤ other → state.tasks other = .free) ∧
        (state.taken < extents.length → ∀ other < slot, state.tasks other ≠ .free)
  | .collecting => state.taken < extents.length → ∀ slot < setup.depth.toNat, state.tasks slot ≠ .free
  | .unwinding _ => True
  | .returned => state.taken = extents.length ∧ (∀ slot, state.tasks slot = .free) ∧ state.copies.waiting = []
  | .raised _ => True

/-- Each extent that was taken is in one place. -/
def Account (state : Stream) : Prop :=
  (inFlight setup.depth.toNat state.tasks ++ (state.copies.waiting.map Prod.snd ++ state.copied)).Perm
    (List.range state.taken)

structure Ledger (state : Stream) : Prop where
  bound : state.taken ≤ extents.length
  outside : ∀ slot, setup.depth.toNat ≤ slot → state.tasks slot = .free
  deep : ¬state.point.Failed → 0 < setup.depth.toNat
  place : state.Place setup extents state.point
  account : ¬state.point.Failed → state.Account setup

variable {setup extents} {weights : List UInt8} {sha256 : List UInt8 → String} {state next : Stream}

theorem submitNext_bound (bound : state.taken ≤ extents.length) (slot : Nat) :
    (Stream.submitNext extents state slot).taken ≤ extents.length := by
  unfold Stream.submitNext
  split
  case isTrue more => exact more
  case isFalse => exact bound

theorem submitNext_other {slot other : Nat} (different : other ≠ slot) :
    (Stream.submitNext extents state slot).tasks other = state.tasks other := by
  unfold Stream.submitNext
  split
  case isTrue => exact Function.update_of_ne different _ _
  case isFalse => rfl

/-- While extents are left, the slot got one. -/
theorem submitNext_left {slot : Nat} (left : (Stream.submitNext extents state slot).taken < extents.length) :
    (Stream.submitNext extents state slot).tasks slot ≠ .free ∧ state.taken < extents.length := by
  unfold Stream.submitNext at left ⊢
  split
  case isTrue more =>
    refine ⟨?_, more⟩
    show Function.update state.tasks slot (.submitted state.taken) slot ≠ .free
    rw [Function.update_self]
    exact ReadTask.noConfusion
  case isFalse none =>
    rw [if_neg none] at left
    exact absurd left none

theorem submitNext_point (slot : Nat) : (Stream.submitNext extents state slot).point = state.point := by
  unfold Stream.submitNext
  split <;> rfl

theorem submitNext_buffers (slot : Nat) : (Stream.submitNext extents state slot).buffers = state.buffers := by
  unfold Stream.submitNext
  split <;> rfl

namespace Account

/-- The next extent is taken into a free slot. -/
theorem submitNext (account : state.Account setup) {slot : Nat} (free : state.tasks slot = .free)
    (below : slot < setup.depth.toNat) : (Stream.submitNext extents state slot).Account setup := by
  unfold Stream.submitNext
  split
  case isFalse => exact account
  case isTrue =>
    have moved := inFlight_update state.tasks (.submitted state.taken) below
    rw [free] at moved
    rw [Account, List.perm_iff_count] at account ⊢
    intro index
    have here := moved.count_eq index
    have before := account index
    simp only [ReadTask.index, Option.toList, List.count_append, List.count_nil, List.range_succ] at *
    omega

/-- The extent of a slot goes to the end of the queue. -/
theorem queue (account : state.Account setup) {slot index : Nat} {failure : Option StreamError}
    (task : state.tasks slot = .finished index failure) (below : slot < setup.depth.toNat) :
    ({ state with
      tasks := Function.update state.tasks slot .free
      copies := state.copies.submit slot index } : Stream).Account setup := by
  have moved := inFlight_update state.tasks .free below
  rw [task] at moved
  rw [Account, List.perm_iff_count] at account ⊢
  intro other
  have here := moved.count_eq other
  have before := account other
  simp only [ReadTask.index, Option.toList, List.count_append, List.count_nil, CopyStream.submit, List.map_append,
    List.map_cons, List.map_nil] at *
  omega

/-- The extent of a slot is copied at once. -/
theorem deliver (account : state.Account setup) {slot index : Nat} {failure : Option StreamError} (extent : Extent)
    (task : state.tasks slot = .finished index failure) (below : slot < setup.depth.toNat) :
    (Stream.deliver { state with tasks := Function.update state.tasks slot .free } slot index extent).Account
      setup := by
  have moved := inFlight_update state.tasks .free below
  rw [task] at moved
  rw [Account, List.perm_iff_count] at account ⊢
  intro other
  have here := moved.count_eq other
  have before := account other
  simp only [ReadTask.index, Option.toList, List.count_append, List.count_nil, Stream.deliver] at *
  omega

/-- The first extent of the queue is copied. -/
theorem copy (account : state.Account setup) {slot index : Nat} (extent : Extent) {copies : CopyStream Nat Nat}
    (advanced : state.copies.advance = some ((slot, index), copies)) :
    ({ (state.deliver slot index extent) with copies := copies } : Stream).Account setup := by
  have first : state.copies.waiting = (slot, index) :: copies.waiting := (CopyStream.advance_some advanced).1
  rw [Account, List.perm_iff_count] at account ⊢
  intro other
  have before := account other
  simp only [first, List.count_append, List.map_cons, List.count_cons, List.count_nil, Stream.deliver] at *
  omega

end Account

namespace Ledger

/-- A slot that is being read is one of the slots. -/
theorem inside (ledger : state.Ledger setup extents) {slot : Nat} (task : state.tasks slot ≠ .free) :
    slot < setup.depth.toNat := by
  by_contra above
  exact task (ledger.outside slot (Nat.le_of_not_lt above))

/-- A read goes on. -/
theorem task (ledger : state.Ledger setup extents) {slot : Nat} {task : ReadTask}
    (same : task.index = (state.tasks slot).index) (under : state.tasks slot ≠ .free) (buffers : Nat → Buffer UInt8) :
    ({ state with buffers := buffers, tasks := Function.update state.tasks slot task } : Stream).Ledger setup
      extents := by
  have kept : ∀ other, Function.update state.tasks slot task other = .free ↔ state.tasks other = .free := by
    intro other
    rw [← ReadTask.index_none, ← ReadTask.index_none]
    by_cases here : other = slot
    · subst here
      rw [Function.update_self, same]
    · rw [Function.update_of_ne here]
  constructor
  · exact ledger.bound
  · intro other above
    exact (kept other).mpr (ledger.outside other above)
  · exact ledger.deep
  · have place := ledger.place
    show Place setup extents { state with buffers := buffers, tasks := Function.update state.tasks slot task } state.point
    cases point : state.point <;> rw [point] at place <;> simp only [Place, ne_eq, kept] at place ⊢ <;> exact place
  · intro live
    rw [Account, inFlight_update_same same]
    exact ledger.account live

/-- A slot whose extent has left it gets the next one. -/
theorem resubmit (ledger : state.Ledger setup extents) {freed : Stream} {slot : Nat}
    (point : state.point = .collecting) (below : slot < setup.depth.toNat)
    (same : freed.point = state.point ∧ freed.taken = state.taken) (free : freed.tasks slot = .free)
    (others : ∀ other, other ≠ slot → freed.tasks other = state.tasks other) (account : freed.Account setup) :
    (Stream.submitNext extents freed slot).Ledger setup extents := by
  have place : state.Place setup extents .collecting := point ▸ ledger.place
  have here : (Stream.submitNext extents freed slot).point = .collecting := by
    rw [submitNext_point, same.1, point]
  constructor
  · exact submitNext_bound (same.2 ▸ ledger.bound) slot
  · intro other above
    have different : other ≠ slot := by omega
    rw [submitNext_other different, others other different]
    exact ledger.outside other above
  · exact fun _ => Nat.zero_lt_of_lt below
  · rw [here]
    intro left other early
    obtain ⟨got, more⟩ := submitNext_left left
    by_cases one : other = slot
    · rwa [one]
    · rw [submitNext_other one, others other one]
      exact place (same.2 ▸ more) other early
  · exact fun _ => account.submitNext free below

theorem step (ledger : state.Ledger setup extents) (transition : Transition setup extents weights sha256 state next) :
    next.Ledger setup extents := by
  have live {point : StreamPoint} (here : state.point = point) (fine : ¬point.Failed) : state.Account setup :=
    ledger.account (here ▸ fine)
  have deep {point : StreamPoint} (here : state.point = point) (fine : ¬point.Failed) : 0 < setup.depth.toNat :=
    ledger.deep (here ▸ fine)
  have freed : ∀ slot other, setup.depth.toNat ≤ other → Function.update state.tasks slot .free other = .free := by
    intro slot other above
    rw [Function.update_apply]
    split
    case isTrue => rfl
    case isFalse => exact ledger.outside other above
  cases transition with
  | opened ok point =>
      have place : state.Place setup extents .opening := point ▸ ledger.place
      cases ok with
      | true =>
          exact ⟨ledger.bound, ledger.outside, fun _ => deep point id,
            ⟨fun other _ => place other, fun _ other below => absurd below (Nat.not_lt_zero other)⟩,
            fun _ => live point id⟩
      | false => exact ⟨ledger.bound, ledger.outside, fun fine => absurd trivial fine, trivial, fun fine => absurd trivial fine⟩
  | @submitted slot point below =>
      obtain ⟨free, busy⟩ : state.Place setup extents (.submitting slot) := point ▸ ledger.place
      constructor
      · exact submitNext_bound ledger.bound slot
      · intro other above
        exact (submitNext_other (by omega)).trans (ledger.outside other above)
      · exact fun _ => deep point id
      · refine ⟨fun other above => (submitNext_other (by omega)).trans (free other (by omega)), ?_⟩
        intro left other early
        obtain ⟨here, more⟩ := submitNext_left left
        by_cases same : other = slot
        · rwa [same]
        · intro none
          exact busy more other (by omega) ((submitNext_other same).symm.trans none)
      · exact fun _ => (live point id).submitNext (free slot le_rfl) below
  | @filled slot point above =>
      obtain ⟨_, busy⟩ : state.Place setup extents (.submitting slot) := point ▸ ledger.place
      exact ⟨ledger.bound, ledger.outside, fun _ => deep point id,
        fun left other early => busy left other (by omega), fun _ => live point id⟩
  | @woken slot index extent task found reached =>
      refine ledger.task ?_ (by simp [task]) state.buffers
      rw [task]
      split <;> rfl
  | @received slot index done n reopens extent task found legal =>
      exact ledger.task (by rw [task]; rfl) (by simp [task]) _
  | failed task => exact ledger.task (by rw [task]; rfl) (by simp [task]) state.buffers
  | verified task found whole same => exact ledger.task (by rw [task]; rfl) (by simp [task]) state.buffers
  | @refused slot index failure error point task =>
      exact ⟨ledger.bound, freed slot, fun fine => absurd trivial fine, trivial, fun fine => absurd trivial fine⟩
  | @queued slot index extent point below task found view =>
      exact ledger.resubmit point below ⟨rfl, rfl⟩ (Function.update_self ..)
        (fun other different => Function.update_of_ne different ..) ((live point id).queue task below)
  | @delivered slot index extent point below task found view =>
      exact ledger.resubmit point below ⟨rfl, rfl⟩ (Function.update_self ..)
        (fun other different => Function.update_of_ne different ..) ((live point id).deliver extent task below)
  | @copied slot index extent copies advanced found =>
      have first : state.copies.waiting = (slot, index) :: copies.waiting := (CopyStream.advance_some advanced).1
      refine ⟨ledger.bound, ledger.outside, ledger.deep, ?_, fun fine => (ledger.account fine).copy extent advanced⟩
      have place := ledger.place
      show Place setup extents { (state.deliver slot index extent) with copies := copies } state.point
      cases point : state.point with
      | returned =>
          rw [point] at place
          exact absurd (first.symm.trans place.2.2) (List.cons_ne_nil _ _)
      | opening => exact (point ▸ place :)
      | submitting => exact (point ▸ place :)
      | collecting => exact (point ▸ place :)
      | unwinding => trivial
      | raised => trivial
  | returned point free idle =>
      have place : state.Place setup extents .collecting := point ▸ ledger.place
      have whole : state.taken = extents.length := by
        by_contra less
        exact place (by have := ledger.bound; omega) 0 (deep point id) (free 0 (deep point id))
      have none : ∀ slot, state.tasks slot = .free := by
        intro slot
        by_cases below : slot < setup.depth.toNat
        · exact free slot below
        · exact ledger.outside slot (Nat.le_of_not_lt below)
      exact ⟨ledger.bound, ledger.outside, fun _ => deep point id, ⟨whole, none, idle⟩, fun _ => live point id⟩
  | raised point =>
      exact ⟨ledger.bound, ledger.outside, fun fine => absurd trivial fine, trivial, fun fine => absurd trivial fine⟩

end Ledger

end Stream

end DgxSpark.Nvme

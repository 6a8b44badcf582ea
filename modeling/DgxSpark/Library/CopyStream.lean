import Mathlib.Logic.Function.Basic
import Mathlib.Data.List.Basic

/-
This file models copies that a device makes in the order of their submission, and the events that tell when the
copies out of a source are over.
-/

namespace DgxSpark.Library

/-- The copies that wait, how many are over, and for each source the number of copies its last event waits for. -/
structure CopyStream (Source Job : Type) where
  waiting : List (Source × Job)
  completed : Nat
  event : Source → Option Nat

namespace CopyStream

variable {Source Job : Type}

def idle : CopyStream Source Job := ⟨[], 0, fun _ => none⟩

/-- The copies that were ever submitted. -/
def submitted (stream : CopyStream Source Job) : Nat := stream.completed + stream.waiting.length

/-- A copy out of a source and an event behind it. -/
def submit [DecidableEq Source] (stream : CopyStream Source Job) (source : Source) (job : Job) :
    CopyStream Source Job where
  waiting := stream.waiting ++ [(source, job)]
  completed := stream.completed
  event := Function.update stream.event source (some (stream.submitted + 1))

/-- The device makes the copy that has waited longest. -/
def advance (stream : CopyStream Source Job) : Option ((Source × Job) × CopyStream Source Job) :=
  match stream.waiting with
  | [] => none
  | head :: rest => some (head, ⟨rest, stream.completed + 1, stream.event⟩)

/-- An event is over when the copies before it are. -/
def Reached (stream : CopyStream Source Job) (event : Option Nat) : Prop := ∀ count, event = some count → count ≤ stream.completed

instance (stream : CopyStream Source Job) (event : Option Nat) : Decidable (stream.Reached event) :=
  match event with
  | none => .isTrue nofun
  | some count => decidable_of_iff (count ≤ stream.completed) (by simp [Reached])

/-- Behind every copy that waits there is an event of its source. -/
def Fenced (stream : CopyStream Source Job) : Prop :=
  ∀ place entry, stream.waiting[place]? = some entry →
    ∃ count, stream.event entry.1 = some count ∧ stream.completed + place < count

theorem fenced_idle : (idle : CopyStream Source Job).Fenced := by
  intro place entry found
  cases found

theorem Fenced.submit [DecidableEq Source] {stream : CopyStream Source Job} (fenced : stream.Fenced) (source : Source)
    (job : Job) : (stream.submit source job).Fenced := by
  intro place entry found
  have bound : place < stream.waiting.length + 1 := by
    have inside := (List.getElem?_eq_some_iff.mp found).1
    simpa [CopyStream.submit] using inside
  show ∃ count, Function.update stream.event source (some (stream.submitted + 1)) entry.1 = some count ∧
    stream.completed + place < count
  by_cases here : entry.1 = source
  · refine ⟨stream.submitted + 1, by rw [here, Function.update_self], ?_⟩
    rw [submitted]
    omega
  · have earlier : place < stream.waiting.length := by
      by_contra late
      have last : place = stream.waiting.length := by omega
      subst last
      simp only [CopyStream.submit, List.getElem?_concat_length, Option.some.injEq] at found
      exact here (found ▸ rfl)
    have old : stream.waiting[place]? = some entry := (List.getElem?_append_left earlier).symm.trans found
    rw [Function.update_of_ne here]
    exact fenced place entry old

theorem Fenced.advance {stream next : CopyStream Source Job} {head : Source × Job} (fenced : stream.Fenced)
    (advanced : stream.advance = some (head, next)) : next.Fenced := by
  unfold CopyStream.advance at advanced
  split at advanced
  · cases advanced
  case h_2 first rest waits =>
    cases advanced
    intro place entry found
    obtain ⟨count, event, later⟩ := fenced (place + 1) entry (by rw [waits]; exact found)
    refine ⟨count, event, ?_⟩
    show stream.completed + 1 + place < count
    omega

/-- Once the event of a source is over, no copy out of it waits. -/
theorem Fenced.free {stream : CopyStream Source Job} (fenced : stream.Fenced) {source : Source}
    (reached : stream.Reached (stream.event source)) {entry : Source × Job} (waits : entry ∈ stream.waiting) :
    entry.1 ≠ source := by
  rintro rfl
  obtain ⟨place, found⟩ := List.mem_iff_getElem?.mp waits
  obtain ⟨count, event, later⟩ := fenced place entry found
  have done := reached count event
  omega

theorem advance_some {stream next : CopyStream Source Job} {head : Source × Job}
    (advanced : stream.advance = some (head, next)) :
    stream.waiting = head :: next.waiting ∧ next.completed = stream.completed + 1 ∧ next.event = stream.event := by
  unfold CopyStream.advance at advanced
  split at advanced
  · cases advanced
  case h_2 first rest waits =>
    cases advanced
    exact ⟨waits, rfl, rfl⟩

/-- The event is behind the copies of a kind that wait. -/
def Awaits (stream : CopyStream Source Job) (event : Option Nat) (kind : Source × Job → Prop) : Prop :=
  ∀ place entry, stream.waiting[place]? = some entry → kind entry →
    ∃ count, event = some count ∧ stream.completed + place < count

theorem awaits_none {stream : CopyStream Source Job} {kind : Source × Job → Prop}
    (none : ∀ entry ∈ stream.waiting, ¬kind entry) (event : Option Nat) : stream.Awaits event kind := by
  intro place entry found here
  exact absurd here (none entry (List.mem_of_getElem? found))

/-- The event behind a copy is behind all copies that wait with it. -/
theorem awaits_submit [DecidableEq Source] (stream : CopyStream Source Job) (source : Source) (job : Job)
    (kind : Source × Job → Prop) :
    (stream.submit source job).Awaits ((stream.submit source job).event source) kind := by
  intro place entry found _
  have bound := (List.getElem?_eq_some_iff.mp found).1
  simp only [CopyStream.submit, List.length_append, List.length_singleton] at bound
  refine ⟨stream.submitted + 1, Function.update_self .., ?_⟩
  show stream.completed + place < stream.completed + stream.waiting.length + 1
  omega

/-- A copy of another kind leaves the event where it is. -/
theorem Awaits.submit [DecidableEq Source] {stream : CopyStream Source Job} {event : Option Nat}
    {kind : Source × Job → Prop} (awaits : stream.Awaits event kind) {source : Source} {job : Job}
    (other : ¬kind (source, job)) : (stream.submit source job).Awaits event kind := by
  intro place entry found here
  by_cases earlier : place < stream.waiting.length
  · exact awaits place entry ((List.getElem?_append_left earlier).symm.trans found) here
  · have last : entry ∈ [(source, job)] := by
      refine List.mem_of_getElem? ((List.getElem?_append_right (Nat.le_of_not_lt earlier)).symm.trans found)
    rw [List.mem_singleton.mp last] at here
    exact absurd here other

theorem Awaits.advance {stream next : CopyStream Source Job} {head : Source × Job} {event : Option Nat}
    {kind : Source × Job → Prop} (awaits : stream.Awaits event kind) (advanced : stream.advance = some (head, next)) :
    next.Awaits event kind := by
  obtain ⟨waits, completed, _⟩ := advance_some advanced
  intro place entry found here
  obtain ⟨count, same, later⟩ := awaits (place + 1) entry (by rw [waits]; exact found) here
  exact ⟨count, same, by omega⟩

/-- Once the event is over, no copy of the kind waits. -/
theorem Awaits.free {stream : CopyStream Source Job} {event : Option Nat} {kind : Source × Job → Prop}
    (awaits : stream.Awaits event kind) (reached : stream.Reached event) {entry : Source × Job}
    (waits : entry ∈ stream.waiting) : ¬kind entry := by
  intro here
  obtain ⟨place, found⟩ := List.mem_iff_getElem?.mp waits
  obtain ⟨count, same, later⟩ := awaits place entry found here
  have done := reached count same
  omega

/-- No event is behind more copies than there were. -/
def Bounded (stream : CopyStream Source Job) : Prop :=
  ∀ source count, stream.event source = some count → count ≤ stream.submitted

theorem bounded_idle : (idle : CopyStream Source Job).Bounded := by
  intro source count event
  cases event

theorem Bounded.submit [DecidableEq Source] {stream : CopyStream Source Job} (bounded : stream.Bounded)
    (source : Source) (job : Job) : (stream.submit source job).Bounded := by
  have more : (stream.submit source job).submitted = stream.submitted + 1 := by
    simp only [submitted, CopyStream.submit, List.length_append, List.length_singleton]
    omega
  intro other count event
  rw [more]
  simp only [CopyStream.submit, Function.update_apply] at event
  split at event
  case isTrue =>
    have same := Option.some.inj event
    omega
  case isFalse =>
    have bound := bounded other count event
    omega

theorem Bounded.advance {stream next : CopyStream Source Job} {head : Source × Job} (bounded : stream.Bounded)
    (advanced : stream.advance = some (head, next)) : next.Bounded := by
  obtain ⟨waits, completed, events⟩ := advance_some advanced
  have same : next.submitted = stream.submitted := by
    simp only [submitted, completed, waits, List.length_cons]
    omega
  intro source count event
  rw [same]
  exact bounded source count (events ▸ event)

/-- While an event is not over, some copy waits. -/
theorem Bounded.waits {stream : CopyStream Source Job} (bounded : stream.Bounded) {source : Source}
    (early : ¬stream.Reached (stream.event source)) : stream.waiting ≠ [] := by
  intro none
  refine early fun count event => ?_
  have bound := bounded source count event
  rw [submitted, none] at bound
  exact bound

end CopyStream

end DgxSpark.Library

import DgxSpark.Nvme.Restore

/-
This file says once what a step of `stream` does, and shows that only verified bytes are copied out of the slots.
-/

namespace DgxSpark.Nvme
open Library

/-- The bytes of the file that belong to an extent. -/
def Extent.bytes (extent : Extent) (weights : List UInt8) : List UInt8 :=
  (weights.drop extent.offset.toNat).take extent.length.toNat

namespace Stream

variable (setup : StreamSetup) (extents : List Extent) (weights : List UInt8) (sha256 : List UInt8 → String)

/-- What a step of `stream` can do. -/
inductive Transition (state : Stream) : Stream → Prop
  | opened (ok : Bool) (point : state.point = .opening) :
      Transition state { state with point := if ok then .submitting 0 else .raised .os }
  | submitted {slot : Nat} (point : state.point = .submitting slot) (below : slot < setup.depth.toNat) :
      Transition state { (submitNext extents state slot) with point := .submitting (slot + 1) }
  | filled {slot : Nat} (point : state.point = .submitting slot) (above : ¬slot < setup.depth.toNat) :
      Transition state { state with point := .collecting }
  | woken {slot index : Nat} {extent : Extent} (task : state.tasks slot = .submitted index)
      (found : extents[index]? = some extent) (reached : state.copies.Reached (state.copies.event slot)) :
      Transition state { state with
        tasks := Function.update state.tasks slot
          (if checkExtent setup extent then .reading index 0
          else .finished index (some (.value "invalid aligned extent"))) }
  | received {slot index done n : Nat} {reopens : Bool} {extent : Extent}
      (task : state.tasks slot = .reading index done) (found : extents[index]? = some extent)
      (legal : (preadvCall setup extent done).Legal weights (.count (n + 1) reopens)) :
      Transition state { state with
        buffers := Function.update state.buffers slot
          (Filling.received (state.buffers slot) weights (preadvCall setup extent done) (.count (n + 1) reopens))
        tasks := Function.update state.tasks slot (.reading index (done + (n + 1))) }
  | failed {slot index done : Nat} {error : StreamError} (task : state.tasks slot = .reading index done) :
      Transition state { state with tasks := Function.update state.tasks slot (.finished index (some error)) }
  | verified {slot index done : Nat} {extent : Extent} (task : state.tasks slot = .reading index done)
      (found : extents[index]? = some extent) (whole : align extent.length ≤ done)
      (same : sha256 (state.data slot extent) = extent.digest) :
      Transition state { state with tasks := Function.update state.tasks slot (.finished index none) }
  | refused {slot index : Nat} {failure : Option StreamError} {error : StreamError} (point : state.point = .collecting)
      (task : state.tasks slot = .finished index failure) :
      Transition state { state with tasks := Function.update state.tasks slot .free, point := .unwinding error }
  | queued {slot index : Nat} {extent : Extent} (point : state.point = .collecting) (below : slot < setup.depth.toNat)
      (task : state.tasks slot = .finished index none) (found : extents[index]? = some extent)
      (view : extent.destination.numel = extent.length) :
      Transition state (submitNext extents { state with
        tasks := Function.update state.tasks slot .free
        copies := state.copies.submit slot index } slot)
  | delivered {slot index : Nat} {extent : Extent} (point : state.point = .collecting)
      (below : slot < setup.depth.toNat) (task : state.tasks slot = .finished index none)
      (found : extents[index]? = some extent) (view : extent.destination.numel = extent.length) :
      Transition state (submitNext extents (deliver { state with tasks := Function.update state.tasks slot .free }
        slot index extent) slot)
  | copied {slot index : Nat} {extent : Extent} {copies : CopyStream Nat Nat}
      (advanced : state.copies.advance = some ((slot, index), copies)) (found : extents[index]? = some extent) :
      Transition state { (state.deliver slot index extent) with copies := copies }
  | returned (point : state.point = .collecting) (free : ∀ slot < setup.depth.toNat, state.tasks slot = .free)
      (idle : state.copies.waiting = []) : Transition state { state with point := .returned }
  | raised {error : StreamError} (point : state.point = .unwinding error) :
      Transition state { state with point := .raised error }

variable {setup extents weights sha256} {state next : Stream}

/-- A call that gives nothing leaves the slot as it was. -/
theorem received_nothing (buffer : Buffer UInt8) (call : PreadvCall) (reopens : Bool) :
    Filling.received buffer weights call (.count 0 reopens) = buffer := by
  simp [Filling.received]

/-- Every step is one of these. -/
theorem step_transition {action : StreamAction}
    (taken : step setup extents weights sha256 state action = some next) :
    Transition setup extents weights sha256 state next := by
  cases action with
  | opened ok =>
      simp only [step, Option.ite_none_right_eq_some, Option.some.injEq] at taken
      obtain ⟨point, rfl⟩ := taken
      exact .opened ok point
  | submit =>
      simp only [step] at taken
      split at taken
      case h_1 slot point =>
        split at taken
        case isTrue below =>
          cases taken
          exact .submitted point below
        case isFalse above =>
          cases taken
          exact .filled point above
      case h_2 => cases taken
  | wake slot =>
      simp only [step] at taken
      split at taken
      case h_1 index task =>
        simp only [Option.bind_eq_bind, Option.bind_eq_some_iff, Option.guard_eq_some'] at taken
        obtain ⟨extent, found, _, reached, same⟩ := taken
        cases same
        exact .woken task found reached
      case h_2 => cases taken
  | preadv slot answer =>
      simp only [step] at taken
      split at taken
      case h_1 index done task =>
        simp only [Option.bind_eq_bind, Option.bind_eq_some_iff, Option.guard_eq_some'] at taken
        obtain ⟨extent, found, _, ⟨_, legal⟩, same⟩ := taken
        cases same
        match answer with
        | .raised =>
            simp only [Filling.received, Function.update_eq_self]
            exact .failed task
        | .count 0 reopens =>
            simp only [received_nothing, Function.update_eq_self]
            exact .failed task
        | .count (n + 1) reopens => exact .received task found legal
      case h_2 => cases taken
  | hash slot =>
      simp only [step] at taken
      split at taken
      case h_1 index done task =>
        simp only [Option.bind_eq_bind, Option.bind_eq_some_iff, Option.guard_eq_some'] at taken
        obtain ⟨extent, found, _, whole, same⟩ := taken
        cases same
        split
        case isTrue => exact .failed task
        case isFalse same => exact .verified task found whole (not_not.mp same)
      case h_2 => cases taken
  | collect slot =>
      simp only [step] at taken
      split at taken
      case h_1 index failure point task =>
        simp only [Option.bind_eq_bind, Option.bind_eq_some_iff, Option.guard_eq_some'] at taken
        obtain ⟨_, below, extent, found, same⟩ := taken
        match failure with
        | some error =>
            cases same
            exact .refused point task
        | none =>
            cases same
            unfold accept
            split
            case isTrue => exact .refused point task
            case isFalse view =>
              split
              case isTrue => exact .refused point task
              case isFalse =>
                split
                case isTrue => exact .queued point below task found (not_not.mp view)
                case isFalse => exact .delivered point below task found (not_not.mp view)
      case h_2 => cases taken
  | copy =>
      simp only [step, Option.bind_eq_bind, Option.bind_eq_some_iff] at taken
      obtain ⟨⟨⟨slot, index⟩, copies⟩, advanced, extent, found, same⟩ := taken
      cases same
      exact .copied advanced found
  | unwind =>
      simp only [step] at taken
      split at taken
      case h_1 point =>
        simp only [Option.ite_none_right_eq_some, Option.some.injEq] at taken
        obtain ⟨⟨free, idle⟩, rfl⟩ := taken
        exact .returned point free idle
      case h_2 error point =>
        simp only [Option.ite_none_right_eq_some, Option.some.injEq] at taken
        obtain ⟨_, rfl⟩ := taken
        exact .raised point
      case h_3 => cases taken

/-- The slot holds an extent whose bytes have the digest. -/
def Staged (extents : List Extent) (weights : List UInt8) (sha256 : List UInt8 → String) (buffer : Buffer UInt8)
    (index : Nat) : Prop :=
  ∃ extent, extents[index]? = some extent ∧ buffer.read 0 extent.length.toNat = extent.bytes weights ∧
    sha256 (extent.bytes weights) = extent.digest

/-- What a slot holds for its read. While it is read, no copy out of it waits. -/
def Held (extents : List Extent) (weights : List UInt8) (sha256 : List UInt8 → String) (buffer : Buffer UInt8)
    (clear : Prop) : ReadTask → Prop
  | .free => True
  | .submitted _ => True
  | .reading index done =>
      clear ∧ ∃ extent, extents[index]? = some extent ∧ buffer.Holds 0 weights extent.offset.toNat done
  | .finished _ (some _) => True
  | .finished index none => clear ∧ Staged extents weights sha256 buffer index

theorem Held.mono {buffer : Buffer UInt8} {clear other : Prop} {task : ReadTask}
    (held : Held extents weights sha256 buffer clear task) (keeps : clear → other) :
    Held extents weights sha256 buffer other task := by
  match task, held with
  | .free, _ => trivial
  | .submitted _, _ => trivial
  | .reading _ _, held => exact ⟨keeps held.1, held.2⟩
  | .finished _ (some _), _ => trivial
  | .finished _ none, held => exact ⟨keeps held.1, held.2⟩

/-- No copy out of the slot waits. -/
def Clear (state : Stream) (slot : Nat) : Prop := ∀ entry ∈ state.copies.waiting, entry.1 ≠ slot

/-- The extents that were copied, in order. -/
def written (extents : List Extent) (state : Stream) : List Extent := state.copied.filterMap (extents[·]?)

/-- The bytes of an extent in their place. -/
def put (weights : List UInt8) (memory : Nat → Buffer UInt8) (extent : Extent) : Nat → Buffer UInt8 :=
  Function.update memory extent.destination.storage
    ((memory extent.destination.storage).write extent.destination.start (extent.bytes weights))

/-- Only verified bytes leave the slots. -/
structure Honest (extents : List Extent) (weights : List UInt8) (sha256 : List UInt8 → String)
    (before : Nat → Buffer UInt8) (state : Stream) : Prop where
  fenced : state.copies.Fenced
  held : ∀ slot, Held extents weights sha256 (state.buffers slot) (state.Clear slot) (state.tasks slot)
  waiting : ∀ slot index, (slot, index) ∈ state.copies.waiting →
    Staged extents weights sha256 (state.buffers slot) index
  memory : state.memory = (state.written extents).foldl (put weights) before
  verified : ∀ extent ∈ state.written extents, sha256 (extent.bytes weights) = extent.digest

variable {before : Nat → Buffer UInt8}

namespace Honest

/-- Where the main thread stands does not matter. -/
theorem point (honest : state.Honest extents weights sha256 before) (point : StreamPoint) (taken : Nat) :
    ({ state with point := point, taken := taken } : Stream).Honest extents weights sha256 before :=
  ⟨honest.fenced, honest.held, honest.waiting, honest.memory, honest.verified⟩

theorem task (honest : state.Honest extents weights sha256 before) (slot : Nat) (task : ReadTask)
    (held : Held extents weights sha256 (state.buffers slot) (state.Clear slot) task) :
    ({ state with tasks := Function.update state.tasks slot task } : Stream).Honest extents weights sha256 before where
  fenced := honest.fenced
  held other := by
    show Held extents weights sha256 (state.buffers other) (state.Clear other) (Function.update state.tasks slot task other)
    by_cases here : other = slot
    · subst here
      rwa [Function.update_self]
    · rw [Function.update_of_ne here]
      exact honest.held other
  waiting := honest.waiting
  memory := honest.memory
  verified := honest.verified

theorem submitNext (honest : state.Honest extents weights sha256 before) (slot : Nat) :
    (Stream.submitNext extents state slot).Honest extents weights sha256 before := by
  unfold Stream.submitNext
  split
  case isTrue => exact (honest.task slot (.submitted state.taken) trivial).point state.point (state.taken + 1)
  case isFalse => exact honest

/-- A verified extent goes to its place. -/
theorem deliver (honest : state.Honest extents weights sha256 before) {slot index : Nat} {extent : Extent}
    (staged : Staged extents weights sha256 (state.buffers slot) index) (found : extents[index]? = some extent) :
    (state.deliver slot index extent).Honest extents weights sha256 before := by
  obtain ⟨same, found', read, digest⟩ := staged
  cases found.symm.trans found'
  have more : (state.deliver slot index extent).written extents = state.written extents ++ [extent] := by
    simp [written, Stream.deliver, List.filterMap_append, found]
  constructor
  · exact honest.fenced
  · exact honest.held
  · exact honest.waiting
  · rw [more, List.foldl_append, ← honest.memory]
    show Function.update state.memory _ ((state.memory _).write _ (state.data slot extent)) = _
    rw [data, read]
    rfl
  · rw [more]
    intro other member
    rcases List.mem_append.mp member with old | new
    · exact honest.verified other old
    · rw [List.mem_singleton.mp new]
      exact digest

/-- A copy out of a slot whose read is over, and verified, is queued. -/
theorem queue (honest : state.Honest extents weights sha256 before) {slot index : Nat}
    (task : state.tasks slot = .finished index none) :
    ({ state with
      tasks := Function.update state.tasks slot .free
      copies := state.copies.submit slot index } : Stream).Honest extents weights sha256 before := by
  have staged : Staged extents weights sha256 (state.buffers slot) index := by
    have held := honest.held slot
    rw [task] at held
    exact held.2
  constructor
  · exact honest.fenced.submit slot index
  · intro other
    show Held extents weights sha256 (state.buffers other) _ (Function.update state.tasks slot .free other)
    by_cases here : other = slot
    · subst here
      rw [Function.update_self]
      trivial
    · rw [Function.update_of_ne here]
      refine (honest.held other).mono fun clear entry member => ?_
      rcases List.mem_append.mp member with old | new
      · exact clear entry old
      · rw [List.mem_singleton.mp new]
        exact Ne.symm here
  · intro other place member
    rcases List.mem_append.mp member with old | new
    · exact honest.waiting other place old
    · cases List.mem_singleton.mp new
      exact staged
  · exact honest.memory
  · exact honest.verified

/-- The copy that has waited longest is made. -/
theorem copy (honest : state.Honest extents weights sha256 before) {slot index : Nat} {extent : Extent}
    {copies : CopyStream Nat Nat} (advanced : state.copies.advance = some ((slot, index), copies))
    (found : extents[index]? = some extent) :
    ({ (state.deliver slot index extent) with copies := copies } : Stream).Honest extents weights sha256 before := by
  have first : state.copies.waiting = (slot, index) :: copies.waiting := (CopyStream.advance_some advanced).1
  have fewer : ∀ entry ∈ copies.waiting, entry ∈ state.copies.waiting := by
    intro entry member
    rw [first]
    exact List.mem_cons_of_mem _ member
  have staged : Staged extents weights sha256 (state.buffers slot) index :=
    honest.waiting slot index (first ▸ List.mem_cons_self)
  have delivered := honest.deliver staged found
  constructor
  · exact honest.fenced.advance advanced
  · intro other
    exact (honest.held other).mono fun clear entry member => clear entry (fewer entry member)
  · intro other place member
    exact honest.waiting other place (fewer _ member)
  · exact delivered.memory
  · exact delivered.verified

/-- A slot without waiting copies receives more of its extent. -/
theorem receive (honest : state.Honest extents weights sha256 before) {slot index done n : Nat} {reopens : Bool}
    {extent : Extent} (task : state.tasks slot = .reading index done) (found : extents[index]? = some extent)
    (placed : 0 ≤ extent.offset)
    (legal : (preadvCall setup extent done).Legal weights (.count (n + 1) reopens)) :
    ({ state with
      buffers := Function.update state.buffers slot
        (Filling.received (state.buffers slot) weights (preadvCall setup extent done) (.count (n + 1) reopens))
      tasks := Function.update state.tasks slot (.reading index (done + (n + 1))) } : Stream).Honest extents weights
      sha256 before := by
  obtain ⟨clear, same, found', holds⟩ : Held extents weights sha256 (state.buffers slot) (state.Clear slot)
      (.reading index done) := task ▸ honest.held slot
  cases found.symm.trans found'
  have offset : (extent.offset + done).toNat = extent.offset.toNat + done := by omega
  have inside : extent.offset.toNat + done + (n + 1) ≤ weights.length := by
    have end' := legal.2.1 (Nat.succ_ne_zero n)
    rwa [preadvCall, offset] at end'
  have more := holds.extend inside
  rw [← offset, Nat.zero_add] at more
  constructor
  · exact honest.fenced
  · intro other
    show Held extents weights sha256 (Function.update state.buffers slot _ other) (state.Clear other)
      (Function.update state.tasks slot _ other)
    by_cases here : other = slot
    · subst here
      rw [Function.update_self, Function.update_self]
      exact ⟨clear, extent, found, more⟩
    · rw [Function.update_of_ne here, Function.update_of_ne here]
      exact honest.held other
  · intro other place member
    show Staged extents weights sha256 (Function.update state.buffers slot _ other) place
    rw [Function.update_of_ne (clear _ member)]
    exact honest.waiting other place member
  · exact honest.memory
  · exact honest.verified

theorem step (honest : state.Honest extents weights sha256 before) (placed : ∀ extent ∈ extents, 0 ≤ extent.offset)
    (transition : Transition setup extents weights sha256 state next) : next.Honest extents weights sha256 before := by
  cases transition with
  | opened ok point => exact honest.point _ state.taken
  | @submitted slot point below => exact (honest.submitNext slot).point _ _
  | filled point above => exact honest.point _ state.taken
  | @woken slot index extent task found reached =>
      apply honest.task
      split
      case isTrue =>
        have clear : state.Clear slot := fun entry member => honest.fenced.free reached member
        exact ⟨clear, extent, found, Buffer.holds_zero _ _ _ _⟩
      case isFalse => trivial
  | received task found legal => exact honest.receive task found (placed _ (List.mem_of_getElem? found)) legal
  | failed task => exact honest.task _ _ trivial
  | @verified slot index done extent task found whole same =>
      obtain ⟨clear, same', found', holds⟩ : Held extents weights sha256 (state.buffers slot) (state.Clear slot)
          (.reading index done) := task ▸ honest.held slot
      cases found.symm.trans found'
      have enough : extent.length.toNat ≤ done := by
        have rounded : extent.length ≤ align extent.length := by
          simp only [align, ALIGN]
          omega
        omega
      have read : (state.buffers slot).read 0 extent.length.toNat = extent.bytes weights :=
        Buffer.Holds.read fun cell below => holds cell (below.trans_le enough)
      exact honest.task slot _ ⟨clear, extent, found, read, (congrArg sha256 read).symm.trans same⟩
  | @refused slot index failure error point task =>
      exact (honest.task slot .free trivial).point (.unwinding error) state.taken
  | @queued slot index extent point below task found view => exact (honest.queue task).submitNext slot
  | @delivered slot index extent point below task found view =>
      have staged : Staged extents weights sha256 (state.buffers slot) index := by
        have held := honest.held slot
        rw [task] at held
        exact held.2
      have freed := honest.task slot .free trivial
      exact (@deliver _ _ _ _ _ freed slot index extent staged found).submitNext slot
  | copied advanced found => exact honest.copy advanced found
  | returned point free idle => exact honest.point _ state.taken
  | raised point => exact honest.point _ state.taken

end Honest

end Stream

end DgxSpark.Nvme

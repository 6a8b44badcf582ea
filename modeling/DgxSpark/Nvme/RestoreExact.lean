import DgxSpark.Nvme.StreamLedger

/-
This file shows that `restore` writes each byte of the storages once, with its byte of the file, and only after
the digest of its chunk was checked.
-/

namespace DgxSpark.Nvme
open Library

/-- The chunk makes this byte of the storage. -/
def Chunk.Covers (chunk : Chunk) (storage cell : Nat) : Prop :=
  chunk.storage = storage ∧ chunk.start ≤ cell ∧ cell < chunk.start + chunk.length

instance (chunk : Chunk) (storage cell : Nat) : Decidable (chunk.Covers storage cell) :=
  inferInstanceAs (Decidable (_ ∧ _))

/-- Where the file has the byte. -/
def Chunk.source (chunk : Chunk) (cell : Nat) : Nat := (chunk.offset + (cell - chunk.start)).toNat

/-- The bytes of the file that belong to a chunk. -/
def Chunk.bytes (chunk : Chunk) (weights : List UInt8) : List UInt8 :=
  (weights.drop chunk.offset.toNat).take chunk.length.toNat

/-- The copy of the extent writes this byte of the storage. -/
def Extent.Covers (extent : Extent) (storage cell : Nat) : Prop :=
  extent.destination.storage = storage ∧ extent.destination.start ≤ cell ∧
    cell < extent.destination.start + extent.destination.numel

instance (extent : Extent) (storage cell : Nat) : Decidable (extent.Covers storage cell) :=
  inferInstanceAs (Decidable (_ ∧ _))

section Coverage

variable {Contract Schema State : Type} {m : Manifest Contract Schema State} {size : Nat}

theorem coveredOf_nonneg {chunks : List Chunk} (positive : ∀ chunk ∈ chunks, 0 < chunk.length) (storage : Int) :
    0 ≤ coveredOf chunks storage := by
  apply List.sum_nonneg
  intro length member
  obtain ⟨chunk, inside, rfl⟩ := List.mem_map.mp member
  exact (positive chunk (List.mem_of_mem_filter inside)).le

theorem alignedOf_nonneg {chunks : List Chunk} (positive : ∀ chunk ∈ chunks, 0 < chunk.length) :
    0 ≤ alignedOf chunks := by
  apply List.sum_nonneg
  intro length member
  obtain ⟨chunk, inside, rfl⟩ := List.mem_map.mp member
  have here := positive chunk inside
  simp only [align, ALIGN]
  omega

theorem Manifest.Covered.positive (covered : m.Covered size) : ∀ chunk ∈ m.chunks, 0 < chunk.length := by
  intro chunk member
  obtain ⟨before, after, cut⟩ := List.append_of_mem member
  exact (covered.follows before chunk after cut).length.1

/-- A byte before the cursor of its storage is in one chunk, and a byte behind it in none. -/
theorem countP_covers {chunkBytes : Int} {storages : Nat} (storage cell : Nat) (chunks : List Chunk)
    (follows : ∀ before chunk after, chunks = before ++ chunk :: after → chunk.Follows chunkBytes storages before) :
    chunks.countP (fun chunk => chunk.Covers storage cell) = if (cell : Int) < coveredOf chunks storage then 1 else 0 := by
  induction chunks using List.reverseRecOn with
  | nil => simp [coveredOf]
  | append_singleton early last ih =>
      have here := follows early last [] rfl
      have before := ih fun before chunk after cut =>
        follows before chunk (after ++ [last]) (by rw [cut, List.append_assoc, List.cons_append])
      have length := here.length.1
      rw [List.countP_append, before, coveredOf_append, List.countP_singleton]
      by_cases same : last.storage = storage
      · have start : last.start = coveredOf early storage := same ▸ here.start
        have own : coveredOf [last] storage = last.length := by simp [coveredOf, same]
        simp only [Chunk.Covers, same, true_and, own, start, decide_eq_true_eq]
        split <;> split <;> split <;> omega
      · have none : coveredOf [last] storage = 0 := by simp [coveredOf, same]
        simp only [Chunk.Covers, same, false_and, none, decide_false, Bool.false_eq_true, if_false, Int.add_zero,
          Nat.add_zero]

/-- A chunk lies in its storage and in the file, so its slice of the storage is whole. -/
theorem Manifest.Covered.placed (covered : m.Covered size) {storages : List Storage}
    (sizes : storages.map (fun storage => (storage.numel : Int)) = m.storageBytes) {chunk : Chunk}
    (member : chunk ∈ m.chunks) :
    ((extentOf storages chunk).destination.storage : Int) = chunk.storage ∧
      ((extentOf storages chunk).destination.start : Int) = chunk.start ∧
        ((extentOf storages chunk).destination.numel : Int) = chunk.length ∧
          0 ≤ chunk.offset ∧ chunk.offset + chunk.length ≤ size := by
  obtain ⟨before, after, cut⟩ := List.append_of_mem member
  have here := covered.follows before chunk after cut
  have early : ∀ other ∈ before, 0 < other.length := fun other inside =>
    covered.positive other (by rw [cut]; exact List.mem_append_left _ inside)
  have late : ∀ other ∈ after, 0 < other.length := fun other inside =>
    covered.positive other (by rw [cut]; exact List.mem_append_right _ (List.mem_cons_of_mem _ inside))
  obtain ⟨nonneg, inside⟩ := here.storage
  have length := here.length.1
  obtain ⟨storage, found⟩ : ∃ storage, storages[chunk.storage.toNat]? = some storage :=
    ⟨_, List.getElem?_eq_getElem (by rwa [← sizes, List.length_map] at inside)⟩
  have bytes : m.storageBytes[chunk.storage.toNat]? = some (storage.numel : Int) := by
    rw [← sizes, List.getElem?_map, found]
    rfl
  have named : ((chunk.storage.toNat : Nat) : Int) = chunk.storage := Int.toNat_of_nonneg nonneg
  have total : coveredOf before chunk.storage + (chunk.length + coveredOf after chunk.storage) = storage.numel := by
    have all := covered.total _ _ bytes
    rw [named, cut, coveredOf_append] at all
    simpa [coveredOf] using all
  have start := here.start
  have low := coveredOf_nonneg early chunk.storage
  have high := coveredOf_nonneg late chunk.storage
  have end' : alignedOf before + (align chunk.length + alignedOf after) = size := by
    have all := covered.fileBytes.symm.trans covered.size
    rw [cut, alignedOf_append] at all
    simpa [alignedOf] using all
  have offset := here.offset
  have earlier := alignedOf_nonneg early
  have later := alignedOf_nonneg late
  have rounded : chunk.length ≤ align chunk.length := by
    simp only [align, ALIGN]
    omega
  simp only [extentOf, found, Option.getD_some]
  omega

end Coverage

namespace Stream

variable {weights : List UInt8} {memory : Nat → Buffer UInt8} {storage cell : Nat}

theorem put_outside {extent : Extent} (view : (extent.destination.numel : Int) = extent.length)
    (outside : ¬extent.Covers storage cell) : put weights memory extent storage cell = memory storage cell := by
  rw [put, Function.update_apply]
  split
  case isTrue same =>
    subst same
    apply Buffer.write_outside
    have short : (extent.bytes weights).length ≤ extent.length.toNat := by
      rw [Extent.bytes, List.length_take]
      exact Nat.min_le_left _ _
    simp only [Extent.Covers, true_and] at outside
    omega
  case isFalse => rfl

theorem put_inside {extent : Extent} {value : UInt8} (view : (extent.destination.numel : Int) = extent.length)
    (inside : extent.Covers storage cell)
    (found : weights[extent.offset.toNat + (cell - extent.destination.start)]? = some value) :
    put weights memory extent storage cell = value := by
  obtain ⟨rfl, above, below⟩ := inside
  obtain ⟨offset, rfl⟩ := Nat.exists_eq_add_of_le above
  rw [Nat.add_sub_cancel_left] at found
  rw [put, Function.update_self]
  apply Buffer.write_inside
  rw [Extent.bytes, List.getElem?_take_of_lt (by omega), List.getElem?_drop, found]

theorem foldl_put_outside {extents : List Extent}
    (views : ∀ extent ∈ extents, (extent.destination.numel : Int) = extent.length)
    (outside : ∀ extent ∈ extents, ¬extent.Covers storage cell) :
    extents.foldl (put weights) memory storage cell = memory storage cell := by
  induction extents generalizing memory with
  | nil => rfl
  | cons head tail ih =>
      rw [List.forall_mem_cons] at views outside
      rw [List.foldl_cons, ih views.2 outside.2, put_outside views.1 outside.1]

/-- When the extents agree on a byte, it does not matter which of them came last. -/
theorem foldl_put_inside {extents : List Extent} {value : UInt8}
    (views : ∀ extent ∈ extents, (extent.destination.numel : Int) = extent.length)
    (agree : ∀ extent ∈ extents, extent.Covers storage cell →
      weights[extent.offset.toNat + (cell - extent.destination.start)]? = some value)
    (inside : ∃ extent ∈ extents, extent.Covers storage cell) :
    extents.foldl (put weights) memory storage cell = value := by
  induction extents using List.reverseRecOn with
  | nil =>
      obtain ⟨extent, member, _⟩ := inside
      cases member
  | append_singleton early last ih =>
      rw [List.forall_mem_append, List.forall_mem_singleton] at views agree
      rw [List.foldl_append, List.foldl_cons, List.foldl_nil]
      by_cases here : last.Covers storage cell
      · exact put_inside views.2 here (agree.2 here)
      · rw [put_outside views.2 here]
        apply ih views.1 agree.1
        obtain ⟨extent, member, covers⟩ := inside
        rcases List.mem_append.mp member with old | new
        · exact ⟨extent, old, covers⟩
        · rw [List.mem_singleton.mp new] at covers
          exact absurd covers here

theorem filterMap_range {Item : Type} (items : List Item) : (List.range items.length).filterMap (items[·]?) = items := by
  induction items using List.reverseRecOn with
  | nil => rfl
  | append_singleton early last ih =>
      have before : (List.range early.length).filterMap ((early ++ [last])[·]?) = early := by
        refine (List.filterMap_congr fun place member => ?_).trans ih
        exact List.getElem?_append_left (List.mem_range.mp member)
      rw [List.length_append, List.length_singleton, List.range_succ, List.filterMap_append, before]
      simp

variable {setup : StreamSetup} {extents : List Extent} {sha256 : List UInt8 → String} {state next : Stream}

/-- What was raised stays raised. -/
theorem Transition.stays_failed (transition : Transition setup extents weights sha256 state next)
    (failed : state.point.Failed) : next.point.Failed := by
  have live {point : StreamPoint} (here : state.point = point) (fine : ¬point.Failed) : False := fine (here ▸ failed)
  cases transition with
  | opened ok point => exact (live point id).elim
  | submitted point below => exact (live point id).elim
  | filled point above => exact (live point id).elim
  | woken task found reached => exact failed
  | received task found legal => exact failed
  | failed task => exact failed
  | verified task found whole same => exact failed
  | refused point task => trivial
  | queued point below task found view => exact (live point id).elim
  | delivered point below task found view => exact (live point id).elim
  | copied advanced found => exact failed
  | returned point free idle => exact (live point id).elim
  | raised point => trivial

/-- A stream before its first read. -/
theorem honest_idle (point : StreamPoint) (buffers : Nat → Buffer UInt8) :
    (⟨point, 0, buffers, fun _ => .free, .idle, memory, []⟩ : Stream).Honest extents weights sha256 memory where
  fenced := CopyStream.fenced_idle
  held _ := trivial
  waiting _ _ member := absurd member List.not_mem_nil
  memory := rfl
  verified _ member := absurd member List.not_mem_nil

theorem ledger_start (buffers : Nat → Buffer UInt8) : (start setup extents buffers memory).Ledger setup extents := by
  have none : inFlight setup.depth.toNat (fun _ => .free) = [] := by
    rw [inFlight, List.filterMap_eq_nil_iff]
    intro _ _
    rfl
  have account : (start setup extents buffers memory).Account setup := by
    show (inFlight setup.depth.toNat (fun _ => .free) ++ _).Perm _
    rw [none]
    exact .refl _
  refine ⟨Nat.zero_le _, fun _ _ => rfl, ?_, ?_, fun _ => account⟩
  all_goals
    simp only [start]
    split
  · exact fun live => absurd trivial live
  · omega
  · trivial
  case isFalse =>
    split
    case isTrue empty => exact ⟨by rw [empty]; rfl, fun _ => rfl, rfl⟩
    case isFalse => exact fun _ => rfl

theorem ledger_failed {point : StreamPoint} (failed : point.Failed) (buffers : Nat → Buffer UInt8) :
    (⟨point, 0, buffers, fun _ => .free, .idle, memory, []⟩ : Stream).Ledger setup extents where
  bound := Nat.zero_le _
  outside _ _ := rfl
  deep live := absurd failed live
  place := by
    cases point with
    | unwinding error => trivial
    | raised error => trivial
    | opening => exact failed.elim
    | submitting slot => exact failed.elim
    | collecting => exact failed.elim
    | returned => exact failed.elim
  account live := absurd failed live

/-- A stream that returned has copied each extent once. -/
theorem Ledger.returned_perm (ledger : state.Ledger setup extents) (point : state.point = .returned) :
    (state.written extents).Perm extents := by
  have place : state.Place setup extents .returned := point ▸ ledger.place
  obtain ⟨whole, free, idle⟩ := place
  have none : inFlight setup.depth.toNat state.tasks = [] := by
    rw [inFlight, List.filterMap_eq_nil_iff]
    intro slot _
    rw [free slot]
    rfl
  have account : state.Account setup := ledger.account (by rw [point]; exact id)
  rw [Account, none, idle, whole, List.map_nil, List.nil_append, List.nil_append] at account
  exact (account.filterMap _).trans (.of_eq (filterMap_range extents))

/-- Each slot is refilled only when its read is over, and written only while no copy out of it waits. -/
theorem Transition.fenced {before : Nat → Buffer UInt8} (honest : state.Honest extents weights sha256 before)
    (ledger : state.Ledger setup extents) (transition : Transition setup extents weights sha256 state next)
    (slot : Nat) :
    (next.buffers slot ≠ state.buffers slot →
        (∃ index done, state.tasks slot = .reading index done) ∧ state.Clear slot) ∧
      ∀ index, next.tasks slot = .submitted index → next.tasks slot ≠ state.tasks slot → (state.tasks slot).Over := by
  have elsewhere : ∀ {tasks : Nat → ReadTask} {other : Nat} {task : ReadTask},
      Function.update tasks other task slot ≠ tasks slot → slot = other := by
    intro tasks other task changed
    by_contra different
    exact changed (Function.update_of_ne different _ _)
  have refilled : ∀ (middle : Stream) (other : Nat), (middle.tasks = state.tasks ∨
        middle.tasks = Function.update state.tasks other .free) → (state.tasks other).Over →
      (submitNext extents middle other).tasks slot ≠ state.tasks slot → (state.tasks slot).Over := by
    intro middle other kept free changed
    by_cases same : slot = other
    · rwa [same]
    · rw [submitNext_other same] at changed
      rcases kept with kept | kept
      · exact absurd (congrFun kept slot) changed
      · exact absurd (elsewhere (kept ▸ changed)) same
  cases transition with
  | opened ok point => exact ⟨absurd rfl, fun _ _ => absurd rfl⟩
  | @submitted other point below =>
      have place : state.Place setup extents (.submitting other) := point ▸ ledger.place
      have free : (state.tasks other).Over := by
        rw [place.1 other le_rfl]
        trivial
      exact ⟨fun changed => (changed (congrFun (submitNext_buffers other) slot)).elim,
        fun _ _ changed => refilled state other (.inl rfl) free changed⟩
  | filled point above => exact ⟨absurd rfl, fun _ _ => absurd rfl⟩
  | @woken other index extent task found reached =>
      refine ⟨absurd rfl, fun again submitted changed => ?_⟩
      cases elsewhere changed
      simp only [Function.update_self] at submitted
      split at submitted <;> cases submitted
  | @received other index done n reopens extent task found legal =>
      constructor
      · intro changed
        have here : slot = other := by
          by_contra different
          exact changed (Function.update_of_ne different _ _)
        subst here
        have held := honest.held slot
        rw [task] at held
        exact ⟨⟨index, done, task⟩, held.1⟩
      · intro again submitted changed
        cases elsewhere changed
        simp only [Function.update_self] at submitted
        cases submitted
  | @failed other index done error task =>
      refine ⟨absurd rfl, fun again submitted changed => ?_⟩
      cases elsewhere changed
      simp only [Function.update_self] at submitted
      cases submitted
  | @verified other index done extent task found whole same =>
      refine ⟨absurd rfl, fun again submitted changed => ?_⟩
      cases elsewhere changed
      simp only [Function.update_self] at submitted
      cases submitted
  | @refused other index failure error point task =>
      refine ⟨absurd rfl, fun again submitted changed => ?_⟩
      cases elsewhere changed
      simp only [Function.update_self] at submitted
      cases submitted
  | @queued other index extent point below task found view =>
      have free : (state.tasks other).Over := by
        rw [task]
        trivial
      exact ⟨fun changed => (changed (congrFun (submitNext_buffers other) slot)).elim,
        fun _ _ changed => refilled _ other (.inr rfl) free changed⟩
  | @delivered other index extent point below task found view =>
      have free : (state.tasks other).Over := by
        rw [task]
        trivial
      exact ⟨fun changed => (changed (congrFun (submitNext_buffers other) slot)).elim,
        fun _ _ changed => refilled _ other (.inr rfl) free changed⟩
  | copied advanced found => exact ⟨absurd rfl, fun _ _ => absurd rfl⟩
  | returned point free idle => exact ⟨absurd rfl, fun _ _ => absurd rfl⟩
  | raised point => exact ⟨absurd rfl, fun _ _ => absurd rfl⟩

end Stream

section Restore

variable {Contract Schema State : Type} {m : Manifest Contract Schema State} {weights : List UInt8}
  {storages : List Storage} {sha256 : List UInt8 → String}

/-- A byte is in one of the chunks at most. -/
theorem Manifest.Covered.unique {size : Nat} (covered : m.Covered size) {first second : Chunk}
    (one : first ∈ m.chunks) (other : second ∈ m.chunks) {place cell : Nat} (covers : first.Covers place cell)
    (too : second.Covers place cell) : first = second := by
  have count := countP_covers place cell m.chunks covered.follows
  have single : (m.chunks.filter fun chunk => chunk.Covers place cell).length ≤ 1 := by
    rw [← List.countP_eq_length_filter, count]
    split <;> omega
  have here : first ∈ m.chunks.filter fun chunk => chunk.Covers place cell :=
    List.mem_filter.mpr ⟨one, decide_eq_true covers⟩
  have there : second ∈ m.chunks.filter fun chunk => chunk.Covers place cell :=
    List.mem_filter.mpr ⟨other, decide_eq_true too⟩
  match filtered : m.chunks.filter fun chunk => chunk.Covers place cell with
  | [] =>
      rw [filtered] at here
      cases here
  | [only] =>
      rw [filtered, List.mem_singleton] at here there
      exact here.trans there.symm
  | _ :: _ :: _ =>
      rw [filtered] at single
      simp at single

/-- The extents write what their chunks cover. -/
theorem Manifest.Covered.covers_iff {size : Nat} (covered : m.Covered size)
    (sizes : storages.map (fun storage => (storage.numel : Int)) = m.storageBytes) {chunk : Chunk}
    (member : chunk ∈ m.chunks) (place cell : Nat) :
    (extentOf storages chunk).Covers place cell ↔ chunk.Covers place cell := by
  obtain ⟨storage, start, numel, _⟩ := covered.placed sizes member
  simp only [Extent.Covers, Chunk.Covers]
  omega

/-- A byte that an extent wrote came from its chunk, whose digest was checked. -/
theorem Stream.Honest.delivered {state : Stream} {before : Nat → Buffer UInt8} (covered : m.Covered weights.length)
    (sizes : storages.map (fun storage => (storage.numel : Int)) = m.storageBytes)
    (honest : state.Honest (m.chunks.map (extentOf storages)) weights sha256 before) {extent : Extent}
    (member : extent ∈ state.written (m.chunks.map (extentOf storages))) {place cell : Nat}
    (covers : extent.Covers place cell) :
    ∃ chunk ∈ m.chunks, extentOf storages chunk = extent ∧ chunk.Covers place cell ∧
      sha256 (chunk.bytes weights) = chunk.sha256 ∧ weights[chunk.source cell]? = some (state.memory place cell) := by
  have known : ∀ other ∈ state.written (m.chunks.map (extentOf storages)), ∃ chunk ∈ m.chunks,
      extentOf storages chunk = other := by
    intro other inside
    obtain ⟨index, _, found⟩ := List.mem_filterMap.mp inside
    exact List.mem_map.mp (List.mem_of_getElem? found)
  obtain ⟨chunk, inside, rfl⟩ := known extent member
  have own : chunk.Covers place cell := (covered.covers_iff sizes inside place cell).mp covers
  obtain ⟨_, start, numel, nonneg, fits⟩ := covered.placed sizes inside
  have bound : chunk.source cell < weights.length := by
    obtain ⟨_, above, below⟩ := own
    simp only [Chunk.source]
    omega
  have value : weights[chunk.source cell]? = some weights[chunk.source cell] := List.getElem?_eq_getElem bound
  refine ⟨chunk, inside, rfl, own, honest.verified _ member, ?_⟩
  rw [honest.memory, value]
  refine congrArg some (Stream.foldl_put_inside ?_ ?_ ⟨_, member, covers⟩).symm
  · intro other written
    obtain ⟨again, there, rfl⟩ := known other written
    exact (covered.placed sizes there).2.2.1
  · intro other written too
    obtain ⟨again, there, rfl⟩ := known other written
    cases covered.unique there inside ((covered.covers_iff sizes there place cell).mp too) own
    rw [← value]
    obtain ⟨_, above, below⟩ := own
    congr 1
    show chunk.offset.toNat + (cell - (extentOf storages chunk).destination.start) = chunk.source cell
    simp only [Chunk.source]
    omega

variable [DecidableEq Contract] [DecidableEq Schema] {digest : Manifest Contract Schema State → String}
  {artifact : Artifact Contract Schema State} {contract : Contract} {schema : Schema} {depth : Int} {direct : Bool}
  {cuda : Nat → Bool} {buffers memory : Nat → Buffer UInt8} {setup : StreamSetup} {extents : List Extent}
  {first : Stream}

/-- Either `restore` raises before it reads, or it streams the chunks of a covered manifest into storages of the
sizes that the manifest names. -/
theorem restore_cases
    (restored : restore digest artifact contract schema storages depth direct cuda buffers memory =
      (setup, extents, first)) :
    (∃ point : StreamPoint, point.Failed ∧ extents = [] ∧ first = ⟨point, 0, buffers, fun _ => .free, .idle, memory, []⟩) ∨
      (artifact.manifest.Covered artifact.weights.length ∧
        storages.map (fun storage => (storage.numel : Int)) = artifact.manifest.storageBytes ∧
        extents = artifact.manifest.chunks.map (extentOf storages) ∧
        first = Stream.start setup extents buffers memory) := by
  unfold restore at restored
  split at restored
  case h_1 error refused =>
    cases restored
    exact .inl ⟨.raised (.artifact error), trivial, rfl, rfl⟩
  case h_2 m accepted =>
    obtain ⟨rfl, _, covered⟩ := inspect_ok accepted
    split at restored
    case isTrue =>
      cases restored
      exact .inl ⟨.raised (.value "constructed tensor/alias schema differs from artifact"), trivial, rfl, rfl⟩
    case isFalse same =>
      rw [not_or, not_not, not_not] at same
      cases restored
      exact .inr ⟨covered, same.2, rfl, rfl⟩

/-- In whatever order the reads end and the copies are made: when `restore` returns, each byte of each storage was
written once, with its byte of the file, and each chunk had its digest. At any time, so also when it raises, a
byte is as it was before or came from a chunk that had its digest. A slot is written only by the one read it is
taken for, while no copy out of it waits, and it is taken for a read only when its last one is over. -/
theorem restore_exact
    (restored : restore digest artifact contract schema storages depth direct cuda buffers memory =
      (setup, extents, first)) {actions : List StreamAction} {last : Stream}
    (reached : Run.run (Stream.step setup extents artifact.weights sha256) first actions = some last) :
    (last.point = .returned →
      (∀ place storage, storages[place]? = some storage → ∀ cell < storage.numel,
        (last.written extents).countP (fun extent => extent.Covers place cell) = 1 ∧
          ∃ chunk ∈ artifact.manifest.chunks, chunk.Covers place cell ∧
            artifact.weights[chunk.source cell]? = some (last.memory place cell)) ∧
      ∀ chunk ∈ artifact.manifest.chunks, sha256 (chunk.bytes artifact.weights) = chunk.sha256) ∧
    (∀ place cell,
      (∀ extent ∈ last.written extents, ¬extent.Covers place cell) ∧ last.memory place cell = memory place cell ∨
        ∃ chunk ∈ artifact.manifest.chunks, extentOf storages chunk ∈ last.written extents ∧
          chunk.Covers place cell ∧ sha256 (chunk.bytes artifact.weights) = chunk.sha256 ∧
            artifact.weights[chunk.source cell]? = some (last.memory place cell)) ∧
    ∀ action next, Stream.step setup extents artifact.weights sha256 last action = some next → ∀ slot,
      (next.buffers slot ≠ last.buffers slot →
        (∃ index done, last.tasks slot = .reading index done) ∧ last.Clear slot) ∧
      ∀ index, next.tasks slot = .submitted index → next.tasks slot ≠ last.tasks slot → (last.tasks slot).Over := by
  have honest : (∀ extent ∈ extents, 0 ≤ extent.offset) →
      first.Honest extents artifact.weights sha256 memory → last.Honest extents artifact.weights sha256 memory :=
    fun placed start => Run.run_invariant
      (fun _ _ _ kept taken => Stream.Honest.step kept placed (Stream.step_transition taken)) start reached
  have ledger : first.Ledger setup extents → last.Ledger setup extents := fun start =>
    Run.run_invariant (fun _ _ _ kept taken => Stream.Ledger.step kept (Stream.step_transition taken)) start reached
  rcases restore_cases restored with ⟨point, failed, rfl, rfl⟩ | ⟨covered, sizes, streamed, rfl⟩
  · have honest := honest (List.forall_mem_nil _) (Stream.honest_idle point buffers)
    have ledger := ledger (Stream.ledger_failed failed buffers)
    have stays : last.point.Failed :=
      Run.run_invariant (fun _ _ _ kept taken => (Stream.step_transition taken).stays_failed kept) failed reached
    have none : last.written [] = [] := by
      rw [Stream.written, List.filterMap_eq_nil_iff]
      intro _ _
      rfl
    refine ⟨fun returned => ?_, fun place cell => .inl ⟨?_, ?_⟩, fun action next taken slot =>
      (Stream.step_transition taken).fenced honest ledger slot⟩
    · rw [returned] at stays
      exact stays.elim
    · rw [none]
      exact List.forall_mem_nil _
    · rw [honest.memory, none]
      rfl
  · have placed : ∀ extent ∈ extents, 0 ≤ extent.offset := by
      rw [streamed]
      intro extent member
      obtain ⟨chunk, inside, rfl⟩ := List.mem_map.mp member
      exact (covered.placed sizes inside).2.2.2.1
    have honest := honest placed (Stream.honest_idle _ buffers)
    have ledger := ledger (Stream.ledger_start buffers)
    subst streamed
    refine ⟨fun returned => ⟨?_, ?_⟩, fun place cell => ?_, fun action next taken slot =>
      (Stream.step_transition taken).fenced honest ledger slot⟩
    · intro place storage found cell below
      have bytes : artifact.manifest.storageBytes[place]? = some (storage.numel : Int) := by
        rw [← sizes, List.getElem?_map, found]
        rfl
      have once : (last.written (artifact.manifest.chunks.map (extentOf storages))).countP
          (fun extent => extent.Covers place cell) = 1 := by
        rw [(ledger.returned_perm returned).countP_eq, List.countP_map]
        have same : artifact.manifest.chunks.countP
            ((fun extent : Extent => decide (extent.Covers place cell)) ∘ extentOf storages) =
              artifact.manifest.chunks.countP fun chunk => chunk.Covers place cell := by
          apply List.countP_congr
          intro chunk member
          simp only [Function.comp_apply, decide_eq_true_eq]
          exact covered.covers_iff sizes member place cell
        rw [same, countP_covers place cell _ covered.follows, covered.total place _ bytes, if_pos (by omega)]
      refine ⟨once, ?_⟩
      obtain ⟨extent, member, covers⟩ := List.countP_pos_iff.mp (once ▸ Nat.one_pos)
      obtain ⟨chunk, inside, _, own, _, value⟩ := honest.delivered covered sizes member (of_decide_eq_true covers)
      exact ⟨chunk, inside, own, value⟩
    · intro chunk member
      exact honest.verified (extentOf storages chunk)
        ((ledger.returned_perm returned).mem_iff.mpr (List.mem_map_of_mem member))
    · by_cases untouched : ∀ extent ∈ last.written (artifact.manifest.chunks.map (extentOf storages)),
        ¬extent.Covers place cell
      · refine .inl ⟨untouched, ?_⟩
        rw [honest.memory]
        refine Stream.foldl_put_outside (fun extent member => ?_) untouched
        obtain ⟨index, _, found⟩ := List.mem_filterMap.mp member
        obtain ⟨chunk, inside, rfl⟩ := List.mem_map.mp (List.mem_of_getElem? found)
        exact (covered.placed sizes inside).2.2.1
      · push Not at untouched
        obtain ⟨extent, member, covers⟩ := untouched
        obtain ⟨chunk, inside, rfl, own, digest, value⟩ := honest.delivered covered sizes member covers
        exact .inr ⟨chunk, inside, member, own, digest, value⟩

end Restore

/-- One storage of two bytes, on a device that copies on its own. -/
def twoBytes : Artifact Unit Unit Unit where
  manifest := ⟨artifactVersion, artifactPhase, (), (), 4096, [⟨0, 0, 2, 0, "ok"⟩], [2], (), 4096⟩
  artifactId := ""
  weights := 7 :: 9 :: List.replicate 4094 0

def twoBytesSha256 (data : List UInt8) : String := if data = [7, 9] then "ok" else "other"

def twoBytesExtents : List Extent := [⟨0, 2, "ok", ⟨0, 0, 2, 1⟩⟩]

def twoBytesRun : Option Stream :=
  let setup : StreamSetup := ⟨4096, 1, true, fun _ => true⟩
  Run.run (Stream.step setup twoBytesExtents twoBytes.weights twoBytesSha256)
    (Stream.start setup twoBytesExtents (fun _ _ => 0) (fun _ _ => 0))
    [.opened true, .submit, .submit, .wake 0, .preadv 0 (.count 4096 false), .hash 0, .collect 0, .copy, .unwind]

theorem restore_exact_twoBytes :
    ∃ last, twoBytesRun = some last ∧ last.point = .returned ∧
      ∀ cell < 2, (last.written twoBytesExtents).countP (fun extent => extent.Covers 0 cell) = 1 ∧
        ∃ chunk ∈ twoBytes.manifest.chunks, chunk.Covers 0 cell ∧
          twoBytes.weights[chunk.source cell]? = some (last.memory 0 cell) := by
  have ended : twoBytesRun.map (·.point) = some .returned := by decide +kernel
  obtain ⟨last, reached, returned⟩ := Option.map_eq_some_iff.mp ended
  have restored : restore (fun _ => "") twoBytes () () [⟨2, 1⟩] 1 true (fun _ => true) (fun _ _ => 0) (fun _ _ => 0) =
      (⟨4096, 1, true, fun _ => true⟩, twoBytesExtents,
        Stream.start ⟨4096, 1, true, fun _ => true⟩ twoBytesExtents (fun _ _ => 0) (fun _ _ => 0)) := by
    have size : (twoBytes.weights.length : Int) = 4096 := by decide +kernel
    have accepted : inspect (fun _ => "") twoBytes () = .ok twoBytes.manifest := by
      unfold inspect
      rw [size]
      rfl
    rw [restore, accepted]
    rfl
  have exact' := ((restore_exact restored reached).1 returned).1 0 ⟨2, 1⟩ rfl
  exact ⟨last, reached, returned, exact'⟩

end DgxSpark.Nvme

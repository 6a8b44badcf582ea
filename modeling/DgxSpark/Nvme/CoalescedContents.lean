import DgxSpark.Nvme.CoalescedSource
import DgxSpark.Nvme.TileContents

/-
This file shows that `produce` brings every batch into its output: a byte is on its way from a slot that holds it, or
it is there.
-/

namespace DgxSpark.Nvme.Coalesced

open Library Streaming

variable {DType : Type}

def Upload.Covers (upload : Upload) (index cell : Nat) : Prop :=
  upload.batch = index ∧ upload.position ≤ cell ∧ cell < upload.position + upload.length

section Copies

variable (disk : Disk) (batches : List (Batch DType))

/-- A copy that waits has its bytes of the file in its slot. -/
def Staged (slots : Fin 2 → Buffer UInt8) (entry : Fin 2 × Upload) : Prop :=
  ∃ batch, batches[entry.2.batch]? = some batch ∧
    (slots entry.1).Holds 0 (bytesAt disk batch.file) (batch.start.toNat + entry.2.position) entry.2.length

/-- The first bytes of an output are there, or copies of them wait. -/
def Covered (waiting : List (Fin 2 × Upload)) (outputs : Nat → Buffer UInt8) (index count : Nat) : Prop :=
  ∀ batch, batches[index]? = some batch → ∀ cell < count,
    (∃ entry ∈ waiting, entry.2.Covers index cell) ∨
      (bytesAt disk batch.file)[batch.start.toNat + cell]? = some (outputs index cell)

/-- The copies that wait are for the batches before this one. -/
def Below (waiting : List (Fin 2 × Upload)) (bound : Nat) : Prop := ∀ entry ∈ waiting, entry.2.batch < bound

variable {disk batches} {waiting more : List (Fin 2 × Upload)} {outputs : Nat → Buffer UInt8} {index count : Nat}

theorem Covered.mono (covered : Covered disk batches waiting outputs index count) (subset : waiting ⊆ more) :
    Covered disk batches more outputs index count := by
  intro batch found cell below
  rcases covered batch found cell below with ⟨entry, waits, covers⟩ | there
  · exact .inl ⟨entry, subset waits, covers⟩
  · exact .inr there

/-- A copy of the next bytes makes the piece longer. -/
theorem Covered.grow {position length : Nat} (covered : Covered disk batches waiting outputs index position)
    (entry : Fin 2 × Upload) (same : entry.2 = ⟨index, position, length⟩) :
    Covered disk batches (entry :: waiting) outputs index (position + length) := by
  intro batch found cell below
  by_cases earlier : cell < position
  · exact covered.mono (List.subset_cons_self _ _) batch found cell earlier
  · refine .inl ⟨entry, List.mem_cons_self, ?_⟩
    rw [same]
    exact ⟨rfl, Nat.le_of_not_lt earlier, below⟩

/-- A copy that is made brings its bytes to the output. -/
theorem Covered.deliver {slots : Fin 2 → Buffer UInt8} {slot : Fin 2} {upload : Upload}
    (staged : Staged disk batches slots (slot, upload))
    (covered : Covered disk batches ((slot, upload) :: waiting) outputs index count) :
    Covered disk batches waiting (Source.deliver slots outputs slot upload) index count := by
  intro batch found cell below
  by_cases covers : upload.Covers index cell
  · right
    obtain ⟨rfl, low, high⟩ := covers
    obtain ⟨other, here, holds⟩ := staged
    cases here.symm.trans found
    obtain ⟨lane, rfl⟩ := Nat.exists_eq_add_of_le low
    have inside : lane < upload.length := by omega
    have byte := Buffer.getElem?_read (slots slot) 0 inside
    rw [Source.deliver, Function.update_self, Buffer.write_inside byte, ← Nat.add_assoc]
    exact holds lane inside
  · rcases covered batch found cell below with ⟨entry, waits, here⟩ | there
    · rcases List.mem_cons.mp waits with rfl | later
      · exact absurd here covers
      · exact .inl ⟨entry, later, here⟩
    · right
      rw [there, Source.deliver, Function.update_apply]
      split
      case isTrue same =>
        subst same
        have outside : cell < upload.position ∨ upload.position + ((slots slot).read 0 upload.length).length ≤ cell := by
          rw [Buffer.length_read]
          simp only [Upload.Covers, true_and] at covers
          omega
        rw [Buffer.write_outside outside]
      case isFalse => rfl

theorem Below.mono (below : Below more count) (subset : waiting ⊆ more) : Below waiting count :=
  fun entry waits => below entry (subset waits)

theorem Below.concat (below : Below waiting count) {entry : Fin 2 × Upload} (inside : entry.2.batch < count) :
    Below (waiting ++ [entry]) count := by
  intro other waits
  rcases List.mem_append.mp waits with before | last
  · exact below other before
  · rw [List.mem_singleton.mp last]
    exact inside

end Copies

namespace Source

variable (call : CoalescedCall DType) (disk : Disk) (batches : List (Batch DType))

section Points

variable (uploads : CopyStream (Fin 2) Upload) (slots : Fin 2 → Buffer UInt8) (outputs : Nat → Buffer UInt8)
  (path : Option String) (made : Nat)

/-- The batch that is filled is the one after those that were yielded. -/
structure Batching (index position : Nat) (finalEvent : Option Nat) (batch : Batch DType) : Prop where
  found : batches[index]? = some batch
  turn : index = made
  below : Below uploads.waiting (index + 1)
  awaited : uploads.Awaits finalEvent fun entry => entry.2.batch = index
  opened : path = some batch.file
  covered : Covered disk batches uploads.waiting outputs index (min position batch.bytes.toNat)

/-- The sub-reads of a tile work in a slot that no copy is made from. -/
structure Tiling (slot : Fin 2) (position : Nat) (readings : List Reading) (batch : Batch DType)
    (reader : RangeReader) : Prop where
  made : call.reader = .ok reader
  more : position < batch.bytes.toNat
  free : ∀ entry ∈ uploads.waiting, entry.1 ≠ slot
  filled : (Filling.mk (slots slot) readings []).Filled (bytesAt disk batch.file)
    (RangeReader.sourceOffset batch (tileAt reader batch position))
    (reader.subReads (tileAt reader batch position).length)

/-- What holds at each point of `produce`. -/
def At : SourcePoint → Prop
  | .created => made = 0 ∧ uploads.waiting = []
  | .checking index => index = made ∧ index ≤ batches.length ∧ Below uploads.waiting index
  | .reserving index => index = made ∧ index < batches.length ∧ Below uploads.waiting index
  | .opening index => index = made ∧ index < batches.length ∧ Below uploads.waiting index
  | .fencing index position finalEvent =>
      ∃ batch, Batching disk batches uploads outputs path made index position finalEvent batch
  | .reading slot index position finalEvent readings => ∃ batch reader,
      Batching disk batches uploads outputs path made index position finalEvent batch ∧
        Tiling call disk uploads slots slot position readings batch reader
  | .yielding index finalEvent =>
      ∃ batch, Batching disk batches uploads outputs path made index batch.bytes.toNat finalEvent batch
  | .suspended index => index + 1 = made ∧ index < batches.length ∧ Below uploads.waiting (index + 1)
  | .closing ending => ending.Early ∨ made = batches.length
  | .finished ending => ending.Early ∨ made = batches.length ∧ uploads.waiting = []
  | .ended ending => ending.Early ∨ made = batches.length ∧ uploads.waiting = []

/-- A batch that was yielded is in its output once its event is over. -/
structure Done (index : Nat) (event : Option Nat) (batch : Batch DType) : Prop where
  found : batches[index]? = some batch
  awaited : uploads.Awaits event fun entry => entry.2.batch = index
  covered : Covered disk batches uploads.waiting outputs index batch.bytes.toNat

end Points

structure Sound (state : Source) : Prop where
  point : At call disk batches state.uploads state.slots state.outputs state.path state.events.length state.point
  staged : ∀ entry ∈ state.uploads.waiting, Staged disk batches state.slots entry
  fenced : state.uploads.Fenced
  host : call.cuda = false → state.uploads.waiting = []
  done : ∀ index event, state.events[index]? = some event →
    ∃ batch, Done disk batches state.uploads state.outputs index event batch

variable {call disk batches} {state next : Source}

theorem start_sound (limit : Int) (slots : Fin 2 → Buffer UInt8) (outputs : Nat → Buffer UInt8) :
    (start limit slots outputs).Sound call disk batches where
  point := ⟨rfl, rfl⟩
  staged := List.forall_mem_nil _
  fenced := CopyStream.fenced_idle
  host _ := rfl
  done index event found := by cases found

/-- `produce` goes on without a change of its memory. -/
theorem Sound.moved (sound : state.Sound call disk batches) {point : SourcePoint} {path : Option String}
    {nextSlot : Nat} {budget : OwnedStorageBudget} {allocated : List (Nat × Int)}
    (here : At call disk batches state.uploads state.slots state.outputs path state.events.length point) :
    ({ state with
      point := point
      path := path
      nextSlot := nextSlot
      budget := budget
      allocated := allocated } : Source).Sound call disk batches where
  point := here
  staged := sound.staged
  fenced := sound.fenced
  host := sound.host
  done := sound.done

/-- The device makes a copy while `produce` stands anywhere. -/
theorem Sound.copied (sound : state.Sound call disk batches) {slot : Fin 2} {upload : Upload}
    {uploads : CopyStream (Fin 2) Upload} (advanced : state.uploads.advance = some ((slot, upload), uploads)) :
    ({ state with
      uploads := uploads
      outputs := deliver state.slots state.outputs slot upload } : Source).Sound call disk batches := by
  obtain ⟨waits, completed, events⟩ := CopyStream.advance_some advanced
  have subset : uploads.waiting ⊆ state.uploads.waiting := by
    rw [waits]
    exact List.subset_cons_self _ _
  have staged : Staged disk batches state.slots (slot, upload) := sound.staged _ (by simp [waits])
  have covered : ∀ index count, Covered disk batches state.uploads.waiting state.outputs index count →
      Covered disk batches uploads.waiting (deliver state.slots state.outputs slot upload) index count := by
    intro index count before
    rw [waits] at before
    exact before.deliver staged
  have batching : ∀ index position finalEvent batch,
      Batching disk batches state.uploads state.outputs state.path state.events.length index position finalEvent batch →
        Batching disk batches uploads (deliver state.slots state.outputs slot upload) state.path state.events.length
          index position finalEvent batch :=
    fun index position finalEvent batch before =>
      ⟨before.found, before.turn, before.below.mono subset, before.awaited.advance advanced, before.opened,
        covered _ _ before.covered⟩
  have nothing : state.uploads.waiting ≠ [] := by
    rw [waits]
    exact List.cons_ne_nil _ _
  constructor
  · have here := sound.point
    cases point : state.point with
    | created =>
        rw [point] at here
        exact absurd here.2 nothing
    | checking index =>
        rw [point] at here
        exact ⟨here.1, here.2.1, here.2.2.mono subset⟩
    | reserving index =>
        rw [point] at here
        exact ⟨here.1, here.2.1, here.2.2.mono subset⟩
    | opening index =>
        rw [point] at here
        exact ⟨here.1, here.2.1, here.2.2.mono subset⟩
    | fencing index position finalEvent =>
        rw [point] at here
        obtain ⟨batch, before⟩ := here
        exact ⟨batch, batching _ _ _ _ before⟩
    | reading other index position finalEvent readings =>
        rw [point] at here
        obtain ⟨batch, reader, before, tiling⟩ := here
        exact ⟨batch, reader, batching _ _ _ _ before,
          ⟨tiling.made, tiling.more, fun entry waits => tiling.free entry (subset waits), tiling.filled⟩⟩
    | yielding index finalEvent =>
        rw [point] at here
        obtain ⟨batch, before⟩ := here
        exact ⟨batch, batching _ _ _ _ before⟩
    | suspended index =>
        rw [point] at here
        exact ⟨here.1, here.2.1, here.2.2.mono subset⟩
    | closing ending =>
        rw [point] at here
        exact here
    | finished ending =>
        rw [point] at here
        exact here.imp_right fun done => absurd done.2 nothing
    | ended ending =>
        rw [point] at here
        exact here.imp_right fun done => absurd done.2 nothing
  · exact fun entry later => sound.staged entry (subset later)
  · exact sound.fenced.advance advanced
  · exact fun host => absurd (sound.host host) nothing
  · intro index event found
    obtain ⟨batch, before⟩ := sound.done index event found
    exact ⟨batch, before.found, before.awaited.advance advanced, covered _ _ before.covered⟩

/-- A thread reads into the slot of the tile. -/
theorem Sound.received (sound : state.Sound call disk batches) (low : ∀ batch ∈ batches, 0 ≤ batch.start)
    {slot : Fin 2} {index position : Nat} {finalEvent : Option Nat} {readings : List Reading} {batch : Batch DType}
    {reader : RangeReader} {path : String} {action : Nat × PreadvAnswer} {filling : Filling} (fit : reader.Fit)
    (point : state.point = .reading slot index position finalEvent readings) (made : call.reader = .ok reader)
    (found : batches[index]? = some batch) (opened : state.path = some path)
    (taken : Filling.step (bytesAt disk path) call.direct
      (RangeReader.sourceOffset batch (tileAt reader batch position)) ⟨state.slots slot, readings, []⟩ action =
        some filling) :
    ({ state with
      point := .reading slot index position finalEvent filling.readings
      slots := Function.update state.slots slot filling.bytes } : Source).Sound call disk batches := by
  have here := sound.point
  rw [point] at here
  obtain ⟨own, mine, batching, tiling⟩ := here
  cases found.symm.trans batching.found
  cases made.symm.trans tiling.made
  cases opened.symm.trans batching.opened
  have source : 0 ≤ RangeReader.sourceOffset batch (tileAt reader batch position) := by
    have start := low batch (List.mem_of_getElem? found)
    rw [RangeReader.sourceOffset]
    omega
  have filled := tiling.filled.step (fit.subReads_apart (min_le_left _ _)) source taken
  constructor
  · refine ⟨batch, reader, ⟨found, batching.turn, batching.below, batching.awaited, opened, batching.covered⟩, made,
      tiling.more, tiling.free, ?_⟩
    show (Filling.mk (Function.update state.slots slot filling.bytes slot) filling.readings []).Filled _ _ _
    rw [Function.update_self]
    exact ⟨filled.jobs, filled.within, filled.held⟩
  · intro entry waits
    obtain ⟨other, there, holds⟩ := sound.staged entry waits
    refine ⟨other, there, ?_⟩
    show (Function.update state.slots slot filling.bytes entry.1).Holds _ _ _ _
    rwa [Function.update_of_ne (tiling.free entry waits)]
  · exact sound.fenced
  · exact sound.host
  · exact sound.done

/-- A tile that is read holds its piece of the file, so a copy of it is staged. -/
theorem Tiling.staged {slot : Fin 2} {index position : Nat} {readings : List Reading} {batch : Batch DType}
    {reader : RangeReader} {uploads : CopyStream (Fin 2) Upload} {slots : Fin 2 → Buffer UInt8}
    (tiling : Tiling call disk uploads slots slot position readings batch reader)
    (found : batches[index]? = some batch) (low : 0 ≤ batch.start) (ended : ∀ reading ∈ readings, ¬reading.Runs)
    (fine : ∀ reading ∈ readings, reading.failure = none) :
    Staged disk batches slots (slot, ⟨index, position, (tileAt reader batch position).length⟩) := by
  refine ⟨batch, found, ?_⟩
  have whole := tiling.filled.whole ended fine
  have same : (RangeReader.sourceOffset batch (tileAt reader batch position)).toNat = batch.start.toNat + position := by
    rw [RangeReader.sourceOffset]
    show (batch.start + (position : Int)).toNat = _
    omega
  rwa [same] at whole

/-- The end of a tile is where the next one begins, or the end of the batch. -/
theorem tile_end {reader : RangeReader} {batch : Batch DType} {position : Nat} (more : position < batch.bytes.toNat) :
    min position batch.bytes.toNat + (tileAt reader batch position).length =
      min (position + reader.tileBytes) batch.bytes.toNat := by
  simp only [tileAt]
  omega

theorem Sound.submitted (sound : state.Sound call disk batches) (low : ∀ batch ∈ batches, 0 ≤ batch.start)
    {slot : Fin 2} {index position : Nat} {finalEvent : Option Nat} {readings : List Reading} {batch : Batch DType}
    {reader : RangeReader} {upload : Upload}
    (point : state.point = .reading slot index position finalEvent readings) (made : call.reader = .ok reader)
    (found : batches[index]? = some batch) (ended : ∀ reading ∈ readings, ¬reading.Runs)
    (fine : ∀ reading ∈ readings, reading.failure = none) (cuda : call.cuda = true)
    (same : upload = ⟨index, position, (tileAt reader batch position).length⟩) :
    ({ state with
      point := .fencing index (position + reader.tileBytes) ((state.uploads.submit slot upload).event slot)
      uploads := state.uploads.submit slot upload } : Source).Sound call disk batches := by
  have here := sound.point
  rw [point] at here
  obtain ⟨own, mine, batching, tiling⟩ := here
  cases found.symm.trans batching.found
  cases made.symm.trans tiling.made
  have staged := tiling.staged found (low batch (List.mem_of_getElem? found)) ended fine
  rw [← same] at staged
  have waiting : (state.uploads.submit slot upload).waiting = state.uploads.waiting ++ [(slot, upload)] := rfl
  have grown : Covered disk batches (state.uploads.submit slot upload).waiting state.outputs index
      (min (position + reader.tileBytes) batch.bytes.toNat) := by
    have covered := batching.covered
    rw [Nat.min_eq_left tiling.more.le] at covered
    have longer := covered.grow (slot, upload) same
    rw [← tile_end tiling.more, Nat.min_eq_left tiling.more.le]
    exact longer.mono (by rw [waiting]; exact List.cons_subset.mpr ⟨by simp, List.subset_append_left _ _⟩)
  constructor
  · refine ⟨batch, found, batching.turn, ?_, state.uploads.awaits_submit slot upload _, batching.opened, grown⟩
    exact batching.below.concat (by rw [same]; exact Nat.lt_succ_self index)
  · intro entry waits
    rw [waiting] at waits
    rcases List.mem_append.mp waits with before | last
    · exact sound.staged entry before
    · exact List.mem_singleton.mp last ▸ staged
  · exact sound.fenced.submit slot upload
  · exact fun host => absurd (cuda.symm.trans host) Bool.noConfusion
  · intro other event earlier
    obtain ⟨done, before⟩ := sound.done other event earlier
    have less : other < index := batching.turn ▸ (List.getElem?_eq_some_iff.mp earlier).1
    refine ⟨done, before.found, before.awaited.submit ?_, before.covered.mono (List.subset_append_left _ _)⟩
    rw [same]
    exact Nat.ne_of_gt less

theorem Sound.delivered (sound : state.Sound call disk batches) (low : ∀ batch ∈ batches, 0 ≤ batch.start)
    {slot : Fin 2} {index position : Nat} {finalEvent : Option Nat} {readings : List Reading} {batch : Batch DType}
    {reader : RangeReader} {upload : Upload}
    (point : state.point = .reading slot index position finalEvent readings) (made : call.reader = .ok reader)
    (found : batches[index]? = some batch) (ended : ∀ reading ∈ readings, ¬reading.Runs)
    (fine : ∀ reading ∈ readings, reading.failure = none)
    (same : upload = ⟨index, position, (tileAt reader batch position).length⟩) :
    ({ state with
      point := .fencing index (position + reader.tileBytes) finalEvent
      outputs := deliver state.slots state.outputs slot upload } : Source).Sound call disk batches := by
  have here := sound.point
  rw [point] at here
  obtain ⟨own, mine, batching, tiling⟩ := here
  cases found.symm.trans batching.found
  cases made.symm.trans tiling.made
  have staged := tiling.staged found (low batch (List.mem_of_getElem? found)) ended fine
  rw [← same] at staged
  have grown : Covered disk batches state.uploads.waiting (deliver state.slots state.outputs slot upload) index
      (min (position + reader.tileBytes) batch.bytes.toNat) := by
    have covered := batching.covered
    rw [Nat.min_eq_left tiling.more.le] at covered
    rw [← tile_end tiling.more, Nat.min_eq_left tiling.more.le]
    exact (covered.grow (slot, upload) same).deliver staged
  constructor
  · exact ⟨batch, found, batching.turn, batching.below, batching.awaited, batching.opened, grown⟩
  · exact sound.staged
  · exact sound.fenced
  · exact sound.host
  · intro other event earlier
    obtain ⟨done, before⟩ := sound.done other event earlier
    exact ⟨done, before.found, before.awaited, (before.covered.mono (List.subset_cons_self _ _)).deliver staged⟩

/-- Every step of `produce`, of its threads and of the device keeps this. -/
theorem Sound.transition (sound : state.Sound call disk batches) (low : ∀ batch ∈ batches, 0 ≤ batch.start)
    (fits : ∀ reader, call.reader = .ok reader → reader.Fit)
    (taken : Transition call disk batches state next) : next.Sound call disk batches := by
  have here := sound.point
  cases taken with
  | made point made =>
      rw [point] at here
      refine sound.moved ⟨?_, Nat.zero_le _, ?_⟩
      · rw [here.1]
      · rw [here.2]
        exact List.forall_mem_nil _
  | refused point early => exact sound.moved (.inl early)
  | resumed point =>
      rw [point] at here
      exact sound.moved ⟨here.1, here.2.1, here.2.2⟩
  | completed point last =>
      rw [point] at here
      refine sound.moved (.inr ?_)
      have beyond := List.getElem?_eq_none_iff.mp last
      obtain ⟨turn, bound, _⟩ := here
      show state.events.length = batches.length
      omega
  | checked point found =>
      rw [point] at here
      exact sound.moved ⟨here.1, (List.getElem?_eq_some_iff.mp found).1, here.2.2⟩
  | stopped => exact sound.moved (.inl trivial)
  | cancelled => exact sound.moved (.inl trivial)
  | reserved point =>
      rw [point] at here
      exact sound.moved ⟨here.1, here.2.1, here.2.2⟩
  | unallocated => exact sound.moved (.inl trivial)
  | entered point found =>
      rw [point] at here
      refine sound.moved ⟨_, found, here.1, ?_, ?_, rfl, ?_⟩
      · exact fun entry waits => Nat.lt_succ_of_lt (here.2.2 entry waits)
      · exact CopyStream.awaits_none (fun entry waits => Nat.ne_of_lt (here.2.2 entry waits)) _
      · rw [Nat.zero_min]
        intro batch _ cell below
        cases below
  | fenced point made found more reached =>
      rw [point] at here
      obtain ⟨own, batching⟩ := here
      cases found.symm.trans batching.found
      exact sound.moved ⟨_, _, ⟨found, batching.turn, batching.below, batching.awaited, batching.opened, batching.covered⟩,
        made, more, fun entry waits => sound.fenced.free reached waits, Filling.start_filled _ _ _ _⟩
  | filled point found whole =>
      rw [point] at here
      obtain ⟨own, batching⟩ := here
      cases found.symm.trans batching.found
      have covered := batching.covered
      rw [Nat.min_eq_right whole] at covered
      exact sound.moved ⟨_, found, batching.turn, batching.below, batching.awaited, batching.opened,
        (Nat.min_self _).symm ▸ covered⟩
  | received point made found opened taken =>
      exact sound.received low (fits _ made) point made found opened taken
  | submitted point made found ended fine cuda same => exact sound.submitted low point made found ended fine cuda same
  | delivered point made found ended fine _ same => exact sound.delivered low point made found ended fine same
  | copied advanced => exact sound.copied advanced
  | synchronized point idle =>
      rw [point] at here
      refine sound.moved (here.imp_right fun whole => ⟨whole, ?_⟩)
      cases cuda : call.cuda with
      | true => exact idle cuda
      | false => exact sound.host cuda
  | broken => exact sound.moved (.inl trivial)
  | expired => exact ⟨sound.point, sound.staged, sound.fenced, sound.host, sound.done⟩

/-- The batch that is handed over is in its output once its event is over. -/
theorem Sound.answer (sound : state.Sound call disk batches) {answer : Next Item CoalescedError}
    (answered : state.answer = some (answer, next)) : next.Sound call disk batches := by
  have here := sound.point
  unfold Source.answer at answered
  split at answered
  case h_1 index finalEvent point =>
    cases answered
    rw [point] at here
    obtain ⟨batch, batching⟩ := here
    constructor
    · refine ⟨?_, (List.getElem?_eq_some_iff.mp batching.found).1, batching.below⟩
      rw [List.length_append, List.length_singleton, batching.turn]
    · exact sound.staged
    · exact sound.fenced
    · exact sound.host
    · intro other event found
      by_cases last : other = state.events.length
      · subst last
        rw [List.getElem?_concat_length] at found
        cases found
        have covered := batching.covered
        rw [Nat.min_self] at covered
        rw [← batching.turn]
        exact ⟨batch, batching.found, batching.awaited, covered⟩
      · have inside := (List.getElem?_eq_some_iff.mp found).1
        rw [List.length_append, List.length_singleton] at inside
        rw [List.getElem?_append_left (by omega)] at found
        exact sound.done other event found
  case h_2 point =>
    cases answered
    rw [point] at here
    exact sound.moved here
  case h_3 error point =>
    cases answered
    exact sound.moved (.inl trivial)
  case h_4 => cases answered

theorem Sound.closed (sound : state.Sound call disk batches) {closeError : Option CoalescedError}
    (closed : state.closed = some (closeError, next)) : next.Sound call disk batches := by
  unfold Source.closed at closed
  split at closed
  case h_1 =>
    cases closed
    exact sound.moved (.inl trivial)
  case h_2 =>
    cases closed
    exact sound.moved (.inl trivial)
  case h_3 =>
    cases closed
    exact sound
  case h_4 => cases closed

end Source

end DgxSpark.Nvme.Coalesced

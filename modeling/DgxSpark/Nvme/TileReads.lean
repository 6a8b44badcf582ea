import DgxSpark.Nvme.RangeReader

/-
This file shows how a tile is read: its sub-reads are apart and cover it, and every direct read is
aligned, whatever the short counts are.
-/

namespace DgxSpark.Nvme

open Library

/-- Rounding up gives the least multiple above. -/
theorem alignNat_le {n bound : Nat} (below : n ≤ bound) (multiple : ALIGN ∣ bound) : alignNat n ≤ bound := by
  obtain ⟨factor, rfl⟩ := multiple
  simp only [alignNat, ALIGN] at *
  omega

theorem alignNat_pos {n : Nat} (positive : 0 < n) : ALIGN ≤ alignNat n := by
  simp only [alignNat, ALIGN]
  omega

namespace RangeReader

variable {reader : RangeReader} {DType : Type}

/-- What `__init__` leaves of a tile size that is a multiple of the alignment. -/
structure Fit (reader : RangeReader) : Prop where
  concurrency : 0 < reader.concurrency
  multiple : ALIGN ∣ reader.tileBytes
  positive : 0 < reader.tileBytes

theorem init_ok {concurrency tileBytes memoryLimit : Int} {direct : Bool} {owners : Fin 2 → Nat}
    (made : init concurrency tileBytes memoryLimit direct owners = .ok reader) (multiple : (ALIGN : Int) ∣ tileBytes) :
    reader.Fit ∧ (reader.concurrency : Int) = concurrency := by
  unfold init at made
  split at made
  · cases made
  case isFalse threads =>
    split at made
    · cases made
    case isFalse large =>
      cases made
      rw [not_not] at threads
      have least : (ALIGN : Int) ∣ min tileBytes ((memoryLimit / 2 - ALIGN) / ALIGN * ALIGN) := by
        rcases min_choice tileBytes ((memoryLimit / 2 - ALIGN) / ALIGN * ALIGN) with same | same
        · rw [same]
          exact multiple
        · rw [same]
          exact Int.dvd_mul_left _ _
      have positive : (0 : Int) < ALIGN := by decide
      refine ⟨⟨?_, ?_, ?_⟩, ?_⟩
      · show 0 < concurrency.toNat
        omega
      · obtain ⟨factor, same⟩ := least
        show ALIGN ∣ (min tileBytes ((memoryLimit / 2 - ALIGN) / ALIGN * ALIGN)).toNat
        rw [← Int.natCast_dvd_natCast, Int.toNat_of_nonneg (by omega)]
        exact ⟨factor, same⟩
      · show 0 < (min tileBytes ((memoryLimit / 2 - ALIGN) / ALIGN * ALIGN)).toNat
        omega
      · show ((concurrency.toNat : Nat) : Int) = concurrency
        omega

theorem dvd_address (reader : RangeReader) (slot : Fin 2) : (ALIGN : Int) ∣ reader.address slot := by
  simp only [address, ALIGN]
  omega

theorem dvd_quantum (reader : RangeReader) (length : Nat) : ALIGN ∣ reader.quantum length := by
  rw [quantum]
  rcases max_choice ALIGN (alignNat ((length + reader.concurrency - 1) / reader.concurrency)) with same | same
  · rw [same]
  · rw [same]
    exact dvd_alignNat _

theorem quantum_pos (reader : RangeReader) (length : Nat) : 0 < reader.quantum length :=
  lt_of_lt_of_le (by decide) (le_max_left ALIGN _)

/-- A quantum for each thread is enough for the tile. -/
theorem Fit.quantum_enough (fit : reader.Fit) (length : Nat) : length ≤ reader.concurrency * reader.quantum length := by
  have share : (length + reader.concurrency - 1) / reader.concurrency ≤ reader.quantum length :=
    (le_alignNat _).trans (le_max_right ALIGN _)
  have parts := Nat.div_add_mod (length + reader.concurrency - 1) reader.concurrency
  have rest := Nat.mod_lt (length + reader.concurrency - 1) fit.concurrency
  have covered : length ≤ reader.concurrency * ((length + reader.concurrency - 1) / reader.concurrency) := by omega
  exact covered.trans (Nat.mul_le_mul_left _ share)

/-- The jobs are no more than the threads. -/
theorem Fit.length_subReads (fit : reader.Fit) (length : Nat) :
    (reader.subReads length).length ≤ reader.concurrency := by
  rw [subReads, List.length_map]
  exact length_rangeStep_le (reader.quantum_pos length) (fit.quantum_enough length)

/-- Where a job stands in a tile of some length. -/
structure SubRead.Placed (job : SubRead) (length quantum : Nat) : Prop where
  aligned : ALIGN ∣ job.offset
  rounded : job.length = alignNat job.required
  short : job.length ≤ quantum
  positive : 0 < job.required
  inside : job.offset + job.required ≤ length
  fits : job.offset + job.length ≤ alignNat length

theorem Fit.alignNat_le_tile (fit : reader.Fit) {length : Nat} (small : length ≤ reader.tileBytes) :
    alignNat length ≤ reader.tileBytes := alignNat_le small fit.multiple

theorem Fit.subRead_placed (fit : reader.Fit) {length offset : Nat} (small : length ≤ reader.tileBytes)
    (member : offset ∈ rangeStep 0 length (reader.quantum length)) :
    (reader.subRead length offset).Placed length (reader.quantum length) := by
  obtain ⟨below, index, place⟩ := (mem_rangeStep (reader.quantum_pos length)).mp member
  rw [Nat.zero_add] at place
  have aligned : ALIGN ∣ offset := place ▸ Dvd.dvd.mul_left (reader.dvd_quantum length) index
  have step : alignNat (min (reader.quantum length) (length - offset)) ≤ reader.quantum length :=
    alignNat_le (min_le_left _ _) (reader.dvd_quantum length)
  have upper : offset + alignNat (min (reader.quantum length) (length - offset)) ≤ alignNat length := by
    have rest : alignNat (min (reader.quantum length) (length - offset)) ≤ alignNat length - offset := by
      apply alignNat_le
      · have := le_alignNat length
        omega
      · exact Nat.dvd_sub (dvd_alignNat length) aligned
    have := le_alignNat length
    omega
  have tile := fit.alignNat_le_tile small
  have unclipped : min (alignNat (min (reader.quantum length) (length - offset))) (reader.tileBytes - offset) =
      alignNat (min (reader.quantum length) (length - offset)) := Nat.min_eq_left (by omega)
  have positive := reader.quantum_pos length
  constructor
  · exact aligned
  · exact unclipped
  · exact unclipped.trans_le step
  · show 0 < min (reader.quantum length) (length - offset)
    omega
  · show offset + min (reader.quantum length) (length - offset) ≤ length
    omega
  · show offset + min (alignNat (min (reader.quantum length) (length - offset))) (reader.tileBytes - offset) ≤ _
    rw [unclipped]
    exact upper

theorem Fit.subReads_placed (fit : reader.Fit) {length : Nat} (small : length ≤ reader.tileBytes) {job : SubRead}
    (member : job ∈ reader.subReads length) : job.Placed length (reader.quantum length) := by
  obtain ⟨offset, inside, rfl⟩ := List.mem_map.mp member
  exact fit.subRead_placed small inside

/-- The buffer of a job ends before the next one begins. -/
theorem Fit.subReads_apart (fit : reader.Fit) {length : Nat} (small : length ≤ reader.tileBytes) :
    (reader.subReads length).Pairwise fun first second => first.offset + first.length ≤ second.offset := by
  rw [subReads, List.pairwise_map]
  refine (rangeStep_pairwise 0 length (reader.quantum length)).imp_of_mem ?_
  intro first second member _ apart
  have placed := (fit.subRead_placed small member).short
  exact (Nat.add_le_add_left placed first).trans apart

/-- What the jobs require is the tile. -/
theorem subReads_cover (reader : RangeReader) (length : Nat) :
    ((reader.subReads length).flatMap fun job => List.range' job.offset job.required) = List.range length := by
  rw [subReads, List.flatMap_map]
  exact rangeStep_pieces length (reader.quantum_pos length)

/-- The tiles one after another are the batch. -/
theorem Fit.tiles_cover (fit : reader.Fit) (batch : Batch DType) :
    ((reader.tiles batch).flatMap fun tile => List.range' tile.position tile.length) =
      List.range batch.bytes.toNat := by
  rw [tiles, List.flatMap_map]
  exact rangeStep_pieces _ fit.positive

theorem Fit.tile_placed (fit : reader.Fit) {batch : Batch DType} {tile : Tile} (member : tile ∈ reader.tiles batch) :
    ALIGN ∣ tile.position ∧ tile.length ≤ reader.tileBytes ∧ 0 < tile.length ∧
      tile.position + tile.length ≤ batch.bytes.toNat := by
  obtain ⟨position, inside, rfl⟩ := List.mem_map.mp member
  obtain ⟨below, index, place⟩ := (mem_rangeStep fit.positive).mp inside
  have positive := fit.positive
  refine ⟨?_, min_le_left _ _, ?_, ?_⟩
  · show ALIGN ∣ position
    rw [place, Nat.zero_add]
    exact Dvd.dvd.mul_left fit.multiple index
  · show 0 < min reader.tileBytes (batch.bytes.toNat - position)
    omega
  · show position + min reader.tileBytes (batch.bytes.toNat - position) ≤ _
    omega

end RangeReader

namespace Filling

variable {file : List UInt8} {direct : Bool} {source : Int} {filling next : Filling}

/-- What one step does: a running sub-read makes a legal call and takes its answer. -/
theorem step_some {action : Nat × PreadvAnswer} (taken : step file direct source filling action = some next) :
    ∃ reading, filling.readings[action.1]? = some reading ∧ reading.Runs ∧
      (reading.call direct source).Legal file action.2 ∧
        next = {
          bytes := received filling.bytes file (reading.call direct source) action.2
          readings := filling.readings.set action.1 (reading.after direct source action.2)
          calls := filling.calls ++ [reading.call direct source] } := by
  unfold step at taken
  split at taken
  · cases taken
  case h_2 reading found =>
    simp only at taken
    split at taken
    case isTrue allowed => exact ⟨reading, found, allowed.1, allowed.2, (Option.some.inj taken).symm⟩
    case isFalse => cases taken

end Filling

@[simp] theorem Reading.after_job (reading : Reading) (direct : Bool) (source : Int) (answer : PreadvAnswer) :
    (reading.after direct source answer).job = reading.job := by
  unfold Reading.after
  split
  · rfl
  · rfl
  · simp only
    split
    · split <;> rfl
    · rfl

/-- A sub-read that still calls on the direct descriptor has not read anything yet. -/
def Reading.Switches (reading : Reading) (direct : Bool) : Prop :=
  direct = true → reading.buffered = false → reading.Runs → reading.done = 0

theorem Reading.after_switches (reading : Reading) (direct : Bool) (source : Int) (answer : PreadvAnswer) :
    (reading.after direct source answer).Switches direct := by
  unfold Reading.after
  split
  · exact fun _ _ runs => absurd runs.2 (by simp)
  · exact fun _ _ runs => absurd runs.2 (by simp)
  · rename_i n reopens
    simp only
    split
    · split
      · exact fun _ kept => absurd kept (by simp)
      · exact fun _ _ runs => absurd runs.2 (by simp)
    case isFalse done =>
      intro opened kept runs
      exact absurd ⟨runs.1, opened, kept⟩ done

/-- A call is aligned in the file and in the tile. -/
def PreadvCall.Aligned (call : PreadvCall) : Prop :=
  (ALIGN : Int) ∣ call.offset ∧ ALIGN ∣ call.buffer ∧ ALIGN ∣ call.length

/-- The first call of an aligned job is aligned. -/
theorem Reading.call_aligned {reading : Reading} {direct : Bool} {source : Int} (switches : reading.Switches direct)
    (runs : reading.Runs) (multiple : (ALIGN : Int) ∣ source) (offset : ALIGN ∣ reading.job.offset)
    (length : ALIGN ∣ reading.job.length) (opened : (reading.call direct source).direct = true) :
    (reading.call direct source).Aligned := by
  simp only [Reading.call, Bool.and_eq_true, Bool.not_eq_true'] at opened
  have fresh : reading.done = 0 := switches opened.1 opened.2 runs
  simp only [PreadvCall.Aligned, Reading.call, fresh, Nat.cast_zero, Int.add_zero, Nat.add_zero, Nat.sub_zero]
  exact ⟨Int.dvd_add multiple (Int.natCast_dvd_natCast.mpr offset), offset, length⟩

namespace Filling

/-- The jobs stay what they are, and the direct calls so far are aligned. -/
structure Proper (filling : Filling) (jobs : List RangeReader.SubRead) (direct : Bool) : Prop where
  jobs : filling.readings.map Reading.job = jobs
  switches : ∀ reading ∈ filling.readings, reading.Switches direct
  calls : ∀ call ∈ filling.calls, call.direct = true → call.Aligned

theorem start_proper (bytes : Buffer UInt8) (jobs : List RangeReader.SubRead) (direct : Bool) :
    (start bytes jobs).Proper jobs direct where
  jobs := by
    rw [start, List.map_map]
    exact List.map_id jobs
  switches := by
    intro reading inside
    obtain ⟨job, _, rfl⟩ := List.mem_map.mp inside
    exact fun _ _ _ => rfl
  calls := List.forall_mem_nil _

theorem Proper.step {file : List UInt8} {direct : Bool} {source : Int} {filling next : Filling}
    {jobs : List RangeReader.SubRead} {action : Nat × PreadvAnswer} (proper : filling.Proper jobs direct)
    (aligned : ∀ job ∈ jobs, ALIGN ∣ job.offset ∧ ALIGN ∣ job.length) (multiple : (ALIGN : Int) ∣ source)
    (taken : Filling.step file direct source filling action = some next) : next.Proper jobs direct := by
  obtain ⟨reading, found, runs, _, rfl⟩ := step_some taken
  have member : reading ∈ filling.readings := List.mem_of_getElem? found
  have job : reading.job ∈ jobs := proper.jobs ▸ List.mem_map_of_mem member
  constructor
  · have here : (filling.readings.map Reading.job)[action.1]? = some reading.job := by
      rw [List.getElem?_map, found]
      rfl
    obtain ⟨bound, same⟩ := List.getElem?_eq_some_iff.mp here
    rw [← proper.jobs, List.map_set, Reading.after_job, ← same, List.set_getElem_self]
  · intro other inside
    rcases List.mem_or_eq_of_mem_set inside with earlier | rfl
    · exact proper.switches other earlier
    · exact reading.after_switches direct source action.2
  · intro call inside opened
    rcases List.mem_append.mp inside with earlier | last
    · exact proper.calls call earlier opened
    · cases List.mem_singleton.mp last
      exact Reading.call_aligned (proper.switches reading member) runs multiple (aligned _ job).1 (aligned _ job).2
        opened

/-- Along every run, in whatever order the threads call. -/
theorem Proper.run {file : List UInt8} {direct : Bool} {source : Int} {filling last : Filling}
    {jobs : List RangeReader.SubRead} {actions : List (Nat × PreadvAnswer)} (proper : filling.Proper jobs direct)
    (aligned : ∀ job ∈ jobs, ALIGN ∣ job.offset ∧ ALIGN ∣ job.length) (multiple : (ALIGN : Int) ∣ source)
    (reached : Run.run (Filling.step file direct source) filling actions = some last) : last.Proper jobs direct := by
  have keeps : ∀ filling action next, filling.Proper jobs direct →
      Filling.step file direct source filling action = some next → next.Proper jobs direct :=
    fun _ _ _ kept taken => kept.step aligned multiple taken
  exact Run.run_invariant keeps proper reached

end Filling

open RangeReader

/-- The tiles of a planned batch follow one another through it. Each is read by at most `concurrency`
sub-reads whose buffers lie apart in the tile and whose requirements make up the tile, and whatever
`preadv` answers, each read on the direct descriptor is aligned in the file, in the tile and in memory. -/
theorem tile_reads_aligned_disjoint_complete {DType : Type} (elementSize : DType → Nat) (metadata : Metadata DType)
    {batchBytes : Int} (positive : 0 < batchBytes) (whole : (ALIGN : Int) ∣ batchBytes) {batches : List (Batch DType)}
    (planned : planBatches elementSize metadata batchBytes = .ok batches) {batch : Batch DType}
    (inside : batch ∈ batches) {concurrency tileBytes memoryLimit : Int} {direct : Bool} {owners : Fin 2 → Nat}
    {reader : RangeReader} (multiple : (ALIGN : Int) ∣ tileBytes)
    (made : init concurrency tileBytes memoryLimit direct owners = .ok reader) :
    ((reader.tiles batch).flatMap fun tile => List.range' tile.position tile.length) =
        List.range batch.bytes.toNat ∧
      ∀ tile ∈ reader.tiles batch,
        ((reader.subReads tile.length).length : Int) ≤ concurrency ∧
        (∀ job ∈ reader.subReads tile.length,
          job.length = alignNat job.required ∧ job.offset + job.length ≤ reader.tileBytes) ∧
        (reader.subReads tile.length).Pairwise (fun first second => first.offset + first.length ≤ second.offset) ∧
        ((reader.subReads tile.length).flatMap fun job => List.range' job.offset job.required) =
          List.range tile.length ∧
        ∀ file bytes actions last,
          Run.run (Filling.step file direct (sourceOffset batch tile))
            (Filling.start bytes (reader.subReads tile.length)) actions = some last →
          ∀ call ∈ last.calls, call.direct = true →
            call.Aligned ∧ ∀ slot, (ALIGN : Int) ∣ reader.address slot + call.buffer := by
  obtain ⟨fit, threads⟩ := init_ok made multiple
  refine ⟨fit.tiles_cover batch, ?_⟩
  intro tile member
  obtain ⟨position, small, _⟩ := fit.tile_placed member
  have placed : ∀ job ∈ reader.subReads tile.length, job.Placed tile.length (reader.quantum tile.length) :=
    fun job => fit.subReads_placed small
  refine ⟨?_, ?_, fit.subReads_apart small, reader.subReads_cover tile.length, ?_⟩
  · have count := fit.length_subReads tile.length
    omega
  · intro job here
    exact ⟨(placed job here).rounded, (placed job here).fits.trans (fit.alignNat_le_tile small)⟩
  · intro file bytes actions last reached
    have start : (ALIGN : Int) ∣ batch.start :=
      (((planBatches_ok positive whole planned).choose_spec.1).sound batch inside).aligned
    have source : (ALIGN : Int) ∣ sourceOffset batch tile :=
      Int.dvd_add start (Int.natCast_dvd_natCast.mpr position)
    have aligned : ∀ job ∈ reader.subReads tile.length, ALIGN ∣ job.offset ∧ ALIGN ∣ job.length := by
      intro job here
      refine ⟨(placed job here).aligned, ?_⟩
      rw [(placed job here).rounded]
      exact dvd_alignNat _
    have proper : last.Proper (reader.subReads tile.length) direct :=
      (Filling.start_proper bytes _ direct).run aligned source reached
    intro call issued opened
    have call := proper.calls call issued opened
    exact ⟨call, fun slot => Int.dvd_add (reader.dvd_address slot) (Int.natCast_dvd_natCast.mpr call.2.1)⟩

/-- The second batch of the two tensors, and a reader of two threads over tiles of one block. -/
def lateBatch : Batch Nat := ⟨"a", 0, 6000, [("late", ⟨[3000], 1, 3000, "a", 3000⟩)]⟩

def blockReader : RangeReader := ⟨4096, 2, true, fun slot => 100 + slot⟩

theorem tile_reads_aligned_disjoint_complete_lateBatch :
    ((blockReader.tiles lateBatch).flatMap fun tile => List.range' tile.position tile.length) =
        List.range lateBatch.bytes.toNat ∧
      ∀ tile ∈ blockReader.tiles lateBatch,
        ((blockReader.subReads tile.length).length : Int) ≤ 2 ∧
        (∀ job ∈ blockReader.subReads tile.length,
          job.length = alignNat job.required ∧ job.offset + job.length ≤ blockReader.tileBytes) ∧
        (blockReader.subReads tile.length).Pairwise (fun first second => first.offset + first.length ≤ second.offset) ∧
        ((blockReader.subReads tile.length).flatMap fun job => List.range' job.offset job.required) =
          List.range tile.length ∧
        ∀ file bytes actions last,
          Run.run (Filling.step file true (sourceOffset lateBatch tile))
            (Filling.start bytes (blockReader.subReads tile.length)) actions = some last →
          ∀ call ∈ last.calls, call.direct = true →
            call.Aligned ∧ ∀ slot, (ALIGN : Int) ∣ blockReader.address slot + call.buffer :=
  tile_reads_aligned_disjoint_complete id twoTensors (by decide) (by decide)
    (show planBatches id twoTensors 4096 =
      .ok [⟨"a", 0, 2816, [("early", ⟨[700], 4, 2800, "a", 16⟩)]⟩, lateBatch] from rfl)
    (List.mem_cons_of_mem _ List.mem_cons_self)
    (show (ALIGN : Int) ∣ 4096 by decide)
    (show init 2 4096 16384 true (fun slot => 100 + slot) = .ok blockReader from rfl)

end DgxSpark.Nvme

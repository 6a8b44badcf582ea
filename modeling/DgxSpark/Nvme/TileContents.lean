import DgxSpark.Nvme.TileReads

/-
This file shows what a tile holds: behind every sub-read stand the bytes of the file that it has read, so a tile
whose sub-reads are over holds its piece of the file.
-/

namespace DgxSpark.Nvme

open Library

/-- A failure ends a sub-read, and else it goes on until it has what it requires. -/
theorem Reading.over_required {reading : Reading} (ended : ¬reading.Runs) (fine : reading.failure = none) :
    reading.job.required ≤ reading.done := by
  by_contra less
  exact ended ⟨Nat.lt_of_not_le less, fine⟩

/-- What an answer adds to the bytes that a sub-read has. -/
theorem Reading.after_done (reading : Reading) (direct : Bool) (source : Int) (answer : PreadvAnswer) :
    (reading.after direct source answer).done = reading.done + match answer with
      | .count n _ => n
      | .raised => 0 := by
  cases answer with
  | raised => rfl
  | count n reopens =>
      cases n with
      | zero => rfl
      | succ n =>
          simp only [Reading.after]
          split
          · split <;> rfl
          · rfl

namespace Filling

variable {file : List UInt8} {direct : Bool} {source : Int} {filling next : Filling} {jobs : List RangeReader.SubRead}

/-- The bytes of a sub-read are those of the file. -/
structure Filled (filling : Filling) (file : List UInt8) (source : Int) (jobs : List RangeReader.SubRead) : Prop where
  jobs : filling.readings.map Reading.job = jobs
  within : ∀ (thread : Nat) reading, filling.readings[thread]? = some reading → reading.done ≤ reading.job.length
  held : ∀ (thread : Nat) reading, filling.readings[thread]? = some reading →
    filling.bytes.Holds reading.job.offset file (source.toNat + reading.job.offset) reading.done

theorem start_filled (bytes : Buffer UInt8) (file : List UInt8) (source : Int) (jobs : List RangeReader.SubRead) :
    (start bytes jobs).Filled file source jobs where
  jobs := by
    rw [start, List.map_map]
    exact List.map_id jobs
  within thread reading found := by
    obtain ⟨job, _, rfl⟩ := List.mem_map.mp (List.mem_of_getElem? found)
    exact Nat.zero_le _
  held thread reading found := by
    obtain ⟨job, _, rfl⟩ := List.mem_map.mp (List.mem_of_getElem? found)
    exact Buffer.holds_zero _ _ _ _

theorem Filled.job (filled : filling.Filled file source jobs) {thread : Nat} {reading : Reading}
    (found : filling.readings[thread]? = some reading) : jobs[thread]? = some reading.job := by
  rw [← filled.jobs, List.getElem?_map, found]
  rfl

/-- The buffers of two sub-reads are apart, whichever comes first. -/
theorem Filled.apart (filled : filling.Filled file source jobs)
    (pairwise : jobs.Pairwise fun first second => first.offset + first.length ≤ second.offset) {thread other : Nat}
    {reading beside : Reading} (different : other ≠ thread) (found : filling.readings[thread]? = some reading)
    (there : filling.readings[other]? = some beside) :
    beside.job.offset + beside.job.length ≤ reading.job.offset ∨
      reading.job.offset + reading.job.length ≤ beside.job.offset := by
  obtain ⟨below, same⟩ := List.getElem?_eq_some_iff.mp (filled.job found)
  obtain ⟨limit, equal⟩ := List.getElem?_eq_some_iff.mp (filled.job there)
  rw [List.pairwise_iff_getElem] at pairwise
  rw [← same, ← equal]
  rcases Nat.lt_or_gt_of_ne different with before | behind
  · exact .inl (pairwise other thread limit below before)
  · exact .inr (pairwise thread other below limit behind)

/-- A call puts its bytes behind those of its sub-read and beside those of the others. -/
theorem Filled.received (filled : filling.Filled file source jobs)
    (pairwise : jobs.Pairwise fun first second => first.offset + first.length ≤ second.offset) (low : 0 ≤ source)
    {thread : Nat} {reading : Reading} (found : filling.readings[thread]? = some reading) {n : Nat} {reopens : Bool}
    (legal : (reading.call direct source).Legal file (.count n reopens)) {other : Nat} {beside : Reading}
    (there : filling.readings[other]? = some beside) :
    (Filling.received filling.bytes file (reading.call direct source) (.count n reopens)).Holds beside.job.offset file
      (source.toNat + beside.job.offset) (beside.done + if other = thread then n else 0) := by
  obtain ⟨short, inside, _⟩ := legal
  have offset : (reading.call direct source).offset.toNat = source.toNat + reading.job.offset + reading.done := by
    simp only [Reading.call]
    omega
  rw [offset] at inside
  simp only [Reading.call] at short
  show (filling.bytes.write (reading.job.offset + reading.done)
    ((file.drop (reading.call direct source).offset.toNat).take n)).Holds _ _ _ _
  rw [offset]
  by_cases same : other = thread
  · subst same
    cases found.symm.trans there
    rw [if_pos rfl]
    by_cases none : n = 0
    · subst none
      rw [List.take_zero, Buffer.write_nil]
      exact filled.held other reading found
    · exact (filled.held other reading found).extend (inside none)
  · rw [if_neg same, Nat.add_zero]
    have mine := filled.within other beside there
    have bound : ((file.drop (source.toNat + reading.job.offset + reading.done)).take n).length ≤ n := List.length_take_le ..
    have separate := filled.apart pairwise same found there
    have least := filled.within thread reading found
    apply (filled.held other beside there).beside
    omega

theorem getElem?_set_some {Item : Type} {items : List Item} {place other : Nat} {value item : Item}
    (found : (items.set place value)[other]? = some item) :
    other = place ∧ item = value ∨ other ≠ place ∧ items[other]? = some item := by
  rw [List.getElem?_set] at found
  by_cases same : place = other
  · rw [if_pos same] at found
    split at found
    case isTrue => exact .inl ⟨same.symm, (Option.some.inj found).symm⟩
    case isFalse => cases found
  · rw [if_neg same] at found
    exact .inr ⟨Ne.symm same, found⟩

theorem Filled.step (filled : filling.Filled file source jobs)
    (pairwise : jobs.Pairwise fun first second => first.offset + first.length ≤ second.offset) (low : 0 ≤ source)
    {action : Nat × PreadvAnswer} (taken : Filling.step file direct source filling action = some next) :
    next.Filled file source jobs := by
  obtain ⟨reading, found, runs, legal, rfl⟩ := step_some taken
  obtain ⟨thread, answer⟩ := action
  constructor
  · obtain ⟨inside, same⟩ := List.getElem?_eq_some_iff.mp (filled.job found)
    rw [List.map_set, Reading.after_job, filled.jobs, ← same, List.set_getElem_self]
  · intro other beside there
    rcases getElem?_set_some there with ⟨rfl, rfl⟩ | ⟨_, there⟩
    · have before := filled.within other reading found
      rw [Reading.after_job, Reading.after_done]
      cases answer with
      | raised => exact before
      | count n reopens =>
          have short := legal.1
          simp only [Reading.call] at short
          show reading.done + n ≤ reading.job.length
          omega
    · exact filled.within other beside there
  · intro other beside there
    cases answer with
    | raised =>
        rcases getElem?_set_some there with ⟨rfl, rfl⟩ | ⟨_, there⟩
        · rw [Reading.after_job, Reading.after_done]
          exact filled.held other reading found
        · exact filled.held other beside there
    | count n reopens =>
        rcases getElem?_set_some there with ⟨rfl, rfl⟩ | ⟨different, there⟩
        · have grown := filled.received pairwise low found legal found
          rw [if_pos rfl] at grown
          rw [Reading.after_job, Reading.after_done]
          exact grown
        · have kept := filled.received pairwise low found legal there
          rwa [if_neg different, Nat.add_zero] at kept

/-- A tile whose sub-reads are over without a failure holds its piece of the file. -/
theorem Filled.whole {reader : RangeReader} {length : Nat}
    (filled : filling.Filled file source (reader.subReads length)) (ended : ∀ reading ∈ filling.readings, ¬reading.Runs)
    (fine : ∀ reading ∈ filling.readings, reading.failure = none) :
    filling.bytes.Holds 0 file source.toNat length := by
  intro cell below
  have member : cell ∈ (reader.subReads length).flatMap fun job => List.range' job.offset job.required := by
    rw [reader.subReads_cover length]
    exact List.mem_range.mpr below
  obtain ⟨job, listed, inside⟩ := List.mem_flatMap.mp member
  rw [← filled.jobs] at listed
  obtain ⟨reading, here, rfl⟩ := List.mem_map.mp listed
  obtain ⟨thread, found⟩ := List.mem_iff_getElem?.mp here
  rw [List.mem_range'_1] at inside
  obtain ⟨lane, rfl⟩ := Nat.exists_eq_add_of_le inside.1
  have enough := Reading.over_required (ended reading here) (fine reading here)
  have held := filled.held thread reading found lane (by omega)
  rw [Nat.zero_add, ← Nat.add_assoc]
  exact held

end Filling

end DgxSpark.Nvme

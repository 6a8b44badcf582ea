import Mathlib.Tactic.Ring
import Mathlib.Algebra.BigOperators.Group.Finset.Piecewise
import Mathlib.Algebra.Order.BigOperators.Group.Finset

/-
This file deals positions out to ranks in runs of one length, round after round, and says where each
position stands in the shard of its rank.
-/

namespace DgxSpark.Library

/-- The rank of a position. -/
def ownerOf (ranks run position : Nat) : Nat := position / run % ranks

/-- The place of a position in the shard of its rank. -/
def localOf (ranks run position : Nat) : Nat := position / (ranks * run) * run + position % run

/-- The position at a place of a rank's shard. -/
def globalOf (ranks run rank place : Nat) : Nat := place / run * (ranks * run) + rank * run + place % run

/-- How many of the first positions a rank has. -/
def localCount (ranks run rank total : Nat) : Nat :=
  total / run / ranks * run + min (total - total / run / ranks * run * ranks - rank * run) run

variable {ranks run : Nat}

theorem ownerOf_lt (run : Nat) (someRank : 0 < ranks) (position : Nat) : ownerOf ranks run position < ranks :=
  Nat.mod_lt _ someRank

theorem ownerOf_one (position : Nat) : ownerOf 1 run position = 0 := Nat.mod_one _

theorem localOf_one (position : Nat) : localOf 1 run position = position := by
  rw [localOf, Nat.one_mul, Nat.mul_comm]
  exact Nat.div_add_mod position run

/-- A position by its round, its rank and its place in the run. -/
theorem position_parts (ranks run position : Nat) :
    position = position / (ranks * run) * (ranks * run) + ownerOf ranks run position * run + position % run := by
  have rounds := Nat.div_add_mod (position / run) ranks
  have within := Nat.div_add_mod position run
  have level : position / (ranks * run) = position / run / ranks := by
    rw [Nat.mul_comm ranks run, Nat.div_div_eq_div_mul]
  rw [level, ownerOf]
  calc
    position = run * (position / run) + position % run := within.symm
    _ = run * (ranks * (position / run / ranks) + position / run % ranks) + position % run := by rw [rounds]
    _ = position / run / ranks * (ranks * run) + position / run % ranks * run + position % run := by ring

theorem localOf_div (somePlace : 0 < run) (position : Nat) :
    localOf ranks run position / run = position / (ranks * run) := by
  rw [localOf, Nat.mul_comm, Nat.mul_add_div somePlace, Nat.div_eq_of_lt (Nat.mod_lt _ somePlace), Nat.add_zero]

theorem localOf_mod (position : Nat) : localOf ranks run position % run = position % run := by
  rw [localOf, Nat.mul_comm, Nat.mul_add_mod, Nat.mod_mod]

/-- The place of a position leads back to it. -/
theorem globalOf_localOf (ranks : Nat) {run : Nat} (somePlace : 0 < run) (position : Nat) :
    globalOf ranks run (ownerOf ranks run position) (localOf ranks run position) = position := by
  rw [globalOf, localOf_div somePlace, localOf_mod]
  exact (position_parts ranks run position).symm

/-- The round of a position from its parts. -/
theorem parts_div (somePlace : 0 < run) {round rank place : Nat} (ranked : rank < ranks) (placed : place < run) :
    (round * (ranks * run) + rank * run + place) / (ranks * run) = round := by
  have fits : rank * run + place < ranks * run := by
    have := Nat.mul_le_mul_right run ranked
    rw [Nat.succ_mul] at this
    omega
  have someRanks : 0 < ranks * run := Nat.mul_pos (by omega) somePlace
  rw [Nat.add_assoc, Nat.mul_comm round, Nat.mul_add_div someRanks, Nat.div_eq_of_lt fits, Nat.add_zero]

theorem parts_mod (round rank : Nat) {place : Nat} (placed : place < run) :
    (round * (ranks * run) + rank * run + place) % run = place := by
  have regroup : round * (ranks * run) + rank * run + place = run * (round * ranks + rank) + place := by ring
  rw [regroup, Nat.mul_add_mod, Nat.mod_eq_of_lt placed]

theorem parts_owner (somePlace : 0 < run) {round rank place : Nat} (ranked : rank < ranks) (placed : place < run) :
    ownerOf ranks run (round * (ranks * run) + rank * run + place) = rank := by
  have regroup : round * (ranks * run) + rank * run + place = run * (ranks * round + rank) + place := by ring
  rw [ownerOf, regroup, Nat.mul_add_div somePlace, Nat.div_eq_of_lt placed, Nat.add_zero, Nat.mul_add_mod,
    Nat.mod_eq_of_lt ranked]

theorem ownerOf_globalOf (somePlace : 0 < run) {rank : Nat} (ranked : rank < ranks) (place : Nat) :
    ownerOf ranks run (globalOf ranks run rank place) = rank :=
  parts_owner somePlace ranked (Nat.mod_lt _ somePlace)

theorem localOf_globalOf (somePlace : 0 < run) {rank : Nat} (ranked : rank < ranks) (place : Nat) :
    localOf ranks run (globalOf ranks run rank place) = place := by
  have inside := Nat.mod_lt place somePlace
  rw [localOf, globalOf, parts_div somePlace ranked inside, parts_mod _ _ inside, Nat.mul_comm]
  exact Nat.div_add_mod place run

/-- Two positions of one rank have different places. -/
theorem localOf_injective (somePlace : 0 < run) {first second : Nat}
    (together : ownerOf ranks run first = ownerOf ranks run second)
    (same : localOf ranks run first = localOf ranks run second) : first = second := by
  rw [← globalOf_localOf ranks somePlace first, together, same, globalOf_localOf ranks somePlace]

section Blocks

variable (ranks) {block : Nat}

/-- The rank of a position from its offset in a virtual block, one block for each rank. -/
theorem ownerOf_virtual (divides : run ∣ block) (position : Nat) :
    position % (block * ranks) / run % ranks = ownerOf ranks run position := by
  obtain ⟨runs, rfl⟩ := divides
  have regroup : run * runs * ranks = run * (ranks * runs) := by ring
  rw [regroup, Nat.mod_mul_right_div_self, Nat.mod_mod_of_dvd _ (Nat.dvd_mul_right ranks runs), ownerOf]

/-- The place within the virtual block. -/
theorem localOf_virtual_mod (divides : run ∣ block) (position : Nat) :
    position % (block * ranks) / (run * ranks) * run + position % (block * ranks) % run =
      localOf ranks run position % block := by
  obtain ⟨runs, rfl⟩ := divides
  have regroup : run * runs * ranks = run * ranks * runs := by ring
  have within : run ∣ run * ranks * runs := ⟨ranks * runs, by ring⟩
  rw [regroup, Nat.mod_mul_right_div_self, Nat.mod_mod_of_dvd _ within]
  by_cases someRun : run = 0
  · subst someRun
    simp [localOf]
  · rw [Nat.mod_mul, localOf_div (Nat.pos_of_ne_zero someRun), localOf_mod, Nat.mul_comm run ranks]
    ring

/-- The virtual block of a position is the block of its place. -/
theorem localOf_virtual_div (someBlock : 0 < block) (divides : run ∣ block) (position : Nat) :
    position / (block * ranks) = localOf ranks run position / block := by
  have someRun := Nat.pos_of_dvd_of_pos divides someBlock
  obtain ⟨runs, rfl⟩ := divides
  have regroup : run * runs * ranks = ranks * run * runs := by ring
  rw [regroup, ← Nat.div_div_eq_div_mul, ← Nat.div_div_eq_div_mul _ run runs, localOf_div someRun]

/-- The place of a position from its virtual block and its offset there. -/
theorem localOf_virtual (someBlock : 0 < block) (divides : run ∣ block) (position : Nat) :
    position / (block * ranks) * block +
        (position % (block * ranks) / (run * ranks) * run + position % (block * ranks) % run) =
      localOf ranks run position := by
  rw [localOf_virtual_mod ranks divides, localOf_virtual_div ranks someBlock divides, Nat.mul_comm]
  exact Nat.div_add_mod _ _

end Blocks

/-- The count by the parts of the total, also at the end of a run. -/
theorem localCount_parts (somePlace : 0 < run) {rank atRank : Nat} (ranked : rank < ranks)
    (atRanked : atRank < ranks) (round place : Nat) (placed : place ≤ run) :
    localCount ranks run rank (round * (ranks * run) + atRank * run + place) =
      round * run + min (atRank * run + place - rank * run) run := by
  have inside : ∀ {round atRank place : Nat}, atRank < ranks → place < run →
      localCount ranks run rank (round * (ranks * run) + atRank * run + place) =
        round * run + min (atRank * run + place - rank * run) run := by
    intro round atRank place atRanked placed
    have level : (round * (ranks * run) + atRank * run + place) / run / ranks = round := by
      rw [Nat.div_div_eq_div_mul, Nat.mul_comm run ranks, parts_div somePlace atRanked placed]
    have rest : round * (ranks * run) + atRank * run + place - round * run * ranks = atRank * run + place := by
      have regroup : round * (ranks * run) = round * run * ranks := by ring
      omega
    rw [localCount, level, rest]
  cases Nat.lt_or_eq_of_le placed with
  | inl less => exact inside atRanked less
  | inr full =>
      subst full
      by_cases last : atRank + 1 < ranks
      · have regroup : round * (ranks * place) + atRank * place + place =
            round * (ranks * place) + (atRank + 1) * place + 0 := by ring
        rw [regroup, inside last somePlace, Nat.succ_mul, Nat.add_zero]
      · have ended : ranks = atRank + 1 := by omega
        have regroup : round * (ranks * place) + atRank * place + place =
            (round + 1) * (ranks * place) + 0 * place + 0 := by
          subst ended
          ring
        have beyond : rank * place + place ≤ atRank * place + place := by
          have := Nat.mul_le_mul_right place (show rank ≤ atRank by omega)
          omega
        rw [regroup, inside (by omega) somePlace, Nat.succ_mul]
        omega

/-- One more position: its rank has one more, and the position stands at the end of the shard. -/
theorem localCount_succ (somePlace : 0 < run) {rank : Nat} (ranked : rank < ranks) (total : Nat) :
    localCount ranks run rank (total + 1) =
        localCount ranks run rank total + (if ownerOf ranks run total = rank then 1 else 0) ∧
      (ownerOf ranks run total = rank → localOf ranks run total = localCount ranks run rank total) := by
  have someRank : 0 < ranks := by omega
  have owned := ownerOf_lt run someRank total
  have placed := Nat.mod_lt total somePlace
  have parts := position_parts ranks run total
  have here := localCount_parts somePlace ranked owned (total / (ranks * run)) (total % run) placed.le
  have next := localCount_parts somePlace ranked owned (total / (ranks * run)) (total % run + 1) placed
  rw [← parts] at here
  rw [← Nat.add_assoc, ← parts] at next
  rw [here, next, localOf]
  by_cases same : ownerOf ranks run total = rank
  · rw [if_pos same, same]
    constructor
    · omega
    · intro
      omega
  · rw [if_neg same]
    refine ⟨?_, fun equal => absurd equal same⟩
    cases Nat.lt_or_gt_of_ne same with
    | inl before =>
        have := Nat.mul_le_mul_right run before
        rw [Nat.succ_mul] at this
        omega
    | inr after =>
        have := Nat.mul_le_mul_right run after
        rw [Nat.succ_mul] at this
        omega

theorem localCount_zero (rank : Nat) : localCount ranks run rank 0 = 0 := by
  simp [localCount]

/-- The count is the number of positions of the rank. -/
theorem localCount_eq_card (somePlace : 0 < run) {rank : Nat} (ranked : rank < ranks) (total : Nat) :
    localCount ranks run rank total =
      ((Finset.range total).filter fun position => ownerOf ranks run position = rank).card := by
  induction total with
  | zero => simp [localCount_zero]
  | succ total ih =>
      rw [(localCount_succ somePlace ranked total).1, ih, Finset.range_add_one, Finset.filter_insert]
      by_cases same : ownerOf ranks run total = rank
      · simp [same]
      · simp [same]

/-- The places below the count are those of the positions below the total. -/
theorem lt_localCount_iff (somePlace : 0 < run) {rank : Nat} (ranked : rank < ranks) (total place : Nat) :
    place < localCount ranks run rank total ↔
      ∃ position, position < total ∧ ownerOf ranks run position = rank ∧ localOf ranks run position = place := by
  induction total with
  | zero => simp [localCount_zero]
  | succ total ih =>
      obtain ⟨grown, last⟩ := localCount_succ somePlace ranked total
      rw [grown]
      constructor
      · intro inside
        by_cases before : place < localCount ranks run rank total
        · obtain ⟨position, below, owned, stands⟩ := ih.mp before
          exact ⟨position, by omega, owned, stands⟩
        · by_cases same : ownerOf ranks run total = rank
          · rw [if_pos same] at inside
            have ended := last same
            exact ⟨total, by omega, same, by omega⟩
          · rw [if_neg same] at inside
            omega
      · rintro ⟨position, below, owned, stands⟩
        by_cases early : position < total
        · have := ih.mpr ⟨position, early, owned, stands⟩
          omega
        · have here : position = total := by omega
          subst here
          rw [if_pos owned, ← last owned]
          omega

theorem localCount_mono (somePlace : 0 < run) {rank : Nat} (ranked : rank < ranks) {first second : Nat}
    (below : first ≤ second) : localCount ranks run rank first ≤ localCount ranks run rank second := by
  induction below with
  | refl => exact le_rfl
  | step _ ih =>
      rw [(localCount_succ somePlace ranked _).1]
      omega

/-- A rank that is alone has every position. -/
theorem localCount_one (somePlace : 0 < run) (total : Nat) : localCount 1 run 0 total = total := by
  rw [localCount_eq_card somePlace Nat.one_pos]
  simp [ownerOf_one]

/-- The ranks share the positions out. -/
theorem localCount_sum (someRank : 0 < ranks) (somePlace : 0 < run) (total : Nat) :
    ∑ rank ∈ Finset.range ranks, localCount ranks run rank total = total := by
  induction total with
  | zero => simp [localCount_zero]
  | succ total ih =>
      have step : ∀ rank ∈ Finset.range ranks, localCount ranks run rank (total + 1) =
          localCount ranks run rank total + (if ownerOf ranks run total = rank then 1 else 0) := by
        intro rank member
        exact (localCount_succ somePlace (Finset.mem_range.mp member) total).1
      rw [Finset.sum_congr rfl step, Finset.sum_add_distrib, ih, Finset.sum_ite_eq,
        if_pos (Finset.mem_range.mpr (ownerOf_lt run someRank total))]

end DgxSpark.Library

import DgxSpark.Dcp.SparseUtils

/-
This file says that the writer of the KV cache and the reader of the top-k indices address the same slots.
-/

namespace DgxSpark.Dcp
open DgxSpark.Library

variable {cpSize interleave : Nat}

/-- A place in a table of distinct blocks is in one slot only. -/
theorem slot_injective {group : Group cpSize interleave} {reqStateIdx first second : Nat}
    (distinct : ∀ left right, left < group.stride → right < group.stride →
      group.row reqStateIdx left = group.row reqStateIdx right → left = right)
    (firstInside : first / group.kernelBlockSize < group.stride)
    (secondInside : second / group.kernelBlockSize < group.stride)
    (same : group.row reqStateIdx (first / group.kernelBlockSize) * group.kernelBlockSize +
        ((first % group.kernelBlockSize : Nat) : Int) =
      group.row reqStateIdx (second / group.kernelBlockSize) * group.kernelBlockSize +
        ((second % group.kernelBlockSize : Nat) : Int)) : first = second := by
  have positive : (0 : Int) < group.kernelBlockSize := by exact_mod_cast group.kernelBlockSize_pos
  have bound : ∀ place : Nat, ((place % group.kernelBlockSize : Nat) : Int) < group.kernelBlockSize := by
    intro place
    exact_mod_cast Nat.mod_lt place group.kernelBlockSize_pos
  have split : ∀ (block : Int) (place : Nat),
      (block * group.kernelBlockSize + ((place % group.kernelBlockSize : Nat) : Int)) / group.kernelBlockSize =
        block := by
    intro block place
    rw [Int.mul_comm, Int.mul_add_ediv_left _ _ positive.ne', Int.ediv_eq_zero_of_lt (by omega) (bound place),
      Int.add_zero]
  have blocks := congrArg (· / (group.kernelBlockSize : Int)) same
  simp only [split] at blocks
  have columns := distinct _ _ firstInside secondInside blocks
  rw [blocks] at same
  have offsets : first % group.kernelBlockSize = second % group.kernelBlockSize := by
    have := Int.add_left_cancel same
    exact_mod_cast this
  rw [← Nat.div_add_mod first group.kernelBlockSize, columns, offsets, Nat.div_add_mod]

/-- Two positions of one rank have different slots. -/
theorem slotOf_injective {group : Group cpSize interleave} {cpRank reqStateIdx first second : Nat} {PAD_ID : Int}
    (distinct : ∀ left right, left < group.stride → right < group.stride →
      group.row reqStateIdx left = group.row reqStateIdx right → left = right)
    (firstOwned : group.groupCp = 1 ∨ ownerOf group.groupCp interleave first = cpRank)
    (secondOwned : group.groupCp = 1 ∨ ownerOf group.groupCp interleave second = cpRank)
    (firstInside : localOf group.groupCp interleave first / group.kernelBlockSize < group.stride)
    (secondInside : localOf group.groupCp interleave second / group.kernelBlockSize < group.stride)
    (different : first ≠ second) :
    slotOf group cpRank PAD_ID reqStateIdx first ≠ slotOf group cpRank PAD_ID reqStateIdx second := by
  intro same
  simp only [slotOf, Int.toNat_natCast] at same
  rw [if_pos ⟨by omega, firstOwned, firstInside⟩, if_pos ⟨by omega, secondOwned, secondInside⟩] at same
  have places := slot_injective distinct firstInside secondInside same
  apply different
  apply localOf_injective group.interleave_pos ?_ places
  by_cases replicated : group.groupCp = 1
  · rw [replicated, ownerOf_one, ownerOf_one]
  · rw [firstOwned.resolve_left replicated, secondOwned.resolve_left replicated]

/-- A token of a request stands at an offset of the batch. -/
structure Batch.At (batch : Batch) (batchIdx offset : Nat) : Prop where
  request : batchIdx < batch.numReqs
  lower : batch.queryStartLoc batchIdx ≤ offset
  upper : offset < batch.queryStartLoc (batchIdx + 1)

/-- The conversion reads the row of a request through a table of the same width. -/
structure Conversion.Reads (conversion : Conversion) (group : Group cpSize interleave) (tokenId reqStateIdx : Nat) :
    Prop where
  width : conversion.maxNumBlocksPerReq = group.stride
  row : ∀ column, column < group.stride →
    conversion.blockTable (conversion.reqId tokenId * conversion.maxNumBlocksPerReq + column) =
      group.row reqStateIdx column

/-- A lane of the conversion on a rank is the slot of its position there. -/
theorem convertLane_eq_slotOf {conversion : Conversion} {group : Group cpSize interleave}
    {cpRank tokenId indiceId reqStateIdx : Nat} (someRank : 0 < cpSize) (sharded : group.groupCp = cpSize)
    (reads : conversion.Reads group tokenId reqStateIdx) :
    (convertLane conversion none group.kernelBlockSize cpSize cpRank interleave tokenId indiceId).1 =
      slotOf group cpRank (-1) reqStateIdx (conversion.tokenIndices tokenId indiceId) := by
  by_cases negative : conversion.tokenIndices tokenId indiceId < 0
  · rw [convertLane_negative _ _ negative, slotOf_negative _ _ _ _ negative]
  obtain ⟨p, read⟩ := Int.eq_ofNat_of_zero_le (not_lt.mp negative)
  rw [read, convertLane_natCast tokenId indiceId p someRank read, slotOf, Int.toNat_natCast, sharded, reads.width]
  by_cases owned : (cpSize = 1 ∨ ownerOf cpSize interleave p = cpRank) ∧
      localOf cpSize interleave p / group.kernelBlockSize < group.stride
  · have row := reads.row _ owned.2
    rw [reads.width] at row
    rw [if_pos owned, if_pos ⟨by omega, owned⟩, row]
  · rw [if_neg owned, if_neg fun all => owned all.2]

/-- Two ranks with a run of one: rank 1 of a group of one block of two tokens. -/
def oneBlock : Group 2 1 where
  blockTable := fun _ => 5
  stride := 1
  blockSize := 2
  kernelBlockSize := 2
  groupCp := 2
  slotMappingEnabled := true
  blockSize_pos := by decide
  kernelBlockSize_dvd := dvd_rfl
  interleave_dvd := one_dvd 2
  groupCp_eq := Or.inr rfl

/-- One request of four tokens. -/
def fourTokens : Batch where
  numReqs := 1
  idxMapping := fun _ => 0
  queryStartLoc := fun index => 4 * index
  pos := fun offset => offset
  ordered := fun _ _ below => Nat.mul_le_mul_left 4 below

end DgxSpark.Dcp

import DgxSpark.Library.Grid
import DgxSpark.Library.Interleave
import Mathlib.Data.List.ProdSigma
import Mathlib.Order.Monotone.Basic

/-
This file embeds both `_compute_slot_mappings_kernel` of `worker/gpu/block_table.py`: the one of vLLM 0.29
and the legacy one. Division is the truncating one of the kernels, and integers are exact.
-/

namespace DgxSpark.Dcp
open DgxSpark.Library

/-- A KV cache group as `BlockTables` is built with it, and its block table. -/
structure Group (cpSize interleave : Nat) where
  blockTable : Nat → Int
  stride : Nat
  blockSize : Nat
  kernelBlockSize : Nat
  groupCp : Nat
  slotMappingEnabled : Bool
  blockSize_pos : 0 < blockSize
  kernelBlockSize_dvd : kernelBlockSize ∣ blockSize
  interleave_dvd : interleave ∣ kernelBlockSize
  groupCp_eq : groupCp = 1 ∨ groupCp = cpSize

/-- The tokens of a step, request after request. -/
structure Batch where
  numReqs : Nat
  idxMapping : Nat → Nat
  queryStartLoc : Nat → Nat
  pos : Nat → Int
  ordered : Monotone queryStartLoc

variable {cpSize interleave : Nat}

/-- A row of a group's table. -/
def Group.row (group : Group cpSize interleave) (reqStateIdx column : Nat) : Int :=
  group.blockTable (reqStateIdx * group.stride + column)

theorem Group.kernelBlockSize_pos (group : Group cpSize interleave) : 0 < group.kernelBlockSize :=
  Nat.pos_of_dvd_of_pos group.kernelBlockSize_dvd group.blockSize_pos

theorem Group.interleave_pos (group : Group cpSize interleave) : 0 < interleave :=
  Nat.pos_of_dvd_of_pos group.interleave_dvd group.kernelBlockSize_pos

section Kernels

variable (cpRank : Nat) (PAD_ID : Int)

/-- `local_positions` and `is_local` in the kernel of vLLM 0.29. -/
def localPositions (group : Group cpSize interleave) (positions : Int) : Int × Bool :=
  if group.groupCp = 1 then (positions, true)
  else
    let virtualBlockSize : Int := group.blockSize * group.groupCp
    let virtualBlockIndices := positions.tdiv virtualBlockSize
    let virtualBlockOffsets := positions.tmod virtualBlockSize
    let isLocal := decide ((virtualBlockOffsets.tdiv interleave).tmod group.groupCp = cpRank)
    let rounds := virtualBlockOffsets.tdiv (interleave * group.groupCp)
    let remainder := virtualBlockOffsets.tmod interleave
    let localOffsets := rounds * interleave + remainder
    (virtualBlockIndices * group.blockSize + localOffsets, isLocal)

/-- The slot of one lane in the kernel of vLLM 0.29. -/
def slotIds (group : Group cpSize interleave) (reqStateIdx : Nat) (inRange : Bool) (positions : Int) : Int :=
  let (localPositions, isLocal) := localPositions cpRank group positions
  let blockIndices := if group.slotMappingEnabled then localPositions.tdiv group.kernelBlockSize else 0
  let blockOffsets := localPositions.tmod group.kernelBlockSize
  let validBlock := decide (0 ≤ positions ∧ blockIndices < group.stride)
  let blockNumbers := maskedLoad (isLocal && validBlock && inRange)
    (group.blockTable (reqStateIdx * group.stride + blockIndices).toNat) 0
  let slots := blockNumbers * group.kernelBlockSize + blockOffsets
  let slots := if group.groupCp ≠ 1 then (if isLocal then slots else PAD_ID) else slots
  if group.slotMappingEnabled && validBlock then slots else PAD_ID

/-- The slot of one lane in the legacy kernel. -/
def legacySlotIds (mixedCp : Bool) (group : Group cpSize interleave) (reqStateIdx : Nat) (inRange : Bool)
    (positions : Int) : Int :=
  let groupCp := if mixedCp then group.groupCp else cpSize
  let groupRank := if mixedCp then (if groupCp = 1 then 0 else cpRank) else cpRank
  let blockIndices := positions.tdiv (group.kernelBlockSize * groupCp)
  let blockOffsets := positions.tmod (group.kernelBlockSize * groupCp)
  let validBlock := decide (0 ≤ positions ∧ blockIndices < group.stride)
  let blockNumbers := maskedLoad (inRange && validBlock)
    (group.blockTable (reqStateIdx * group.stride + blockIndices).toNat) 0
  let slots :=
    if groupCp = 1 then blockNumbers * group.kernelBlockSize + blockOffsets
    else
      let isLocal := decide ((blockOffsets.tdiv interleave).tmod groupCp = groupRank)
      let rounds := blockOffsets.tdiv (interleave * groupCp)
      let remainder := blockOffsets.tmod interleave
      let localOffsets := rounds * interleave + remainder
      let slots := blockNumbers * group.kernelBlockSize + localOffsets
      if isLocal then slots else PAD_ID
  if validBlock then slots else PAD_ID

/-- The stores of one program of either kernel, which differ in the slot of a lane. -/
def slotMappingStores (groups : List (Group cpSize interleave)) (batch : Batch) (maxNumTokens TRITON_BLOCK_SIZE : Nat)
    (slot : Group cpSize interleave → Nat → Bool → Int → Int) (program : Nat × Nat) : List ((Nat × Nat) × Int) :=
  let (groupId, batchIdx) := program
  match groups[groupId]? with
  | none => []
  | some group =>
      if batchIdx = batch.numReqs then
        (rangeStep (batch.queryStartLoc batchIdx) maxNumTokens TRITON_BLOCK_SIZE).flatMap fun i =>
          (arange i TRITON_BLOCK_SIZE).flatMap fun offset =>
            maskedStore (offset < maxNumTokens) (groupId, offset) PAD_ID
      else
        let endIdx := batch.queryStartLoc (batchIdx + 1)
        (rangeStep (batch.queryStartLoc batchIdx) endIdx TRITON_BLOCK_SIZE).flatMap fun i =>
          (arange i TRITON_BLOCK_SIZE).flatMap fun offset =>
            let positions := maskedLoad (offset < endIdx) (batch.pos offset) 0
            maskedStore (offset < endIdx) (groupId, offset)
              (slot group (batch.idxMapping batchIdx) (decide (offset < endIdx)) positions)

/-- The programs of a launch: one for each request of a group, and one more that pads. -/
def slotMappingGrid (groups : List (Group cpSize interleave)) (batch : Batch) : List (Nat × Nat) :=
  List.range groups.length ×ˢ List.range (batch.numReqs + 1)

/-- `_compute_slot_mappings_kernel` of vLLM 0.29. -/
def computeSlotMappingsKernel (groups : List (Group cpSize interleave)) (batch : Batch)
    (maxNumTokens TRITON_BLOCK_SIZE : Nat) : Nat × Nat → List ((Nat × Nat) × Int) :=
  slotMappingStores PAD_ID groups batch maxNumTokens TRITON_BLOCK_SIZE (slotIds cpRank PAD_ID)

/-- The legacy `_compute_slot_mappings_kernel`, with the `MIXED_CP` that its `BlockTables` passes. -/
def legacySlotMappingsKernel (groups : List (Group cpSize interleave)) (batch : Batch)
    (maxNumTokens TRITON_BLOCK_SIZE : Nat) : Nat × Nat → List ((Nat × Nat) × Int) :=
  let mixedCp := groups.any fun group => group.groupCp ≠ cpSize
  slotMappingStores PAD_ID groups batch maxNumTokens TRITON_BLOCK_SIZE (legacySlotIds cpRank PAD_ID mixedCp)

end Kernels

/-- The slot of a position: the one of its place in the shard, on its rank and inside the table. -/
def slotOf (group : Group cpSize interleave) (rank : Nat) (PAD_ID : Int) (reqStateIdx : Nat) (position : Int) : Int :=
  let place := localOf group.groupCp interleave position.toNat
  if 0 ≤ position ∧ (group.groupCp = 1 ∨ ownerOf group.groupCp interleave position.toNat = rank) ∧
      place / group.kernelBlockSize < group.stride then
    group.row reqStateIdx (place / group.kernelBlockSize) * group.kernelBlockSize +
      (place % group.kernelBlockSize : Nat)
  else PAD_ID

section Slots

variable (cpRank : Nat) (PAD_ID : Int) (group : Group cpSize interleave) (reqStateIdx : Nat)

/-- The place in the shard, by way of the virtual KV blocks. -/
theorem localPositions_eq (p : Nat) :
    localPositions cpRank group p = (((localOf group.groupCp interleave p : Nat) : Int),
      decide (group.groupCp = 1 ∨ ownerOf group.groupCp interleave p = cpRank)) := by
  have divides : interleave ∣ group.blockSize := group.interleave_dvd.trans group.kernelBlockSize_dvd
  by_cases replicated : group.groupCp = 1
  · simp [localPositions, replicated, localOf_one]
  · have place := localOf_virtual group.groupCp group.blockSize_pos divides p
    have owner := ownerOf_virtual group.groupCp divides p
    simp only [localPositions, replicated, if_false, false_or]
    rw [← place, ← owner]
    apply Prod.ext
    · rfl
    · apply decide_eq_decide.mpr
      exact Int.ofNat_inj

theorem slotOf_negative {position : Int} (negative : position < 0) :
    slotOf group cpRank PAD_ID reqStateIdx position = PAD_ID := by
  apply if_neg
  omega

/-- The kernel of vLLM 0.29 computes the slot of the position. -/
theorem slotIds_eq (position : Int) (enabled : group.slotMappingEnabled = true) :
    slotIds cpRank PAD_ID group reqStateIdx true position = slotOf group cpRank PAD_ID reqStateIdx position := by
  by_cases negative : position < 0
  · rw [slotOf_negative _ _ _ _ negative]
    simp [slotIds, not_le.mpr negative]
  obtain ⟨p, rfl⟩ := Int.eq_ofNat_of_zero_le (not_lt.mp negative)
  simp only [slotIds, localPositions_eq, enabled, slotOf, Int.toNat_natCast]
  generalize localOf group.groupCp interleave p = place
  have block : (place : Int).tdiv group.kernelBlockSize = (place / group.kernelBlockSize : Nat) := rfl
  have rest : (place : Int).tmod group.kernelBlockSize = (place % group.kernelBlockSize : Nat) := rfl
  simp only [block, rest]
  generalize place / group.kernelBlockSize = column
  have columnPlace : (reqStateIdx * group.stride + (column : Int)).toNat = reqStateIdx * group.stride + column := by
    omega
  by_cases owned : group.groupCp = 1 ∨ ownerOf group.groupCp interleave p = cpRank
  · by_cases inside : column < group.stride
    · simp [owned, inside, maskedLoad, Group.row, columnPlace]
    · simp [inside]
  · have sharded : group.groupCp ≠ 1 := fun replicated => owned (Or.inl replicated)
    have elsewhere : ownerOf group.groupCp interleave p ≠ cpRank := fun here => owned (Or.inr here)
    simp [sharded, elsewhere]

/-- So does the legacy kernel, by way of the virtual kernel blocks. -/
theorem legacySlotIds_eq (position : Int) {mixedCp : Bool}
    (mixed : mixedCp = false → group.groupCp = cpSize) :
    legacySlotIds cpRank PAD_ID mixedCp group reqStateIdx true position =
      slotOf group cpRank PAD_ID reqStateIdx position := by
  by_cases negative : position < 0
  · rw [slotOf_negative _ _ _ _ negative]
    simp [legacySlotIds, not_le.mpr negative]
  obtain ⟨p, rfl⟩ := Int.eq_ofNat_of_zero_le (not_lt.mp negative)
  have ownCp : (if mixedCp then group.groupCp else cpSize) = group.groupCp := by
    cases mixedCp with
    | true => rfl
    | false => exact (mixed rfl).symm
  have ownRank : group.groupCp ≠ 1 →
      (if mixedCp then (if group.groupCp = 1 then 0 else cpRank) else cpRank) = cpRank := by
    intro sharded
    simp [sharded]
  have place := localOf_virtual_div group.groupCp group.kernelBlockSize_pos group.interleave_dvd p
  have offset := localOf_virtual_mod group.groupCp group.interleave_dvd p
  have owner := ownerOf_virtual group.groupCp group.interleave_dvd p
  have block : (p : Int).tdiv (group.kernelBlockSize * group.groupCp) =
      (p / (group.kernelBlockSize * group.groupCp) : Nat) := rfl
  simp only [legacySlotIds, ownCp, slotOf, Int.toNat_natCast, block, place]
  generalize localOf group.groupCp interleave p / group.kernelBlockSize = column
  have columnPlace : (reqStateIdx * group.stride + (column : Int)).toNat = reqStateIdx * group.stride + column := by
    omega
  by_cases inside : column < group.stride
  · by_cases replicated : group.groupCp = 1
    · have whole : (p : Int).tmod (group.kernelBlockSize * group.groupCp) =
          (localOf group.groupCp interleave p % group.kernelBlockSize : Nat) := by
        rw [replicated, localOf_one, Nat.cast_one, mul_one]
        rfl
      simp only [whole]
      simp [replicated, inside, maskedLoad, Group.row, columnPlace]
    · have owned : (((p : Int).tmod (group.kernelBlockSize * group.groupCp)).tdiv interleave).tmod group.groupCp =
          (ownerOf group.groupCp interleave p : Nat) := by
        rw [← owner]
        rfl
      have localOffset : ((p : Int).tmod (group.kernelBlockSize * group.groupCp)).tdiv
            (interleave * group.groupCp) * interleave +
          ((p : Int).tmod (group.kernelBlockSize * group.groupCp)).tmod interleave =
            (localOf group.groupCp interleave p % group.kernelBlockSize : Nat) := by
        rw [← offset]
        rfl
      simp only [owned, localOffset, ownRank replicated]
      simp [replicated, inside, maskedLoad, Group.row, columnPlace]
  · simp [inside]

end Slots

section Launch

variable {groups : List (Group cpSize interleave)} {batch : Batch} {maxNumTokens TRITON_BLOCK_SIZE : Nat}
  {cpRank : Nat} {PAD_ID : Int} {slot : Group cpSize interleave → Nat → Bool → Int → Int}
  {groupId : Nat} {group : Group cpSize interleave}

/-- What a launch stores at a place of a group: the slot of the token there, or the padding. -/
theorem slotMapping_stored {offset : Nat} {value : Int} (someLane : 0 < TRITON_BLOCK_SIZE)
    (here : groups[groupId]? = some group) :
    (∃ program ∈ slotMappingGrid groups batch, ((groupId, offset), value) ∈
        slotMappingStores PAD_ID groups batch maxNumTokens TRITON_BLOCK_SIZE slot program) ↔
      (∃ batchIdx, batchIdx < batch.numReqs ∧ batch.queryStartLoc batchIdx ≤ offset ∧
        offset < batch.queryStartLoc (batchIdx + 1) ∧
          value = slot group (batch.idxMapping batchIdx) true (batch.pos offset)) ∨
        (batch.queryStartLoc batch.numReqs ≤ offset ∧ offset < maxNumTokens ∧ value = PAD_ID) := by
  have bound := (List.getElem?_eq_some_iff.mp here).1
  constructor
  · rintro ⟨⟨otherGroup, batchIdx⟩, launched, member⟩
    obtain ⟨grouped, ranged⟩ := List.mem_product.mp launched
    rw [List.mem_range] at grouped ranged
    simp only [slotMappingStores, List.getElem?_eq_getElem grouped] at member
    by_cases last : batchIdx = batch.numReqs
    · simp only [last, if_true, List.mem_flatMap, mem_maskedStore, Prod.mk.injEq] at member
      obtain ⟨tile, tiled, lane, laned, inside, ⟨-, rfl⟩, rfl⟩ := member
      have := le_of_mem_rangeStep tiled
      have := le_of_mem_arange laned
      exact Or.inr ⟨by omega, inside, rfl⟩
    · simp only [last, if_false, List.mem_flatMap, mem_maskedStore, Prod.mk.injEq] at member
      obtain ⟨tile, tiled, lane, laned, inside, ⟨rfl, rfl⟩, rfl⟩ := member
      have := le_of_mem_rangeStep tiled
      have := le_of_mem_arange laned
      rw [List.getElem?_eq_getElem grouped, Option.some.injEq] at here
      refine Or.inl ⟨batchIdx, by omega, by omega, inside, ?_⟩
      simp [inside, maskedLoad, here]
  · rintro (⟨batchIdx, request, lower, upper, rfl⟩ | ⟨lower, inside, rfl⟩)
    · obtain ⟨tile, tiled, laned⟩ := exists_lane someLane lower upper
      refine ⟨(groupId, batchIdx), ?_, ?_⟩
      · simp only [slotMappingGrid, List.mem_product, List.mem_range]
        omega
      · have notLast : batchIdx ≠ batch.numReqs := by omega
        simp only [slotMappingStores, here, notLast, if_false, List.mem_flatMap, mem_maskedStore]
        exact ⟨tile, tiled, offset, laned, upper, by simp [upper, maskedLoad]⟩
    · obtain ⟨tile, tiled, laned⟩ := exists_lane someLane lower inside
      refine ⟨(groupId, batch.numReqs), ?_, ?_⟩
      · simp only [slotMappingGrid, List.mem_product, List.mem_range]
        omega
      · simp only [slotMappingStores, here, if_true, List.mem_flatMap, mem_maskedStore]
        exact ⟨tile, tiled, offset, laned, inside, rfl⟩

/-- The request of a token is the only one whose range holds it. -/
theorem Batch.request_unique {first second offset : Nat} (batch : Batch)
    (firstLower : batch.queryStartLoc first ≤ offset) (firstUpper : offset < batch.queryStartLoc (first + 1))
    (secondLower : batch.queryStartLoc second ≤ offset) (secondUpper : offset < batch.queryStartLoc (second + 1)) :
    first = second :=
  segment_unique batch.ordered firstLower firstUpper secondLower secondUpper

/-- A token stands before the padding. -/
theorem Batch.request_before {batchIdx offset : Nat} (batch : Batch) (request : batchIdx < batch.numReqs)
    (upper : offset < batch.queryStartLoc (batchIdx + 1)) : offset < batch.queryStartLoc batch.numReqs :=
  Nat.lt_of_lt_of_le upper (batch.ordered request)

variable {memory final : Nat × Nat → Int}

/-- After a launch a token of a request has its slot. -/
theorem slotMapping_token (someLane : 0 < TRITON_BLOCK_SIZE) (here : groups[groupId]? = some group)
    (launched : Launched (slotMappingGrid groups batch)
      (slotMappingStores PAD_ID groups batch maxNumTokens TRITON_BLOCK_SIZE slot) memory final)
    {batchIdx offset : Nat} (request : batchIdx < batch.numReqs) (lower : batch.queryStartLoc batchIdx ≤ offset)
    (upper : offset < batch.queryStartLoc (batchIdx + 1)) :
    final (groupId, offset) = slot group (batch.idxMapping batchIdx) true (batch.pos offset) := by
  apply launched.written
  · exact (slotMapping_stored someLane here).mpr (Or.inl ⟨batchIdx, request, lower, upper, rfl⟩)
  · intro program inside value member
    cases (slotMapping_stored someLane here).mp ⟨program, inside, member⟩ with
    | inl token =>
        obtain ⟨otherIdx, -, otherLower, otherUpper, rfl⟩ := token
        rw [batch.request_unique lower upper otherLower otherUpper]
    | inr padded =>
        have := batch.request_before request upper
        omega

/-- What follows the last token is padded. -/
theorem slotMapping_padding (someLane : 0 < TRITON_BLOCK_SIZE) (here : groups[groupId]? = some group)
    (launched : Launched (slotMappingGrid groups batch)
      (slotMappingStores PAD_ID groups batch maxNumTokens TRITON_BLOCK_SIZE slot) memory final)
    {offset : Nat} (lower : batch.queryStartLoc batch.numReqs ≤ offset) (inside : offset < maxNumTokens) :
    final (groupId, offset) = PAD_ID := by
  apply launched.written
  · exact (slotMapping_stored someLane here).mpr (Or.inr ⟨lower, inside, rfl⟩)
  · intro program launchedOne value member
    cases (slotMapping_stored someLane here).mp ⟨program, launchedOne, member⟩ with
    | inl token =>
        obtain ⟨batchIdx, request, -, upper, -⟩ := token
        have := batch.request_before request upper
        omega
    | inr padded => exact padded.2.2

/-- A place that is neither keeps its value. -/
theorem slotMapping_other (someLane : 0 < TRITON_BLOCK_SIZE)
    (launched : Launched (slotMappingGrid groups batch)
      (slotMappingStores PAD_ID groups batch maxNumTokens TRITON_BLOCK_SIZE slot) memory final)
    {offset : Nat}
    (noToken : groupId < groups.length → ¬∃ batchIdx, batchIdx < batch.numReqs ∧
      batch.queryStartLoc batchIdx ≤ offset ∧ offset < batch.queryStartLoc (batchIdx + 1))
    (noPadding : groupId < groups.length → ¬(batch.queryStartLoc batch.numReqs ≤ offset ∧ offset < maxNumTokens)) :
    final (groupId, offset) = memory (groupId, offset) := by
  apply launched.other
  intro program inside value member
  by_cases bound : groupId < groups.length
  · cases (slotMapping_stored someLane (List.getElem?_eq_getElem bound)).mp ⟨program, inside, member⟩ with
    | inl token =>
        obtain ⟨batchIdx, request, lower, upper, -⟩ := token
        exact noToken bound ⟨batchIdx, request, lower, upper⟩
    | inr padded => exact noPadding bound ⟨padded.1, padded.2.1⟩
  · obtain ⟨otherGroup, batchIdx⟩ := program
    have grouped := List.mem_range.mp (List.mem_product.mp inside).1
    simp only [slotMappingStores, List.getElem?_eq_getElem grouped] at member
    split at member
    · simp only [List.mem_flatMap, mem_maskedStore, Prod.mk.injEq] at member
      omega
    · simp only [List.mem_flatMap, mem_maskedStore, Prod.mk.injEq] at member
      omega

/-- Kernels that agree on the slots of the tokens leave the same mapping. -/
theorem slotMapping_congr {other : Group cpSize interleave → Nat → Bool → Int → Int} {otherFinal : Nat × Nat → Int}
    (someLane : 0 < TRITON_BLOCK_SIZE)
    (agree : ∀ group ∈ groups, ∀ reqStateIdx position,
      slot group reqStateIdx true position = other group reqStateIdx true position)
    (launched : Launched (slotMappingGrid groups batch)
      (slotMappingStores PAD_ID groups batch maxNumTokens TRITON_BLOCK_SIZE slot) memory final)
    (otherLaunched : Launched (slotMappingGrid groups batch)
      (slotMappingStores PAD_ID groups batch maxNumTokens TRITON_BLOCK_SIZE other) memory otherFinal) :
    final = otherFinal := by
  funext place
  obtain ⟨groupId, offset⟩ := place
  by_cases token : groupId < groups.length ∧ ∃ batchIdx, batchIdx < batch.numReqs ∧
      batch.queryStartLoc batchIdx ≤ offset ∧ offset < batch.queryStartLoc (batchIdx + 1)
  · obtain ⟨bound, batchIdx, request, lower, upper⟩ := token
    have here := List.getElem?_eq_getElem bound
    rw [slotMapping_token someLane here launched request lower upper,
      slotMapping_token someLane here otherLaunched request lower upper]
    exact agree _ (List.mem_of_getElem? here) _ _
  by_cases padded : groupId < groups.length ∧ batch.queryStartLoc batch.numReqs ≤ offset ∧ offset < maxNumTokens
  · obtain ⟨bound, lower, inside⟩ := padded
    have here := List.getElem?_eq_getElem bound
    rw [slotMapping_padding someLane here launched lower inside,
      slotMapping_padding someLane here otherLaunched lower inside]
  rw [not_and] at token padded
  rw [slotMapping_other someLane launched token padded, slotMapping_other someLane otherLaunched token padded]

end Launch

end DgxSpark.Dcp

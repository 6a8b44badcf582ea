import DgxSpark.Dcp.BlockTable

/-
This file embeds the index conversion of `mla/sparse_utils.py`: `_convert_req_index_to_global_index_kernel`
and the two functions that launch it.
-/

namespace DgxSpark.Dcp
open DgxSpark.Library

/-- What a conversion reads: a request for each token, the contiguous block table, and the token indices. -/
structure Conversion where
  numTokens : Nat
  reqId : Nat → Nat
  blockTable : Nat → Int
  maxNumBlocksPerReq : Nat
  tokenIndices : Nat → Nat → Int

/-- The prefill workspace: a request id for each token, and the start of each request. -/
structure Workspace where
  prefillRequestId : Nat → Int
  starts : Nat → Int

section Kernel

variable (conversion : Conversion) (workspace : Option Workspace)
variable (BLOCK_SIZE BLOCK_N NUM_TOPK_TOKENS DCP_SIZE DCP_RANK DCP_INTERLEAVE : Nat)

/-- One lane of `_convert_req_index_to_global_index_kernel`: its value, and whether its index is valid. -/
def convertLane (tokenId indiceId : Nat) : Int × Bool :=
  let req := conversion.reqId tokenId
  let tok := conversion.tokenIndices tokenId indiceId
  let isInvalidTok := decide (tok < 0)
  let prefillReqId := workspace.elim (-1) fun space => space.prefillRequestId tokenId
  let isPrefill := decide (0 ≤ prefillReqId)
  let owningRank := (tok.tdiv DCP_INTERLEAVE).tmod DCP_SIZE
  let isInvalidTok := if 1 < DCP_SIZE then isInvalidTok || decide (owningRank ≠ DCP_RANK) else isInvalidTok
  let tok :=
    if 1 < DCP_SIZE then tok.tdiv (DCP_SIZE * DCP_INTERLEAVE) * DCP_INTERLEAVE + tok.tmod DCP_INTERLEAVE else tok
  let blockId := tok.tdiv BLOCK_SIZE
  let inblockOff := tok.tmod BLOCK_SIZE
  let validBlock := decide (blockId < conversion.maxNumBlocksPerReq ∧ 0 ≤ blockId)
  let isInvalidTok := isInvalidTok || !validBlock
  let base := maskedLoad (validBlock && !isPrefill)
    (conversion.blockTable (req * conversion.maxNumBlocksPerReq + blockId).toNat) 0
  let workspaceStart := workspace.elim 0 fun space => maskedLoad isPrefill (space.starts prefillReqId.toNat) 0
  let outVal := if isPrefill then workspaceStart + tok else base * BLOCK_SIZE + inblockOff
  (if isInvalidTok then -1 else outVal, !isInvalidTok)

/-- The stores of one program: a tile of the columns of one token. -/
def convertStores (program : Nat × Nat) : List ((Nat × Nat) × Int) :=
  (arange (program.2 * BLOCK_N) BLOCK_N).map fun indiceId =>
    ((program.1, indiceId),
      (convertLane conversion workspace BLOCK_SIZE DCP_SIZE DCP_RANK DCP_INTERLEAVE program.1 indiceId).1)

/-- What one program adds to the valid count of its token. -/
def tileValidCount (program : Nat × Nat) : Nat :=
  (arange (program.2 * BLOCK_N) BLOCK_N).countP fun indiceId =>
    (convertLane conversion workspace BLOCK_SIZE DCP_SIZE DCP_RANK DCP_INTERLEAVE program.1 indiceId).2

/-- The exact grid: tokens and column tiles. -/
def convertGrid : List (Nat × Nat) :=
  List.range conversion.numTokens ×ˢ List.range (NUM_TOPK_TOKENS / BLOCK_N)

/-- The valid count of a token once all its tiles have added to it. -/
def validCounts (tokenId : Nat) : Nat :=
  ((List.range (NUM_TOPK_TOKENS / BLOCK_N)).map fun tileId =>
    tileValidCount conversion workspace BLOCK_SIZE BLOCK_N DCP_SIZE DCP_RANK DCP_INTERLEAVE (tokenId, tileId)).sum

/-- `triton_convert_req_index_to_global_index`: the program it launches, nothing where an assertion fails. -/
def convertReqIndexToGlobalIndex : Option (Nat × Nat → List ((Nat × Nat) × Int)) :=
  if NUM_TOPK_TOKENS % BLOCK_N = 0 then some (convertStores conversion workspace BLOCK_SIZE BLOCK_N 1 0 1) else none

/-- `triton_filter_and_convert_dcp_index`, likewise. -/
def filterAndConvertDcpIndex : Option (Nat × Nat → List ((Nat × Nat) × Int)) :=
  if ¬1 ≤ DCP_SIZE then none
  else if ¬DCP_RANK < DCP_SIZE then none
  else if BLOCK_SIZE % DCP_INTERLEAVE ≠ 0 then none
  else if DCP_SIZE = 1 then convertReqIndexToGlobalIndex conversion none BLOCK_SIZE BLOCK_N NUM_TOPK_TOKENS
  else if NUM_TOPK_TOKENS % BLOCK_N ≠ 0 then none
  else some (convertStores conversion none BLOCK_SIZE BLOCK_N DCP_SIZE DCP_RANK DCP_INTERLEAVE)

end Kernel

section Launch

variable {conversion : Conversion} {BLOCK_SIZE BLOCK_N NUM_TOPK_TOKENS DCP_SIZE DCP_RANK DCP_INTERLEAVE : Nat}

/-- The lane of a shared or a whole context: the slot of the place, on its rank and inside the table. -/
theorem convertLane_natCast (tokenId indiceId p : Nat) (someRank : 0 < DCP_SIZE)
    (read : conversion.tokenIndices tokenId indiceId = p) :
    convertLane conversion none BLOCK_SIZE DCP_SIZE DCP_RANK DCP_INTERLEAVE tokenId indiceId =
      if (DCP_SIZE = 1 ∨ ownerOf DCP_SIZE DCP_INTERLEAVE p = DCP_RANK) ∧
          localOf DCP_SIZE DCP_INTERLEAVE p / BLOCK_SIZE < conversion.maxNumBlocksPerReq then
        (conversion.blockTable (conversion.reqId tokenId * conversion.maxNumBlocksPerReq +
            localOf DCP_SIZE DCP_INTERLEAVE p / BLOCK_SIZE) * BLOCK_SIZE +
          (localOf DCP_SIZE DCP_INTERLEAVE p % BLOCK_SIZE : Nat), true)
      else (-1, false) := by
  have place : (if 1 < DCP_SIZE then (p : Int).tdiv (DCP_SIZE * DCP_INTERLEAVE) * DCP_INTERLEAVE +
      (p : Int).tmod DCP_INTERLEAVE else p) = (localOf DCP_SIZE DCP_INTERLEAVE p : Nat) := by
    by_cases shared : 1 < DCP_SIZE
    · rw [if_pos shared]
      rfl
    · have whole : DCP_SIZE = 1 := by omega
      rw [if_neg shared, whole, localOf_one]
  have owner : ((p : Int).tdiv DCP_INTERLEAVE).tmod DCP_SIZE = (ownerOf DCP_SIZE DCP_INTERLEAVE p : Nat) := rfl
  have nonneg : ¬(p : Int) < 0 := by omega
  simp only [convertLane, read, place, owner, nonneg]
  generalize localOf DCP_SIZE DCP_INTERLEAVE p = place
  have block : (place : Int).tdiv BLOCK_SIZE = (place / BLOCK_SIZE : Nat) := rfl
  have rest : (place : Int).tmod BLOCK_SIZE = (place % BLOCK_SIZE : Nat) := rfl
  simp only [block, rest]
  generalize place / BLOCK_SIZE = column
  have columnPlace : (conversion.reqId tokenId * conversion.maxNumBlocksPerReq + (column : Int)).toNat =
      conversion.reqId tokenId * conversion.maxNumBlocksPerReq + column := by omega
  by_cases inside : column < conversion.maxNumBlocksPerReq
  · by_cases shared : 1 < DCP_SIZE
    · have notWhole : DCP_SIZE ≠ 1 := by omega
      by_cases owned : ownerOf DCP_SIZE DCP_INTERLEAVE p = DCP_RANK
      · simp [shared, owned, inside, maskedLoad, columnPlace]
      · simp [shared, notWhole, owned]
    · have whole : DCP_SIZE = 1 := by omega
      simp [whole, inside, maskedLoad, columnPlace]
  · simp [inside]

theorem convertLane_negative (tokenId indiceId : Nat) (negative : conversion.tokenIndices tokenId indiceId < 0) :
    convertLane conversion none BLOCK_SIZE DCP_SIZE DCP_RANK DCP_INTERLEAVE tokenId indiceId = (-1, false) := by
  simp [convertLane, negative]

/-- Sharing with nobody is the plain conversion, whatever the run. -/
theorem convertLane_one (DCP_INTERLEAVE tokenId indiceId : Nat) :
    convertLane conversion none BLOCK_SIZE 1 0 1 tokenId indiceId =
      convertLane conversion none BLOCK_SIZE 1 0 DCP_INTERLEAVE tokenId indiceId := rfl

/-- What a normal return launches. -/
theorem filterAndConvertDcpIndex_some {program : Nat × Nat → List ((Nat × Nat) × Int)}
    (returned : filterAndConvertDcpIndex conversion BLOCK_SIZE BLOCK_N NUM_TOPK_TOKENS DCP_SIZE DCP_RANK
      DCP_INTERLEAVE = some program) :
    DCP_RANK < DCP_SIZE ∧ NUM_TOPK_TOKENS % BLOCK_N = 0 ∧
      program = convertStores conversion none BLOCK_SIZE BLOCK_N DCP_SIZE DCP_RANK DCP_INTERLEAVE := by
  unfold filterAndConvertDcpIndex at returned
  split at returned
  · cases returned
  split at returned
  · cases returned
  case isFalse ranked =>
    split at returned
    · cases returned
    split at returned
    case isTrue whole =>
      unfold convertReqIndexToGlobalIndex at returned
      split at returned
      case isTrue exact =>
        cases returned
        subst whole
        have first : DCP_RANK = 0 := by omega
        subst first
        exact ⟨by omega, exact, rfl⟩
      case isFalse => cases returned
    case isFalse =>
      split at returned
      · cases returned
      case isFalse exact =>
        cases returned
        exact ⟨by omega, by omega, rfl⟩

/-- The tiles of a token count its valid columns. -/
theorem validCounts_eq {workspace : Option Workspace} {tokenId : Nat} (exact : NUM_TOPK_TOKENS % BLOCK_N = 0) :
    validCounts conversion workspace BLOCK_SIZE BLOCK_N NUM_TOPK_TOKENS DCP_SIZE DCP_RANK DCP_INTERLEAVE tokenId =
      (List.range NUM_TOPK_TOKENS).countP fun indiceId =>
        (convertLane conversion workspace BLOCK_SIZE DCP_SIZE DCP_RANK DCP_INTERLEAVE tokenId indiceId).2 := by
  obtain ⟨tiles, rfl⟩ := Nat.dvd_of_mod_eq_zero exact
  by_cases someLane : BLOCK_N = 0
  · simp [validCounts, someLane]
  rw [validCounts, Nat.mul_div_cancel_left _ (Nat.pos_of_ne_zero someLane)]
  induction tiles with
  | zero => rfl
  | succ tiles ih =>
      rw [List.range_succ, List.map_append, List.sum_append, ih (Nat.mul_mod_right _ _), Nat.mul_succ, List.range_add,
        List.countP_append]
      simp [tileValidCount, arange, Nat.mul_comm]

variable {memory out : Nat × Nat → Int} {program : Nat × Nat → List ((Nat × Nat) × Int)}

/-- After the launch each cell has the value of its lane. -/
theorem filterAndConvertDcpIndex_launched {tokenId indiceId : Nat}
    (returned : filterAndConvertDcpIndex conversion BLOCK_SIZE BLOCK_N NUM_TOPK_TOKENS DCP_SIZE DCP_RANK
      DCP_INTERLEAVE = some program)
    (launched : Launched (convertGrid conversion BLOCK_N NUM_TOPK_TOKENS) program memory out)
    (token : tokenId < conversion.numTokens) (column : indiceId < NUM_TOPK_TOKENS) :
    out (tokenId, indiceId) =
      (convertLane conversion none BLOCK_SIZE DCP_SIZE DCP_RANK DCP_INTERLEAVE tokenId indiceId).1 := by
  obtain ⟨-, exact, rfl⟩ := filterAndConvertDcpIndex_some returned
  have tiles := Nat.div_add_mod NUM_TOPK_TOKENS BLOCK_N
  have lane := Nat.div_add_mod indiceId BLOCK_N
  have someLane : 0 < BLOCK_N := by
    apply Nat.pos_of_ne_zero
    intro empty
    rw [empty, Nat.mod_zero] at exact
    omega
  apply launched.written
  · refine ⟨(tokenId, indiceId / BLOCK_N), ?_, ?_⟩
    · simp only [convertGrid, List.mem_product, List.mem_range]
      refine ⟨token, ?_⟩
      rw [Nat.div_lt_iff_lt_mul someLane, Nat.mul_comm]
      omega
    · simp only [convertStores, List.mem_map, arange, List.mem_range]
      refine ⟨indiceId, ⟨indiceId % BLOCK_N, Nat.mod_lt _ someLane, ?_⟩, rfl⟩
      rw [Nat.mul_comm]
      exact lane
  · intro other inside value member
    simp only [convertStores, List.mem_map, Prod.mk.injEq] at member
    obtain ⟨place, -, ⟨rfl, rfl⟩, rfl⟩ := member
    rfl

end Launch

end DgxSpark.Dcp

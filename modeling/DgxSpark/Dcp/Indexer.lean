import DgxSpark.Library.Grid
import DgxSpark.Library.Interleave

/-
This file embeds how `mla/indexer.py` builds the metadata of one prefill chunk on a rank: the lengths of
the shards on the host, and the bounds of each query row in `_build_prefill_chunk_metadata_kernel`.
-/

namespace DgxSpark.Dcp
open DgxSpark.Library

/-- `get_dcp_local_seq_lens` for one length. -/
def getDcpLocalSeqLens (seqLen : Int) (dcpWorldSize dcpRank interleave : Nat) : Int :=
  let base := seqLen / interleave / dcpWorldSize * interleave
  let remainder := seqLen - base * dcpWorldSize
  let remainder := min (max (remainder - dcpRank * interleave) 0) interleave
  base + remainder

/-- `torch.cumsum` behind a zero. -/
def cumsum (lengths : Nat → Int) (count : Nat) : Int := ((List.range count).map lengths).sum

theorem cumsum_succ (lengths : Nat → Int) (count : Nat) : cumsum lengths (count + 1) = cumsum lengths count + lengths count := by
  simp [cumsum, List.range_succ]

/-- The three tensors that the kernel fills. -/
inductive PrefillOutput where
  | tokenToSeq
  | cuSeqLenKs
  | cuSeqLenKe
deriving DecidableEq

section Kernel

variable (queryStartLoc : Nat → Nat) (uncompressedSeqLens cuCompressedSeqLens rowStartCuCompressedSeqLens : Nat → Int)
variable (querySliceStart querySliceStop DCP_RANK DCP_WORLD DCP_INTERLEAVE BLOCK_SIZE COMPRESS_RATIO : Nat)

/-- The causal length of the query at an offset of a request, on this rank. -/
def seqLenPerToken (batchIdx offset : Nat) : Int :=
  let queryLen : Int := queryStartLoc (batchIdx + 1) - queryStartLoc batchIdx
  let startPos := uncompressedSeqLens batchIdx - queryLen
  let seqLenPerToken := (startPos + 1 + offset).tdiv COMPRESS_RATIO
  if 1 < DCP_WORLD then
    let base := (seqLenPerToken.tdiv DCP_INTERLEAVE).tdiv DCP_WORLD * DCP_INTERLEAVE
    let remainder := seqLenPerToken - base * DCP_WORLD
    let remainder := min (max (remainder - DCP_RANK * DCP_INTERLEAVE) 0) DCP_INTERLEAVE
    base + remainder
  else seqLenPerToken

/-- The stores of one lane of the query loop. -/
def queryLane (batchIdx offset : Nat) : List ((PrefillOutput × Nat) × Int) :=
  let queryStart := queryStartLoc batchIdx
  let queryLen := queryStartLoc (batchIdx + 1) - queryStart
  let rowStart := rowStartCuCompressedSeqLens batchIdx
  let absPos := queryStart + offset
  let mask := offset < queryLen ∧ querySliceStart ≤ absPos ∧ absPos < querySliceStop
  let outPos := absPos - querySliceStart
  maskedStore mask (.cuSeqLenKs, outPos) rowStart ++
    maskedStore mask (.cuSeqLenKe, outPos)
      (rowStart +
        seqLenPerToken queryStartLoc uncompressedSeqLens DCP_RANK DCP_WORLD DCP_INTERLEAVE COMPRESS_RATIO batchIdx
          offset)

/-- The stores of one lane of the context loop. -/
def contextLane (batchIdx offset : Nat) : List ((PrefillOutput × Nat) × Int) :=
  let seqStart := cuCompressedSeqLens batchIdx
  let compressedSeqLen := cuCompressedSeqLens (batchIdx + 1) - seqStart
  maskedStore ((offset : Int) < compressedSeqLen) (.tokenToSeq, (seqStart + offset).toNat) batchIdx

/-- `_build_prefill_chunk_metadata_kernel` for one request. -/
def buildPrefillChunkMetadataKernel (batchIdx : Nat) : List ((PrefillOutput × Nat) × Int) :=
  let queryLen := queryStartLoc (batchIdx + 1) - queryStartLoc batchIdx
  let compressedSeqLen := cuCompressedSeqLens (batchIdx + 1) - cuCompressedSeqLens batchIdx
  ((rangeStep 0 queryLen BLOCK_SIZE).flatMap fun i => (arange i BLOCK_SIZE).flatMap fun offset =>
      queryLane queryStartLoc uncompressedSeqLens rowStartCuCompressedSeqLens querySliceStart querySliceStop DCP_RANK
        DCP_WORLD DCP_INTERLEAVE COMPRESS_RATIO batchIdx offset) ++
    (rangeStep 0 compressedSeqLen.toNat BLOCK_SIZE).flatMap fun i => (arange i BLOCK_SIZE).flatMap fun offset =>
      contextLane cuCompressedSeqLens batchIdx offset

end Kernel

/-- What the builder is given of a batch, the same on each rank. The lengths on the host may be larger. -/
structure IndexerBatch where
  queryStartLoc : Nat → Nat
  seqLens : Nat → Nat
  compressedSeqLens : Nat → Nat
  compressedSeqLensCpu : Nat → Nat
  ordered : Monotone queryStartLoc

/-- A chunk's metadata, with the launch that fills its tensors. -/
structure PrefillChunkMetadata where
  cuSeqLens : Nat → Int
  totalSeqLens : Int
  tokenStart : Nat
  tokenEnd : Nat
  numReqs : Nat
  skipKvGather : Bool
  kernel : Nat → List ((PrefillOutput × Nat) × Int)

section Build

variable (dcpRank dcpWorldSize interleave compressRatio : Nat)

/-- `build_prefill_chunk_metadata` for some requests and a slice of their queries. -/
def buildPrefillChunkMetadata (batch : IndexerBatch) (startIdx endIdx : Nat) (querySlice : Option (Nat × Nat))
    (skipKvGather : Bool) : Option PrefillChunkMetadata :=
  let numReqs := endIdx - startIdx
  let globalTotalSeqLens := cumsum (fun request => batch.compressedSeqLensCpu (startIdx + request)) numReqs
  if globalTotalSeqLens = 0 then none
  else
    let globalCuSeqLens := cumsum fun request => batch.compressedSeqLens (startIdx + request)
    let localCuSeqLens :=
      if 1 < dcpWorldSize then
        cumsum fun request =>
          getDcpLocalSeqLens (batch.compressedSeqLens (startIdx + request)) dcpWorldSize dcpRank interleave
      else globalCuSeqLens
    let totalSeqLens :=
      if 1 < dcpWorldSize then
        cumsum (fun request =>
          getDcpLocalSeqLens (batch.compressedSeqLensCpu (startIdx + request)) dcpWorldSize dcpRank interleave) numReqs
      else globalTotalSeqLens
    let queryStartLoc := fun request => batch.queryStartLoc (startIdx + request) - batch.queryStartLoc startIdx
    let totalQueryLen := batch.queryStartLoc endIdx - batch.queryStartLoc startIdx
    let (qsStart, qsStop) := querySlice.getD (0, totalQueryLen)
    let tokenStart := batch.queryStartLoc startIdx
    some {
      cuSeqLens := localCuSeqLens
      totalSeqLens := totalSeqLens
      tokenStart := tokenStart + qsStart
      tokenEnd := querySlice.elim (batch.queryStartLoc endIdx) fun slice => tokenStart + slice.2
      numReqs := numReqs
      skipKvGather := skipKvGather || querySlice.elim false fun slice => decide (0 < slice.1)
      kernel := buildPrefillChunkMetadataKernel queryStartLoc (fun request => batch.seqLens (startIdx + request))
        globalCuSeqLens localCuSeqLens qsStart qsStop dcpRank dcpWorldSize interleave 1024 compressRatio }

end Build

end DgxSpark.Dcp

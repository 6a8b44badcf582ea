import DgxSpark.Dcp.Indexer

/-
This file embeds `split_indexer_prefill_chunks` and `DeepseekV32IndexerMetadataBuilder.build`: what a rank
makes of the description of a batch that all ranks have in common.
-/

namespace DgxSpark.Dcp
open DgxSpark.Library

/-- A request for the splitter: its query length, its length, and its share of the workspace. -/
structure SplitRequest where
  query : Nat
  seq : Nat
  workspace : Nat

section Split

variable (workspaceSize maxLogitsElems : Nat)

/-- The inner loop: how many requests fit a chunk, and the totals of their queries and lengths. -/
def fillChunk (chunkM chunkN chunkWs : Nat) : List SplitRequest → Nat × Nat × Nat
  | [] => (0, chunkM, chunkN)
  | request :: rest =>
      let newM := chunkM + request.query
      let newN := chunkN + request.seq
      let newWs := chunkWs + request.workspace
      if newWs ≤ workspaceSize ∧ newM * newN ≤ maxLogitsElems then
        let (taken, chunkM, chunkN) := fillChunk newM newN newWs rest
        (taken + 1, chunkM, chunkN)
      else (0, chunkM, chunkN)

/-- The chunk that starts with a request: a request that is over budget alone is a chunk of its own. -/
def nextChunk (head : SplitRequest) (rest : List SplitRequest) : Nat × Nat × Nat :=
  let (taken, chunkM, chunkN) := fillChunk workspaceSize maxLogitsElems 0 0 0 (head :: rest)
  if taken = 0 then (1, head.query, head.seq) else (taken, chunkM, chunkN)

theorem nextChunk_pos (head : SplitRequest) (rest : List SplitRequest) :
    0 < (nextChunk workspaceSize maxLogitsElems head rest).1 := by
  simp only [nextChunk]
  split
  · exact Nat.one_pos
  · omega

/-- The sub-chunks of a chunk's queries; the range fails on a step of zero. -/
def querySlices (chunkM chunkN : Nat) : Except String (List (Nat × Nat)) :=
  let maxQ := if 0 < chunkN then max 1 (maxLogitsElems / chunkN) else chunkM
  if maxQ = 0 then .error "range() arg 3 must not be zero"
  else .ok ((rangeStep 0 chunkM maxQ).map fun qOff => (qOff, qOff + min maxQ (chunkM - qOff)))

/-- `split_indexer_prefill_chunks` from a request on: pairs of a slice of requests and a slice of their queries. -/
def splitIndexerPrefillChunks (start : Nat) : List SplitRequest → Except String (List ((Nat × Nat) × (Nat × Nat)))
  | [] => .ok []
  | head :: rest =>
      let chunk := nextChunk workspaceSize maxLogitsElems head rest
      match querySlices maxLogitsElems chunk.2.1 chunk.2.2 with
      | .error text => .error text
      | .ok slices =>
          match splitIndexerPrefillChunks (start + chunk.1) ((head :: rest).drop chunk.1) with
          | .error text => .error text
          | .ok later => .ok (slices.map (fun slice => ((start, start + chunk.1), slice)) ++ later)
  termination_by requests => requests.length
  decreasing_by
    have := nextChunk_pos workspaceSize maxLogitsElems head rest
    rw [List.length_drop, List.length_cons]
    omega

end Split

/-- What the builder of each rank is configured with, the rank apart. -/
structure IndexerConfig where
  dcpWorldSize : Nat
  interleave : Nat
  compressRatio : Nat
  maxPrefillBufferSize : Nat
  maxLogitsBytes : Nat
  numSpeculativeTokens : Nat
  useFlattening : Bool
  expandedBlockTableCols : Nat

/-- The description of a batch that all ranks have in common. -/
structure CommonAttentionMetadata extends IndexerBatch where
  numReqs : Nat
  numActualTokens : Nat
  blockTableCols : Nat
  blockTableColStride : Nat

/-- The decode tensors, of one row for each entry of the batch. -/
structure DecodeTensors where
  seqLens : List (List Int)
  decodeLens : List Nat
  requiresPadding : Bool

structure IndexerMetadata where
  numDecodes : Nat
  numDecodeTokens : Nat
  numPrefills : Nat
  prefill : Option (List PrefillChunkMetadata)
  decode : Option DecodeTensors

/-- How many requests and tokens are decodes and prefills. -/
structure DecodeSplit where
  numDecodes : Nat
  numPrefills : Nat
  numDecodeTokens : Nat
  numPrefillTokens : Nat

section Build

variable (config : IndexerConfig) (common : CommonAttentionMetadata)

def CommonAttentionMetadata.queryLen (request : Nat) : Nat :=
  common.queryStartLoc (request + 1) - common.queryStartLoc request

/-- `_prepare_decode_tensors` with the lengths of the decodes. -/
def prepareDecodeTensors (numDecodes numDecodeTokens : Nat) (useNative : Bool) (nextN maxDecodeLen minDecodeLen : Nat) :
    Except String DecodeTensors :=
  let decodeLens := (List.range numDecodes).map common.queryLen
  let seqLens : Nat → Int := fun request => common.seqLens request
  if !useNative && decide (1 < maxDecodeLen) then
    if config.expandedBlockTableCols < common.blockTableCols then
      .error "Indexer expanded block table is narrower than the input"
    else if common.blockTableColStride ≠ 1 then .error "Indexer block table columns must have stride 1"
    else if minDecodeLen = maxDecodeLen then
      let numDecodeTokens := numDecodes * maxDecodeLen
      .ok {
        seqLens := (List.range numDecodeTokens).map fun idx =>
          [seqLens (idx / maxDecodeLen) - maxDecodeLen + (idx % maxDecodeLen : Nat) + 1]
        decodeLens := List.replicate numDecodeTokens 1
        requiresPadding := false }
    else
      let expandedOffsets := (List.range numDecodes).flatMap fun request =>
        List.replicate (common.queryLen request)
          (seqLens request - common.queryLen request - common.queryStartLoc request)
      let expanded := expandedOffsets.zipIdx.map fun (offset, idx) => [offset + idx + 1]
      .ok {
        seqLens := (expanded ++ List.replicate (numDecodeTokens - expanded.length) [0]).take numDecodeTokens
        decodeLens := List.replicate numDecodeTokens 1
        requiresPadding := false }
  else
    let rows :=
      if useNative && decide (1 < nextN) then
        (List.range numDecodes).map fun request =>
          (List.range maxDecodeLen).map fun token => seqLens request - maxDecodeLen + 1 + token
      else (List.range numDecodes).map fun request => [seqLens request]
    .ok ⟨rows, decodeLens, decide (minDecodeLen ≠ maxDecodeLen)⟩

/-- `_dcp_localize_decode_seq_lens`, after the expansion. -/
def dcpLocalizeDecodeSeqLens (dcpRank : Nat) (seqLens : List (List Int)) : List (List Int) :=
  seqLens.map fun row => row.map fun seqLen => getDcpLocalSeqLens seqLen config.dcpWorldSize dcpRank config.interleave

/-- The lengths that the splitter gets for the prefills. -/
def splitRequests (numDecodes numPrefills : Nat) : List SplitRequest :=
  (List.range numPrefills).map fun request =>
    let seq := common.compressedSeqLensCpu (numDecodes + request)
    { query := common.queryLen (numDecodes + request)
      seq := seq
      workspace :=
        if 1 < config.dcpWorldSize then (seq + (config.dcpWorldSize - 1)) / config.dcpWorldSize else seq }

/-- The prefill part of `build`: a chunk for each pair of slices, the empty ones left out. -/
def buildPrefill (dcpRank numDecodes numPrefills : Nat) : Except String (Option (List PrefillChunkMetadata)) :=
  if numPrefills = 0 then .ok none
  else
    match splitIndexerPrefillChunks config.maxPrefillBufferSize (config.maxLogitsBytes / 4) numDecodes
        (splitRequests config common numDecodes numPrefills) with
    | .error text => .error text
    | .ok specs =>
        .ok (some (specs.filterMap fun (reqSlice, querySlice) =>
          buildPrefillChunkMetadata dcpRank config.dcpWorldSize config.interleave config.compressRatio
            common.toIndexerBatch reqSlice.1 reqSlice.2 (some querySlice) (decide (0 < querySlice.1))))

/-- The decode part of `build`. -/
def buildDecode (dcpRank numDecodes numDecodeTokens : Nat) : Except String (Option DecodeTensors) :=
  if numDecodes = 0 then .ok none
  else
    let decodeLens := (List.range numDecodes).map common.queryLen
    let maxDecodeLen := decodeLens.foldl max 0
    let minDecodeLen := decodeLens.foldl min maxDecodeLen
    let nextN := 1 + config.numSpeculativeTokens
    let useNative := !config.useFlattening && decide (maxDecodeLen ≤ nextN)
    match prepareDecodeTensors config common numDecodes numDecodeTokens useNative nextN maxDecodeLen
        minDecodeLen with
    | .error text => .error text
    | .ok tensors =>
        let seqLens :=
          if 1 < config.dcpWorldSize then dcpLocalizeDecodeSeqLens config dcpRank tensors.seqLens else tensors.seqLens
        let isLocalView := useNative && decide (1 < nextN) || !useNative && decide (1 < maxDecodeLen) ||
          decide (1 < config.dcpWorldSize)
        let compressed := seqLens.map fun row => row.map (· / (config.compressRatio : Int))
        let seqLens :=
          if config.compressRatio ≤ 1 then seqLens
          else if isLocalView then compressed
          else compressed ++ List.replicate (numDecodeTokens - numDecodes) [0]
        .ok (some { tensors with seqLens := seqLens })

variable (splitDecodesAndPrefills : CommonAttentionMetadata → DecodeSplit)

/-- `DeepseekV32IndexerMetadataBuilder.build` on a rank. -/
def build (dcpRank : Nat) : Except String IndexerMetadata :=
  let split := splitDecodesAndPrefills common
  if split.numDecodes + split.numPrefills ≠ common.numReqs then .error "num_decodes + num_prefills == num_reqs"
  else if split.numDecodeTokens + split.numPrefillTokens ≠ common.numActualTokens then
    .error "num_decode_tokens + num_prefill_tokens == num_tokens"
  else
    match buildPrefill config common dcpRank split.numDecodes split.numPrefills with
    | .error text => .error text
    | .ok prefill =>
        match buildDecode config common dcpRank split.numDecodes split.numDecodeTokens with
        | .error text => .error text
        | .ok decode => .ok ⟨split.numDecodes, split.numDecodeTokens, split.numPrefills, prefill, decode⟩

end Build

end DgxSpark.Dcp

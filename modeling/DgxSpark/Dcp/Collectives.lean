import DgxSpark.Dcp.IndexerBuild

/-
This file embeds the control flow of `sparse_attn_indexer` around its collectives, and says that all ranks
of a step issue the same ones. The logits of a rank are taken for their number only.
-/

namespace DgxSpark.Dcp
open DgxSpark.Library

/-- An `all_gather` of packed candidates, by its rows and its candidates for each row. -/
structure Collective where
  rows : Nat
  k : Nat
deriving DecidableEq

/-- The collectives that a rank has issued, and what it raised after them. -/
structure Trace where
  calls : List Collective
  raised : Option String
deriving DecidableEq

namespace Trace

def nothing : Trace := ⟨[], none⟩

def raise (text : String) : Trace := ⟨[], some text⟩

def allGather (rows k : Nat) : Trace := ⟨[⟨rows, k⟩], none⟩

/-- The second runs only where the first has not raised. -/
def andThen (first second : Trace) : Trace :=
  if first.raised = none then ⟨first.calls ++ second.calls, second.raised⟩ else first

end Trace

/-- What a step hands to `sparse_attn_indexer` on every rank. -/
structure IndexerCall where
  topkTokens : Nat
  bufferRows : Nat
  bufferCols : Nat
  queryRows : Nat
  useFp4Cache : Bool
  hasQScale : Bool
  skipKCacheInsert : Bool
  hasScaleFmt : Bool

/-- How many logits a rank has for a chunk and for the decodes. -/
structure RankLogits where
  prefill : PrefillChunkMetadata → Nat
  decode : Nat

/-- `_merge_dcp_topk_global` up to its collective: a rank without logits takes part with padding. -/
def mergeDcpTopkGlobal (dcpWorldSize topkTokens : Nat) (logits : Option Nat) (rows k : Nat) : Trace :=
  if dcpWorldSize ≤ 1 then .nothing
  else if k ≠ topkTokens then .raise "k == topk_tokens"
  else
    match logits with
    | none => .allGather rows k
    | some 0 => .allGather rows k
    | some (_ + 1) => .allGather rows k

section Indexer

variable (dcpWorldSize : Nat) (call : IndexerCall) (logits : RankLogits)

/-- The rows of a slice of the top-k buffer. -/
def IndexerCall.bufferSlice (start stop : Nat) : Nat := min stop call.bufferRows - min start call.bufferRows

/-- One turn of the prefill loop. -/
def prefillChunk (chunk : PrefillChunkMetadata) : Trace :=
  let rows := call.bufferSlice chunk.tokenStart chunk.tokenEnd
  let k := min call.topkTokens call.bufferCols
  if chunk.totalSeqLens = 0 then mergeDcpTopkGlobal dcpWorldSize call.topkTokens none rows k
  else mergeDcpTopkGlobal dcpWorldSize call.topkTokens (some (logits.prefill chunk)) rows k

/-- The prefill loop. -/
def prefillChunks : List PrefillChunkMetadata → Trace
  | [] => .nothing
  | chunk :: rest => (prefillChunk dcpWorldSize call logits chunk).andThen (prefillChunks rest)

variable (packSeq : Nat → List Nat → Nat × Nat)

/-- The decode part. -/
def decodeTokens (numDecodeTokens : Nat) (decode : DecodeTensors) : Trace :=
  let tokens := min numDecodeTokens call.queryRows
  let batch := decode.decodeLens.length
  let padded :=
    if decode.requiresPadding then some (packSeq tokens decode.decodeLens)
    else if batch = 0 ∨ tokens % batch ≠ 0 then none
    else some (batch, tokens / batch)
  match padded with
  | none => .raise "shape is invalid for input"
  | some (batchSize, nextN) =>
      mergeDcpTopkGlobal dcpWorldSize call.topkTokens (some logits.decode)
        (call.bufferSlice 0 (batchSize * nextN)) (min call.topkTokens call.bufferCols)

/-- The prefill part with the metadata of a rank. -/
def prefillPart (metadata : IndexerMetadata) : Trace :=
  if metadata.numPrefills = 0 then .nothing
  else
    match metadata.prefill with
    | none => .raise "prefill_metadata is not None"
    | some chunks => prefillChunks dcpWorldSize call logits chunks

def decodePart (metadata : IndexerMetadata) : Trace :=
  if metadata.numDecodes = 0 then .nothing
  else
    match metadata.decode with
    | none => .raise "decode_metadata is not None"
    | some decode => decodeTokens dcpWorldSize call logits packSeq metadata.numDecodeTokens decode

/-- `sparse_attn_indexer` with the metadata of a rank. -/
def sparseAttnIndexer (metadata : IndexerMetadata) : Trace :=
  if call.useFp4Cache ≠ call.hasQScale then .raise "q_scale"
  else if !call.skipKCacheInsert && !call.hasScaleFmt then .raise "scale_fmt is not None"
  else if !call.skipKCacheInsert && call.useFp4Cache then .raise "Unfused FP4 Insert is not supported yet"
  else (prefillPart dcpWorldSize call logits metadata).andThen (decodePart dcpWorldSize call logits packSeq metadata)

/-- A step of the indexer on a rank: the metadata, then the layer. -/
def indexerStep (config : IndexerConfig) (common : CommonAttentionMetadata)
    (splitDecodesAndPrefills : CommonAttentionMetadata → DecodeSplit) (dcpRank : Nat) : Trace :=
  match build config common splitDecodesAndPrefills dcpRank with
  | .error text => .raise text
  | .ok metadata => sparseAttnIndexer config.dcpWorldSize call logits packSeq metadata

end Indexer

section Agreement

variable {call : IndexerCall}

/-- What a chunk says of the tokens it is about. -/
def PrefillChunkMetadata.tokens (chunk : PrefillChunkMetadata) : Nat × Nat × Nat × Bool :=
  (chunk.tokenStart, chunk.tokenEnd, chunk.numReqs, chunk.skipKvGather)

/-- What the metadata say of tokens: those of each chunk, and the shapes of the decodes. -/
def IndexerMetadata.tokens (m : IndexerMetadata) :
    Nat × Nat × Nat × Option (List (Nat × Nat × Nat × Bool)) × Option (List Nat × Bool) :=
  (m.numDecodes, m.numDecodeTokens, m.numPrefills, m.prefill.map (·.map PrefillChunkMetadata.tokens),
    m.decode.map fun decode => (decode.decodeLens, decode.requiresPadding))

/-- Results that look alike fail alike, or both return. -/
theorem map_eq_cases {Error Result View : Type} {first second : Except Error Result} {view : Result → View}
    (same : first.map view = second.map view) :
    (∃ error, first = .error error ∧ second = .error error) ∨
      ∃ left right, first = .ok left ∧ second = .ok right ∧ view left = view right := by
  cases first with
  | error error =>
      cases second with
      | error other =>
          cases same
          exact Or.inl ⟨error, rfl, rfl⟩
      | ok right => cases same
  | ok left =>
      cases second with
      | error other => cases same
      | ok right => exact Or.inr ⟨left, right, rfl, rfl, Except.ok.inj same⟩

section Build

variable (config : IndexerConfig) (common : CommonAttentionMetadata) (first second : Nat)

theorem buildPrefillChunkMetadata_tokens (batch : IndexerBatch) (startIdx endIdx : Nat)
    (querySlice : Option (Nat × Nat)) (skip : Bool) :
    (buildPrefillChunkMetadata first config.dcpWorldSize config.interleave config.compressRatio batch startIdx endIdx
        querySlice skip).map PrefillChunkMetadata.tokens =
      (buildPrefillChunkMetadata second config.dcpWorldSize config.interleave config.compressRatio batch startIdx
        endIdx querySlice skip).map PrefillChunkMetadata.tokens := by
  simp only [buildPrefillChunkMetadata]
  split
  · rfl
  · rfl

theorem buildPrefill_tokens (numDecodes numPrefills : Nat) :
    (buildPrefill config common first numDecodes numPrefills).map
        (Option.map (List.map PrefillChunkMetadata.tokens)) =
      (buildPrefill config common second numDecodes numPrefills).map
        (Option.map (List.map PrefillChunkMetadata.tokens)) := by
  simp only [buildPrefill]
  split
  · rfl
  · cases splitIndexerPrefillChunks config.maxPrefillBufferSize (config.maxLogitsBytes / 4) numDecodes
        (splitRequests config common numDecodes numPrefills) with
    | error text => rfl
    | ok specs =>
        simp only [Except.map, Option.map_some, List.map_filterMap]
        congr 2
        apply List.filterMap_congr
        intro spec _
        exact buildPrefillChunkMetadata_tokens config first second common.toIndexerBatch _ _ _ _

theorem buildDecode_tokens (numDecodes numDecodeTokens : Nat) :
    (buildDecode config common first numDecodes numDecodeTokens).map
        (Option.map fun decode => (decode.decodeLens, decode.requiresPadding)) =
      (buildDecode config common second numDecodes numDecodeTokens).map
        (Option.map fun decode => (decode.decodeLens, decode.requiresPadding)) := by
  simp only [buildDecode]
  split
  · rfl
  · cases prepareDecodeTensors config common numDecodes numDecodeTokens _ _ _ _ with
    | error text => rfl
    | ok tensors => rfl

/-- Two ranks build the same chunks, or fail alike. -/
theorem build_tokens (splitDecodesAndPrefills : CommonAttentionMetadata → DecodeSplit) :
    (build config common splitDecodesAndPrefills first).map IndexerMetadata.tokens =
      (build config common splitDecodesAndPrefills second).map IndexerMetadata.tokens := by
  simp only [build]
  split
  · rfl
  split
  · rfl
  obtain ⟨text, firstFails, secondFails⟩ | ⟨firstChunks, secondChunks, firstChunked, secondChunked, prefill⟩ :=
    map_eq_cases (buildPrefill_tokens config common first second (splitDecodesAndPrefills common).numDecodes
      (splitDecodesAndPrefills common).numPrefills)
  · rw [firstFails, secondFails]
  obtain ⟨text, firstFails, secondFails⟩ | ⟨firstTensors, secondTensors, firstDecoded, secondDecoded, decode⟩ :=
    map_eq_cases (buildDecode_tokens config common first second (splitDecodesAndPrefills common).numDecodes
      (splitDecodesAndPrefills common).numDecodeTokens)
  · rw [firstChunked, secondChunked, firstFails, secondFails]
  · rw [firstChunked, secondChunked, firstDecoded, secondDecoded]
    simp [Except.map, IndexerMetadata.tokens, prefill, decode]

theorem build_empty {config : IndexerConfig} {common : CommonAttentionMetadata} {rank : Nat}
    {splitDecodesAndPrefills : CommonAttentionMetadata → DecodeSplit} {m : IndexerMetadata}
    (built : build config common splitDecodesAndPrefills rank = .ok m) : m.numPrefills = 0 → m.prefill = none := by
  simp only [build] at built
  split at built
  · cases built
  split at built
  · cases built
  split at built
  · cases built
  case h_2 prefill prefilled =>
    split at built
    · cases built
    · cases built
      intro empty
      rw [buildPrefill, if_pos empty] at prefilled
      exact (Except.ok.inj prefilled).symm

end Build

section Calls

variable {dcpWorldSize : Nat} {logits otherLogits : RankLogits} {packSeq : Nat → List Nat → Nat × Nat}

/-- The merge issues its collective with or without logits. -/
theorem mergeDcpTopkGlobal_eq (shared : 1 < dcpWorldSize) (logits : Option Nat) (rows k : Nat) :
    mergeDcpTopkGlobal dcpWorldSize call.topkTokens logits rows k =
      if k = call.topkTokens then .allGather rows k else .raise "k == topk_tokens" := by
  have notAlone : ¬dcpWorldSize ≤ 1 := by omega
  simp only [mergeDcpTopkGlobal, notAlone, if_false]
  by_cases wide : k = call.topkTokens
  · simp only [wide, ne_eq, not_true_eq_false, if_false, if_true]
    rcases logits with _ | _ | _ <;> rfl
  · simp [wide]

/-- A turn of the prefill loop is one merge, whether the rank owns tokens or not. -/
theorem prefillChunk_eq (shared : 1 < dcpWorldSize) (chunk : PrefillChunkMetadata) :
    prefillChunk dcpWorldSize call logits chunk =
      if min call.topkTokens call.bufferCols = call.topkTokens then
        .allGather (call.bufferSlice chunk.tokens.1 chunk.tokens.2.1) (min call.topkTokens call.bufferCols)
      else .raise "k == topk_tokens" := by
  simp only [prefillChunk, mergeDcpTopkGlobal_eq shared]
  split <;> rfl

variable (logits otherLogits) in
theorem prefillChunks_congr (shared : 1 < dcpWorldSize) {chunks others : List PrefillChunkMetadata}
    (same : chunks.map PrefillChunkMetadata.tokens = others.map PrefillChunkMetadata.tokens) :
    prefillChunks dcpWorldSize call logits chunks = prefillChunks dcpWorldSize call otherLogits others := by
  induction chunks generalizing others with
  | nil =>
      cases others with
      | nil => rfl
      | cons other rest => cases same
  | cons chunk rest ih =>
      cases others with
      | nil => cases same
      | cons other more =>
          rw [List.map_cons, List.map_cons, List.cons.injEq] at same
          rw [prefillChunks, prefillChunks, ih same.2, prefillChunk_eq shared, prefillChunk_eq shared, same.1]

/-- Where nothing is raised, the loop has issued one collective for each chunk. -/
theorem prefillChunks_calls (shared : 1 < dcpWorldSize) {chunks : List PrefillChunkMetadata}
    (returned : (prefillChunks dcpWorldSize call logits chunks).raised = none) :
    (prefillChunks dcpWorldSize call logits chunks).calls =
      chunks.map fun chunk => ⟨call.bufferSlice chunk.tokenStart chunk.tokenEnd, call.topkTokens⟩ := by
  induction chunks with
  | nil => rfl
  | cons chunk rest ih =>
      rw [prefillChunks, prefillChunk_eq shared] at returned ⊢
      by_cases wide : min call.topkTokens call.bufferCols = call.topkTokens
      · rw [if_pos wide] at returned ⊢
        simp only [Trace.andThen, Trace.allGather, if_true] at returned ⊢
        rw [ih returned, wide]
        rfl
      · rw [if_neg wide] at returned
        simp [Trace.andThen, Trace.raise] at returned

variable (logits otherLogits) in
theorem decodeTokens_congr (shared : 1 < dcpWorldSize) (numDecodeTokens : Nat) {decode other : DecodeTensors}
    (lens : decode.decodeLens = other.decodeLens) (padding : decode.requiresPadding = other.requiresPadding) :
    decodeTokens dcpWorldSize call logits packSeq numDecodeTokens decode =
      decodeTokens dcpWorldSize call otherLogits packSeq numDecodeTokens other := by
  simp only [decodeTokens, lens, padding, mergeDcpTopkGlobal_eq shared]

variable (logits otherLogits) in
theorem prefillPart_congr (shared : 1 < dcpWorldSize) {m other : IndexerMetadata}
    (same : m.tokens = other.tokens) :
    prefillPart dcpWorldSize call logits m = prefillPart dcpWorldSize call otherLogits other := by
  simp only [IndexerMetadata.tokens, Prod.mk.injEq] at same
  obtain ⟨-, -, numPrefills, prefill, -⟩ := same
  simp only [prefillPart, numPrefills]
  cases first : m.prefill with
  | none =>
      cases second : other.prefill with
      | none => rfl
      | some chunks => simp [first, second] at prefill
  | some chunks =>
      cases second : other.prefill with
      | none => simp [first, second] at prefill
      | some others =>
          simp only [first, second, Option.map_some, Option.some.injEq] at prefill
          simp only [prefillChunks_congr logits otherLogits shared prefill]

variable (logits otherLogits) in
theorem decodePart_congr (shared : 1 < dcpWorldSize) {m other : IndexerMetadata} (same : m.tokens = other.tokens) :
    decodePart dcpWorldSize call logits packSeq m = decodePart dcpWorldSize call otherLogits packSeq other := by
  simp only [IndexerMetadata.tokens, Prod.mk.injEq] at same
  obtain ⟨numDecodes, numDecodeTokens, -, -, decode⟩ := same
  simp only [decodePart, numDecodes, numDecodeTokens]
  cases first : m.decode with
  | none =>
      cases second : other.decode with
      | none => rfl
      | some tensors => simp [first, second] at decode
  | some tensors =>
      cases second : other.decode with
      | none => simp [first, second] at decode
      | some others =>
          simp only [first, second, Option.map_some, Option.some.injEq, Prod.mk.injEq] at decode
          simp only [decodeTokens_congr logits otherLogits shared other.numDecodeTokens decode.1 decode.2]

/-- Metadata of the same tokens lead to the same collectives, whatever logits the ranks have. -/
theorem sparseAttnIndexer_congr (shared : 1 < dcpWorldSize) {m other : IndexerMetadata}
    (same : m.tokens = other.tokens) :
    sparseAttnIndexer dcpWorldSize call logits packSeq m =
      sparseAttnIndexer dcpWorldSize call otherLogits packSeq other := by
  simp only [sparseAttnIndexer, prefillPart_congr logits otherLogits shared same,
    decodePart_congr logits otherLogits shared same]

theorem prefillPart_calls (shared : 1 < dcpWorldSize) {m : IndexerMetadata}
    (empty : m.numPrefills = 0 → m.prefill = none) (returned : (prefillPart dcpWorldSize call logits m).raised = none) :
    (prefillPart dcpWorldSize call logits m).calls =
      (m.prefill.getD []).map fun chunk => ⟨call.bufferSlice chunk.tokenStart chunk.tokenEnd, call.topkTokens⟩ := by
  unfold prefillPart at returned ⊢
  split
  case isTrue absent =>
    rw [empty absent]
    rfl
  case isFalse present =>
    rw [if_neg present] at returned
    cases chunked : m.prefill with
    | none => simp [chunked, Trace.raise] at returned
    | some chunks =>
        rw [chunked] at returned
        exact prefillChunks_calls shared returned

theorem decodeTokens_calls (shared : 1 < dcpWorldSize) {numDecodeTokens : Nat} {decode : DecodeTensors}
    (returned : (decodeTokens dcpWorldSize call logits packSeq numDecodeTokens decode).raised = none) :
    ∃ rows, (decodeTokens dcpWorldSize call logits packSeq numDecodeTokens decode).calls =
      [⟨rows, call.topkTokens⟩] := by
  simp only [decodeTokens, mergeDcpTopkGlobal_eq shared] at returned ⊢
  generalize (if decode.requiresPadding then some (packSeq (min numDecodeTokens call.queryRows) decode.decodeLens)
    else if decode.decodeLens.length = 0 ∨ min numDecodeTokens call.queryRows % decode.decodeLens.length ≠ 0 then none
    else some (decode.decodeLens.length, min numDecodeTokens call.queryRows / decode.decodeLens.length)) = padded
      at returned ⊢
  cases padded with
  | none => simp [Trace.raise] at returned
  | some shape =>
      dsimp only at returned ⊢
      by_cases wide : min call.topkTokens call.bufferCols = call.topkTokens
      · rw [if_pos wide, wide]
        exact ⟨call.bufferSlice 0 (shape.1 * shape.2), rfl⟩
      · rw [if_neg wide] at returned
        simp [Trace.raise] at returned

theorem decodePart_calls (shared : 1 < dcpWorldSize) {m : IndexerMetadata}
    (returned : (decodePart dcpWorldSize call logits packSeq m).raised = none) :
    ∃ rows, (decodePart dcpWorldSize call logits packSeq m).calls =
      if m.numDecodes = 0 then [] else [⟨rows, call.topkTokens⟩] := by
  unfold decodePart at returned ⊢
  split
  · exact ⟨0, rfl⟩
  case isFalse present =>
    rw [if_neg present] at returned
    cases decoded : m.decode with
    | none => simp [decoded, Trace.raise] at returned
    | some decode =>
        rw [decoded] at returned
        exact decodeTokens_calls shared returned

end Calls

end Agreement

end DgxSpark.Dcp

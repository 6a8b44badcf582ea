import DgxSpark.Library.Extreme
import DgxSpark.Dcp.IndexerBuild
import DgxSpark.Dcp.PrefillBounds

/-
This file embeds `_prepare_uniform_decode_kernel`, the flatten path of `_prepare_decode_tensors` and
`_dcp_localize_decode_seq_lens` on the persistent buffers, and shows what each flattened entry holds.
-/

namespace DgxSpark.Dcp
open DgxSpark.Library

/-- A word of the persistent buffers, which are long enough for the padded tokens. -/
inductive DecodePlace where
  | seqLen (idx : Nat)
  | decodeLen (idx : Nat)
  | block (row column : Nat)
deriving DecidableEq

abbrev DecodeBuffers := DecodePlace → Int

/-- The decodes of a batch. -/
structure DecodeBatch where
  numDecodes : Nat
  decodeLens : Nat → Nat
  seqLens : Nat → Int
  blockTable : Nat → Nat → Int
  numBlocks : Nat
  blockTableColStride : Nat

namespace DecodeBatch

variable (batch : DecodeBatch)

/-- The queries stand one after another. -/
def queryStartLoc (request : Nat) : Nat := ∑ before ∈ Finset.range request, batch.decodeLens before

def decodeLensCpu : List Nat := (List.range batch.numDecodes).map batch.decodeLens

def maxDecodeLen : Nat := batch.decodeLensCpu.foldl max 0

def minDecodeLen : Nat := batch.decodeLensCpu.foldl min batch.maxDecodeLen

/-- How many entries the decodes expand to. -/
def actualExpanded : Nat := batch.queryStartLoc batch.numDecodes

end DecodeBatch

namespace DecodeBuffers

/-- `decode_seq_lens_buffer[start:stop] = value`. -/
def assignSeqLens (buffers : DecodeBuffers) (inside : Nat → Prop) [DecidablePred inside] (value : Nat → Int) :
    DecodeBuffers
  | .seqLen idx => if inside idx then value idx else buffers (.seqLen idx)
  | .decodeLen idx => buffers (.decodeLen idx)
  | .block row column => buffers (.block row column)

/-- `decode_lens_buffer[start:stop] = value`. -/
def assignDecodeLens (buffers : DecodeBuffers) (inside : Nat → Prop) [DecidablePred inside] (value : Nat → Int) :
    DecodeBuffers
  | .seqLen idx => buffers (.seqLen idx)
  | .decodeLen idx => if inside idx then value idx else buffers (.decodeLen idx)
  | .block row column => buffers (.block row column)

/-- `expanded_block_table_buffer[rows, columns] = value`. -/
def assignBlocks (buffers : DecodeBuffers) (inside : Nat → Nat → Prop) [∀ row, DecidablePred (inside row)]
    (value : Nat → Nat → Int) : DecodeBuffers
  | .seqLen idx => buffers (.seqLen idx)
  | .decodeLen idx => buffers (.decodeLen idx)
  | .block row column => if inside row column then value row column else buffers (.block row column)

end DecodeBuffers

/-- `torch.repeat_interleave`: each row so many times. -/
def repeatInterleave {Row : Type} (rows : Nat → Row) (repeats : Nat → Nat) (count : Nat) : List Row :=
  (List.range count).flatMap fun row => List.replicate (repeats row) (rows row)

section Prepare

variable (batch : DecodeBatch) (columns : Nat)

/-- `_prepare_uniform_decode_kernel` for one entry. -/
def prepareUniformDecodeKernel (maxDecodeLen BLOCK_SIZE idx : Nat) : List (DecodePlace × Int) :=
  let reqId := idx / maxDecodeLen
  let localIdx := idx % maxDecodeLen
  let perTokenSeqLen := batch.seqLens reqId - maxDecodeLen + localIdx + 1
  [(.seqLen idx, perTokenSeqLen)] ++
    ((rangeStep 0 columns BLOCK_SIZE).flatMap fun i => (arange i BLOCK_SIZE).flatMap fun off =>
      maskedStore (off < columns) (.block idx off)
        (maskedLoad (off < columns ∧ off < batch.numBlocks) (batch.blockTable reqId off) 0)) ++
    [(.decodeLen idx, 1)]

/-- `build` takes the decode lengths into their buffer, and `decode_lens` is a view of it. -/
def takeDecodeLens (buffers : DecodeBuffers) : DecodeBuffers :=
  buffers.assignDecodeLens (· < batch.numDecodes) fun request => batch.decodeLens request

/-- The branch of variable decode lengths. -/
def prepareVariable (numDecodeTokens : Nat) (buffers : DecodeBuffers) : DecodeBuffers :=
  let actualExpanded := batch.decodeLensCpu.sum
  let expandedOffsets := repeatInterleave
    (fun request => batch.seqLens request - buffers (.decodeLen request) - batch.queryStartLoc request)
    (fun request => (buffers (.decodeLen request)).toNat) batch.numDecodes
  let buffers := buffers.assignSeqLens (· < actualExpanded) fun idx => expandedOffsets.getD idx 0 + idx + 1
  let buffers := buffers.assignSeqLens (actualExpanded ≤ ·) fun _ => 0
  let rows := repeatInterleave batch.blockTable (fun request => (buffers (.decodeLen request)).toNat) batch.numDecodes
  let buffers := buffers.assignBlocks (fun row column => row < actualExpanded ∧ column < batch.numBlocks)
    fun row column => (rows.getD row fun _ => 0) column
  let buffers := buffers.assignBlocks
    (fun row column => row < actualExpanded ∧ batch.numBlocks ≤ column ∧ column < columns) fun _ _ => 0
  let buffers :=
    if actualExpanded < numDecodeTokens then
      buffers.assignBlocks (fun row column => actualExpanded ≤ row ∧ row < numDecodeTokens ∧ column < columns)
        fun _ _ => 0
    else buffers
  buffers.assignDecodeLens (· < numDecodeTokens) fun _ => 1

/-- The branch of uniform decode lengths: the launch, then the zeros behind it. -/
def PrepareUniform (buffers final : DecodeBuffers) : Prop :=
  ∃ launched : DecodeBuffers,
    Launched (List.range (batch.numDecodes * batch.maxDecodeLen))
      (prepareUniformDecodeKernel batch columns batch.maxDecodeLen 1024) buffers launched ∧
    final = launched.assignSeqLens (batch.numDecodes * batch.maxDecodeLen ≤ ·) fun _ => 0

/-- The flatten path of `_prepare_decode_tensors`: the buffers it leaves and how many entries it returns of them. -/
def PrepareDecodeTensors (numDecodeTokens : Nat) (buffers : DecodeBuffers)
    (outcome : Except String (DecodeBuffers × Nat)) : Prop :=
  if columns < batch.numBlocks then outcome = .error "Indexer expanded block table is narrower than the input"
  else if batch.blockTableColStride ≠ 1 then outcome = .error "Indexer block table columns must have stride 1"
  else if batch.minDecodeLen = batch.maxDecodeLen then
    ∃ final, PrepareUniform batch columns buffers final ∧
      outcome = .ok (final, batch.numDecodes * batch.maxDecodeLen)
  else outcome = .ok (prepareVariable batch columns numDecodeTokens buffers, numDecodeTokens)

end Prepare

/-- `_dcp_localize_decode_seq_lens` on the view that the flatten path returns. -/
def localizeDecodeBuffer (dcpWorldSize dcpRank interleave batchSize : Nat) (buffers : DecodeBuffers) : DecodeBuffers :=
  if 1 < dcpWorldSize then
    buffers.assignSeqLens (· < batchSize) fun idx =>
      getDcpLocalSeqLens (buffers (.seqLen idx)) dcpWorldSize dcpRank interleave
  else buffers

theorem length_repeatInterleave {Row : Type} (rows : Nat → Row) (repeats : Nat → Nat) (count : Nat) :
    (repeatInterleave rows repeats count).length = ∑ row ∈ Finset.range count, repeats row := by
  induction count with
  | zero => rfl
  | succ count ih =>
      rw [repeatInterleave, List.range_succ, List.flatMap_append, List.length_append, Finset.sum_range_succ, ← ih,
        List.flatMap_singleton, List.length_replicate]
      rfl

/-- A row stands behind the repeats of the rows before it. -/
theorem getElem?_repeatInterleave {Row : Type} (rows : Nat → Row) (repeats : Nat → Nat) {count row again : Nat}
    (below : row < count) (repeated : again < repeats row) :
    (repeatInterleave rows repeats count)[∑ before ∈ Finset.range row, repeats before + again]? = some (rows row) := by
  induction count with
  | zero => exact absurd below (Nat.not_lt_zero row)
  | succ count ih =>
      have split : repeatInterleave rows repeats (count + 1) =
          repeatInterleave rows repeats count ++ List.replicate (repeats count) (rows count) := by
        rw [repeatInterleave, List.range_succ, List.flatMap_append, List.flatMap_singleton]
        rfl
      rw [split]
      by_cases last : row = count
      · subst last
        rw [List.getElem?_append_right (by rw [length_repeatInterleave]; omega), length_repeatInterleave,
          Nat.add_sub_cancel_left, List.getElem?_replicate_of_lt repeated]
      · have earlier : row < count := by omega
        have inside : ∑ before ∈ Finset.range row, repeats before + again <
            (repeatInterleave rows repeats count).length := by
          have more : ∑ before ∈ Finset.range (row + 1), repeats before ≤ ∑ before ∈ Finset.range count, repeats before :=
            Finset.sum_le_sum_of_subset (Finset.range_mono earlier)
          rw [Finset.sum_range_succ] at more
          rw [length_repeatInterleave]
          omega
        rw [List.getElem?_append_left inside]
        exact ih earlier

theorem repeatInterleave_congr {Row : Type} {rows others : Nat → Row} {repeats again : Nat → Nat} {count : Nat}
    (same : ∀ row < count, rows row = others row ∧ repeats row = again row) :
    repeatInterleave rows repeats count = repeatInterleave others again count := by
  apply List.flatMap_congr
  intro row member
  obtain ⟨here, times⟩ := same row (List.mem_range.mp member)
  rw [here, times]

namespace DecodeBatch

variable {batch : DecodeBatch}

theorem sum_decodeLensCpu (batch : DecodeBatch) : batch.decodeLensCpu.sum = batch.actualExpanded := by
  rw [decodeLensCpu, actualExpanded, queryStartLoc]
  induction batch.numDecodes with
  | zero => rfl
  | succ count ih => rw [List.range_succ, List.map_append, List.sum_append, ih, Finset.sum_range_succ]; rfl

/-- Where the shortest is as long as the longest, all are. -/
theorem uniform_of_min_eq (same : batch.minDecodeLen = batch.maxDecodeLen) {request : Nat}
    (below : request < batch.numDecodes) : batch.decodeLens request = batch.maxDecodeLen := by
  have member : batch.decodeLens request ∈ batch.decodeLensCpu :=
    List.mem_map_of_mem (List.mem_range.mpr below)
  have upper : batch.decodeLens request ≤ batch.maxDecodeLen := (foldl_max_le batch.decodeLensCpu 0).2 _ member
  have lower : batch.minDecodeLen ≤ batch.decodeLens request :=
    (foldl_min_le batch.decodeLensCpu batch.maxDecodeLen).2 _ member
  omega

/-- One length is the longest. -/
theorem maxDecodeLen_eq (positive : 0 < batch.maxDecodeLen) {length : Nat}
    (equal : ∀ request < batch.numDecodes, batch.decodeLens request = length) : batch.maxDecodeLen = length := by
  have some : 0 < batch.numDecodes := by
    by_contra none
    rw [maxDecodeLen, decodeLensCpu, Nat.eq_zero_of_not_pos none] at positive
    exact absurd positive (Nat.lt_irrefl 0)
  have upper : batch.maxDecodeLen ≤ length := by
    refine foldl_max_bound (Nat.zero_le length) fun other member => ?_
    obtain ⟨request, below, rfl⟩ := List.mem_map.mp member
    exact (equal request (List.mem_range.mp below)).le
  have lower : batch.decodeLens 0 ≤ batch.maxDecodeLen :=
    (foldl_max_le batch.decodeLensCpu 0).2 _ (List.mem_map_of_mem (List.mem_range.mpr some))
  rw [equal 0 some] at lower
  omega

theorem queryStartLoc_uniform {length : Nat} (uniform : ∀ request < batch.numDecodes, batch.decodeLens request = length)
    {request : Nat} (within : request ≤ batch.numDecodes) : batch.queryStartLoc request = request * length := by
  have each : ∀ before ∈ Finset.range request, batch.decodeLens before = length := fun before member =>
    uniform before (lt_of_lt_of_le (Finset.mem_range.mp member) within)
  rw [queryStartLoc, Finset.sum_congr rfl each, Finset.sum_const, Finset.card_range]
  rfl

/-- An entry of a request is one of the expanded ones. -/
theorem entry_lt {request token : Nat} (below : request < batch.numDecodes)
    (inside : token < batch.decodeLens request) : batch.queryStartLoc request + token < batch.actualExpanded := by
  have more : batch.queryStartLoc (request + 1) ≤ batch.actualExpanded :=
    Finset.sum_le_sum_of_subset (Finset.range_mono below)
  rw [queryStartLoc, Finset.sum_range_succ] at more
  exact lt_of_lt_of_le (Nat.add_lt_add_left inside _) more

/-- Each of the expanded entries is a token of a request. -/
theorem exists_entry (batch : DecodeBatch) {count idx : Nat} (below : idx < batch.queryStartLoc count) :
    ∃ request < count, ∃ token < batch.decodeLens request, batch.queryStartLoc request + token = idx := by
  induction count with
  | zero => exact absurd below (Nat.not_lt_zero idx)
  | succ count ih =>
      by_cases earlier : idx < batch.queryStartLoc count
      · obtain ⟨request, before, token, inside, same⟩ := ih earlier
        exact ⟨request, before.trans (Nat.lt_succ_self count), token, inside, same⟩
      · rw [queryStartLoc, Finset.sum_range_succ] at below
        have above : batch.queryStartLoc count ≤ idx := Nat.le_of_not_lt earlier
        rw [queryStartLoc] at above
        refine ⟨count, Nat.lt_succ_self count, idx - batch.queryStartLoc count, ?_, Nat.add_sub_cancel' above⟩
        rw [queryStartLoc]
        omega

end DecodeBatch

/-- A flattened entry holds what a token of a request attends to, its row of the table, and the length one. -/
structure Flattened (batch : DecodeBatch) (columns : Nat) (buffers : DecodeBuffers) (request token idx : Nat) : Prop where
  seqLen : buffers (.seqLen idx) = batch.seqLens request - batch.decodeLens request + token + 1
  row : ∀ column < columns, buffers (.block idx column) =
    if column < batch.numBlocks then batch.blockTable request column else 0
  decodeLen : buffers (.decodeLen idx) = 1

/-- An entry behind the expanded ones holds nothing. -/
structure Padding (columns : Nat) (buffers : DecodeBuffers) (idx : Nat) : Prop where
  seqLen : buffers (.seqLen idx) = 0
  row : ∀ column < columns, buffers (.block idx column) = 0

section Paths

variable {batch : DecodeBatch} {columns : Nat} {buffers final : DecodeBuffers}

/-- What the branch of variable lengths leaves at each place. -/
theorem prepareVariable_seqLen (numDecodeTokens idx : Nat) :
    prepareVariable batch columns numDecodeTokens buffers (.seqLen idx) =
      if batch.decodeLensCpu.sum ≤ idx then 0
      else if idx < batch.decodeLensCpu.sum then
        (repeatInterleave
          (fun request => batch.seqLens request - buffers (.decodeLen request) - batch.queryStartLoc request)
          (fun request => (buffers (.decodeLen request)).toNat) batch.numDecodes).getD idx 0 + idx + 1
      else buffers (.seqLen idx) := by
  simp only [prepareVariable]
  split <;> rfl

theorem prepareVariable_decodeLen (numDecodeTokens idx : Nat) :
    prepareVariable batch columns numDecodeTokens buffers (.decodeLen idx) =
      if idx < numDecodeTokens then 1 else buffers (.decodeLen idx) := by
  simp only [prepareVariable]
  split <;> rfl

theorem prepareVariable_block (numDecodeTokens row column : Nat) :
    prepareVariable batch columns numDecodeTokens buffers (.block row column) =
      if batch.decodeLensCpu.sum ≤ row ∧ row < numDecodeTokens ∧ column < columns then 0
      else if row < batch.decodeLensCpu.sum ∧ batch.numBlocks ≤ column ∧ column < columns then 0
      else if row < batch.decodeLensCpu.sum ∧ column < batch.numBlocks then
        ((repeatInterleave batch.blockTable (fun request => (buffers (.decodeLen request)).toNat)
          batch.numDecodes).getD row fun _ => 0) column
      else buffers (.block row column) := by
  simp only [prepareVariable]
  split
  case isTrue => rfl
  case isFalse all =>
    have none : ¬(batch.decodeLensCpu.sum ≤ row ∧ row < numDecodeTokens ∧ column < columns) := by omega
    rw [if_neg none]
    rfl

/-- The branch of variable lengths, on a view of the lengths that holds them. -/
theorem prepareVariable_flattened {numDecodeTokens : Nat} (padded : batch.actualExpanded ≤ numDecodeTokens)
    (lengths : ∀ request < batch.numDecodes, buffers (.decodeLen request) = batch.decodeLens request)
    {request token : Nat} (below : request < batch.numDecodes) (inside : token < batch.decodeLens request) :
    Flattened batch columns (prepareVariable batch columns numDecodeTokens buffers) request token
      (batch.queryStartLoc request + token) := by
  have entry := DecodeBatch.entry_lt below inside
  have counted : ∀ request < batch.numDecodes, (buffers (.decodeLen request)).toNat = batch.decodeLens request := by
    intro request below
    rw [lengths request below, Int.toNat_natCast]
  have offsets : repeatInterleave
      (fun request => batch.seqLens request - buffers (.decodeLen request) - batch.queryStartLoc request)
      (fun request => (buffers (.decodeLen request)).toNat) batch.numDecodes =
        repeatInterleave (fun request => batch.seqLens request - batch.decodeLens request - batch.queryStartLoc request)
          batch.decodeLens batch.numDecodes :=
    repeatInterleave_congr fun request below => ⟨by rw [lengths request below], counted request below⟩
  have rows : repeatInterleave batch.blockTable (fun request => (buffers (.decodeLen request)).toNat)
      batch.numDecodes = repeatInterleave batch.blockTable batch.decodeLens batch.numDecodes :=
    repeatInterleave_congr fun request below => ⟨rfl, counted request below⟩
  have place {Row : Type} (rows : Nat → Row) (other : Row) :
      (repeatInterleave rows batch.decodeLens batch.numDecodes).getD (batch.queryStartLoc request + token) other =
        rows request := by
    rw [List.getD_eq_getElem?_getD, DecodeBatch.queryStartLoc,
      getElem?_repeatInterleave rows batch.decodeLens below inside, Option.getD_some]
  constructor
  · rw [prepareVariable_seqLen, batch.sum_decodeLensCpu, if_neg (Nat.not_le.mpr entry), if_pos entry, offsets, place]
    omega
  · intro column within
    rw [prepareVariable_block, batch.sum_decodeLensCpu, if_neg (by omega)]
    by_cases own : column < batch.numBlocks
    · rw [if_neg (by omega), if_pos ⟨entry, own⟩, rows, place, if_pos own]
    · rw [if_pos ⟨entry, by omega, within⟩, if_neg own]
  · rw [prepareVariable_decodeLen, if_pos (by omega)]

/-- Behind the expanded entries it leaves zeros. -/
theorem prepareVariable_padding {numDecodeTokens idx : Nat} (above : batch.actualExpanded ≤ idx)
    (below : idx < numDecodeTokens) : Padding columns (prepareVariable batch columns numDecodeTokens buffers) idx where
  seqLen := by rw [prepareVariable_seqLen, batch.sum_decodeLensCpu, if_pos above]
  row column inside := by rw [prepareVariable_block, batch.sum_decodeLensCpu, if_pos ⟨above, below, inside⟩]

/-- What one program of the uniform launch stores. -/
theorem mem_prepareUniformDecodeKernel {maxDecodeLen BLOCK_SIZE idx : Nat} (someLane : 0 < BLOCK_SIZE)
    {store : DecodePlace × Int} :
    store ∈ prepareUniformDecodeKernel batch columns maxDecodeLen BLOCK_SIZE idx ↔
      store = (.seqLen idx, batch.seqLens (idx / maxDecodeLen) - maxDecodeLen + (idx % maxDecodeLen : Nat) + 1) ∨
      (∃ column < columns, store = (.block idx column,
        if column < batch.numBlocks then batch.blockTable (idx / maxDecodeLen) column else 0)) ∨
      store = (.decodeLen idx, 1) := by
  have lanes : ((rangeStep 0 columns BLOCK_SIZE).flatMap fun i => (arange i BLOCK_SIZE).flatMap fun off =>
      maskedStore (off < columns) (DecodePlace.block idx off)
        (maskedLoad (off < columns ∧ off < batch.numBlocks) (batch.blockTable (idx / maxDecodeLen) off) 0)) =
      (List.range' 0 (columns - 0)).flatMap fun off => maskedStore (off < columns) (DecodePlace.block idx off)
        (maskedLoad (off < columns ∧ off < batch.numBlocks) (batch.blockTable (idx / maxDecodeLen) off) 0) :=
    flatMap_lanes 0 columns BLOCK_SIZE someLane _ fun off beyond => if_neg (by omega)
  rw [prepareUniformDecodeKernel, lanes, List.mem_append, List.mem_append, List.mem_singleton, List.mem_singleton,
    List.mem_flatMap, or_assoc]
  simp only [mem_maskedStore, List.mem_range'_1, maskedLoad]
  refine or_congr_right (or_congr_left ⟨?_, ?_⟩)
  · rintro ⟨column, _, inside, rfl⟩
    exact ⟨column, inside, by simp [inside]⟩
  · rintro ⟨column, inside, rfl⟩
    exact ⟨column, by omega, inside, by simp [inside]⟩

/-- The branch of uniform lengths: the entry of a token is written by its own program only. -/
theorem PrepareUniform.flattened (prepared : PrepareUniform batch columns buffers final)
    (uniform : ∀ request < batch.numDecodes, batch.decodeLens request = batch.maxDecodeLen) {request token : Nat}
    (below : request < batch.numDecodes) (inside : token < batch.decodeLens request) :
    Flattened batch columns final request token (batch.queryStartLoc request + token) := by
  obtain ⟨launched, launch, rfl⟩ := prepared
  have length := uniform request below
  rw [DecodeBatch.queryStartLoc_uniform uniform below.le]
  rw [length] at inside
  have positive : 0 < batch.maxDecodeLen := Nat.zero_lt_of_lt inside
  have entry : request * batch.maxDecodeLen + token < batch.numDecodes * batch.maxDecodeLen := by
    have more := Nat.mul_le_mul_right batch.maxDecodeLen below
    rw [Nat.succ_mul] at more
    omega
  have reqId : (request * batch.maxDecodeLen + token) / batch.maxDecodeLen = request := by
    rw [Nat.mul_comm, Nat.mul_add_div positive, Nat.div_eq_of_lt inside, Nat.add_zero]
  have localIdx : (request * batch.maxDecodeLen + token) % batch.maxDecodeLen = token := by
    rw [Nat.mul_comm, Nat.mul_add_mod, Nat.mod_eq_of_lt inside]
  generalize request * batch.maxDecodeLen + token = idx at entry reqId localIdx
  have own : idx ∈ List.range (batch.numDecodes * batch.maxDecodeLen) := List.mem_range.mpr entry
  have stores := fun (other : Nat) (store : DecodePlace × Int) =>
    @mem_prepareUniformDecodeKernel batch columns batch.maxDecodeLen 1024 other (by decide) store
  constructor
  · show (if batch.numDecodes * batch.maxDecodeLen ≤ idx then 0 else launched (.seqLen idx)) = _
    rw [if_neg (Nat.not_le.mpr entry), length]
    refine launch.written ⟨idx, own, (stores _ _).mpr (.inl ?_)⟩ ?_
    · rw [reqId, localIdx]
    · intro other _ value member
      rcases (stores _ _).mp member with same | ⟨_, _, same⟩ | same
      · cases same
        rw [reqId, localIdx]
      · cases same
      · cases same
  · intro column within
    show launched (.block idx column) = _
    refine launch.written ⟨idx, own, (stores _ _).mpr (.inr (.inl ⟨column, within, ?_⟩))⟩ ?_
    · rw [reqId]
    · intro other _ value member
      rcases (stores _ _).mp member with same | ⟨_, _, same⟩ | same
      · cases same
      · cases same
        rw [reqId]
      · cases same
  · show launched (.decodeLen idx) = 1
    refine launch.written ⟨idx, own, (stores _ _).mpr (.inr (.inr rfl))⟩ ?_
    intro other _ value member
    rcases (stores _ _).mp member with same | ⟨_, _, same⟩ | same
    · cases same
    · cases same
    · cases same
      rfl

/-- What the uniform launch leaves is what the branch of variable lengths leaves. -/
theorem PrepareUniform.eq_variable (prepared : PrepareUniform batch columns buffers final)
    (narrow : batch.numBlocks ≤ columns) (uniform : ∀ request < batch.numDecodes, batch.decodeLens request = batch.maxDecodeLen)
    (lengths : ∀ request < batch.numDecodes, buffers (.decodeLen request) = batch.decodeLens request) :
    final = prepareVariable batch columns batch.actualExpanded buffers := by
  have total : batch.actualExpanded = batch.numDecodes * batch.maxDecodeLen :=
    DecodeBatch.queryStartLoc_uniform uniform le_rfl
  have entry : ∀ idx < batch.actualExpanded, ∃ request token, Flattened batch columns final request token idx ∧
      Flattened batch columns (prepareVariable batch columns batch.actualExpanded buffers) request token idx := by
    intro idx below
    obtain ⟨request, early, token, inside, rfl⟩ := batch.exists_entry below
    exact ⟨request, token, prepared.flattened uniform early inside,
      prepareVariable_flattened le_rfl lengths early inside⟩
  obtain ⟨launched, launch, rfl⟩ := prepared
  have untouched : ∀ place, (∀ idx < batch.actualExpanded, place ≠ .seqLen idx ∧ place ≠ .decodeLen idx ∧
      ∀ column < columns, place ≠ .block idx column) → launched place = buffers place := by
    intro place apart
    apply launch.other
    intro idx member value stored
    obtain ⟨first, second, third⟩ := apart idx (total ▸ List.mem_range.mp member)
    rcases (mem_prepareUniformDecodeKernel (by decide)).mp stored with same | ⟨column, inside, same⟩ | same
    · exact first (congrArg Prod.fst same)
    · exact third column inside (congrArg Prod.fst same)
    · exact second (congrArg Prod.fst same)
  funext place
  cases place with
  | seqLen idx =>
      by_cases below : idx < batch.actualExpanded
      · obtain ⟨_, _, first, second⟩ := entry idx below
        rw [first.seqLen, second.seqLen]
      · rw [prepareVariable_seqLen, batch.sum_decodeLensCpu, if_pos (Nat.le_of_not_lt below)]
        exact if_pos (total ▸ Nat.le_of_not_lt below)
  | decodeLen idx =>
      by_cases below : idx < batch.actualExpanded
      · obtain ⟨_, _, first, second⟩ := entry idx below
        rw [first.decodeLen, second.decodeLen]
      · rw [prepareVariable_decodeLen, if_neg below]
        refine untouched (.decodeLen idx) fun other early => ⟨by simp, ?_, by simp⟩
        rintro ⟨⟩
        exact below early
  | block row column =>
      by_cases below : row < batch.actualExpanded ∧ column < columns
      · obtain ⟨_, _, first, second⟩ := entry row below.1
        rw [first.row column below.2, second.row column below.2]
      · rw [prepareVariable_block, batch.sum_decodeLensCpu, if_neg (by omega), if_neg (by omega), if_neg (by omega)]
        refine untouched (.block row column) fun other early => ⟨by simp, by simp, fun place inside => ?_⟩
        rintro ⟨⟩
        exact below ⟨early, inside⟩

end Paths

/-- The static width of the logits of the decodes. -/
def dcpLogitsMaxLen (maxModelLen blockSize dcpWorldSize nextN : Nat) : Nat :=
  if 1 < dcpWorldSize then (maxModelLen + blockSize + dcpWorldSize - 1) / dcpWorldSize + nextN else maxModelLen

/-- The bound of the lengths of a rank for the early exit of the top-k. -/
def topkMaxSeqLen (maxSeqLen dcpWorldSize : Nat) : Nat := (maxSeqLen + dcpWorldSize - 1) / dcpWorldSize

section Localize

variable {ranks rank : Nat}

/-- A rank has its rounded-up part of a length at most. -/
theorem localCount_le (ranked : rank < ranks) {total limit : Nat} (within : total ≤ limit) :
    localCount ranks 1 rank total ≤ (limit + ranks - 1) / ranks := by
  have parts := Nat.div_add_mod total ranks
  have rest := Nat.mod_lt total (Nat.zero_lt_of_lt ranked)
  have share : localCount ranks 1 rank total ≤ (total + ranks - 1) / ranks := by
    simp only [localCount, Nat.div_one, Nat.mul_one]
    rw [Nat.le_div_iff_mul_le (Nat.zero_lt_of_lt ranked), Nat.add_mul, Nat.mul_comm (total / ranks)]
    generalize ranks * (total / ranks) = whole at parts
    by_cases none : total % ranks = 0
    · have empty : min (total - whole - rank) 1 = 0 := by omega
      rw [empty]
      omega
    · have one : min (total - whole - rank) 1 * ranks ≤ 1 * ranks := Nat.mul_le_mul_right ranks (Nat.min_le_right _ _)
      omega
  exact share.trans (Nat.div_le_div_right (by omega))

/-- The localized length of an entry that is returned. -/
theorem localizeDecodeBuffer_seqLen (ranked : rank < ranks) {buffers : DecodeBuffers} {batchSize idx total : Nat}
    (inside : idx < batchSize) (held : buffers (.seqLen idx) = total) :
    localizeDecodeBuffer ranks rank 1 batchSize buffers (.seqLen idx) = localCount ranks 1 rank total := by
  unfold localizeDecodeBuffer
  split
  case isTrue =>
    rw [DecodeBuffers.assignSeqLens, if_pos inside, held]
    exact getDcpLocalSeqLens_natCast total
  case isFalse alone =>
    have one : ranks = 1 := by omega
    have first : rank = 0 := by omega
    subst one
    subst first
    rw [held, localCount_one Nat.one_pos]

/-- Localizing touches the lengths only. -/
theorem localizeDecodeBuffer_other (buffers : DecodeBuffers) (batchSize idx column : Nat) :
    localizeDecodeBuffer ranks rank 1 batchSize buffers (.block idx column) = buffers (.block idx column) ∧
      localizeDecodeBuffer ranks rank 1 batchSize buffers (.decodeLen idx) = buffers (.decodeLen idx) := by
  unfold localizeDecodeBuffer
  split <;> exact ⟨rfl, rfl⟩

end Localize

variable {batch : DecodeBatch} {columns numDecodeTokens ranks rank : Nat}

theorem takeDecodeLens_decodeLen (batch : DecodeBatch) (buffers : DecodeBuffers) {request : Nat}
    (below : request < batch.numDecodes) : takeDecodeLens batch buffers (.decodeLen request) = batch.decodeLens request := by
  rw [takeDecodeLens, DecodeBuffers.assignDecodeLens, if_pos below]

/-- What either branch returns: the entries of the tokens, and nothing behind them. -/
theorem PrepareDecodeTensors.entries {buffers : DecodeBuffers} {outcome : Except String (DecodeBuffers × Nat)}
    (narrow : batch.numBlocks ≤ columns) (stride : batch.blockTableColStride = 1)
    (padded : batch.actualExpanded ≤ numDecodeTokens)
    (prepared : PrepareDecodeTensors batch columns numDecodeTokens (takeDecodeLens batch buffers) outcome) :
    ∃ final batchSize, outcome = .ok (final, batchSize) ∧ batch.actualExpanded ≤ batchSize ∧
      (∀ request token, request < batch.numDecodes → token < batch.decodeLens request →
        Flattened batch columns final request token (batch.queryStartLoc request + token)) ∧
      ∀ idx, batch.actualExpanded ≤ idx → idx < batchSize → Padding columns final idx := by
  rw [PrepareDecodeTensors, if_neg (Nat.not_lt.mpr narrow), if_neg (not_not.mpr stride)] at prepared
  split at prepared
  case isTrue same =>
    obtain ⟨final, launched, rfl⟩ := prepared
    have uniform : ∀ request < batch.numDecodes, batch.decodeLens request = batch.maxDecodeLen :=
      fun _ below => DecodeBatch.uniform_of_min_eq same below
    have total : batch.actualExpanded = batch.numDecodes * batch.maxDecodeLen :=
      DecodeBatch.queryStartLoc_uniform uniform le_rfl
    exact ⟨final, _, rfl, total.le, fun _ _ below inside => launched.flattened uniform below inside,
      fun idx above below => absurd below (by omega)⟩
  case isFalse =>
    exact ⟨_, _, prepared, padded, fun _ _ below inside => prepareVariable_flattened padded
      (fun _ here => takeDecodeLens_decodeLen batch buffers here) below inside,
      fun _ above below => prepareVariable_padding above below⟩

/-- After the expansion and the localization, whatever the buffers held: the entry of a token has the number of
positions that the rank owns up to the token, the row of its request with zeros behind it, and the length one, and the
returned entries behind the tokens hold nothing. The two branches leave the same where all lengths are equal, and the
localized lengths are within the static bounds. -/
theorem decode_expansion_exact (ranked : rank < ranks) (narrow : batch.numBlocks ≤ columns)
    (stride : batch.blockTableColStride = 1) (longest : 1 < batch.maxDecodeLen)
    (padded : batch.actualExpanded ≤ numDecodeTokens)
    (contexts : ∀ request < batch.numDecodes, (batch.decodeLens request : Int) ≤ batch.seqLens request)
    (buffers : DecodeBuffers) :
    (∀ outcome, PrepareDecodeTensors batch columns numDecodeTokens (takeDecodeLens batch buffers) outcome →
      ∃ final batchSize, outcome = .ok (final, batchSize) ∧ batch.actualExpanded ≤ batchSize ∧
        (∀ request token, request < batch.numDecodes → token < batch.decodeLens request →
          let idx := batch.queryStartLoc request + token
          localizeDecodeBuffer ranks rank 1 batchSize final (.seqLen idx) =
              (share ranks 1 rank (batch.seqLens request - batch.decodeLens request + token + 1).toNat).card ∧
            (∀ column < columns, localizeDecodeBuffer ranks rank 1 batchSize final (.block idx column) =
              if column < batch.numBlocks then batch.blockTable request column else 0) ∧
            localizeDecodeBuffer ranks rank 1 batchSize final (.decodeLen idx) = 1) ∧
        (∀ idx, batch.actualExpanded ≤ idx → idx < batchSize →
          Padding columns (localizeDecodeBuffer ranks rank 1 batchSize final) idx) ∧
        (2 ≤ ranks → ∀ idx < batchSize, ∀ maxModelLen blockSize nextN maxSeqLen : Nat,
          (final (.seqLen idx) ≤ (maxModelLen + blockSize : Nat) →
            localizeDecodeBuffer ranks rank 1 batchSize final (.seqLen idx) ≤
              dcpLogitsMaxLen maxModelLen blockSize ranks nextN) ∧
          (final (.seqLen idx) ≤ maxSeqLen →
            localizeDecodeBuffer ranks rank 1 batchSize final (.seqLen idx) ≤ topkMaxSeqLen maxSeqLen ranks))) ∧
    (∀ length, (∀ request < batch.numDecodes, batch.decodeLens request = length) →
      ∀ final, PrepareUniform batch columns (takeDecodeLens batch buffers) final →
        final = prepareVariable batch columns batch.actualExpanded (takeDecodeLens batch buffers) ∧
        ∀ idx, final (.seqLen idx) =
            prepareVariable batch columns numDecodeTokens (takeDecodeLens batch buffers) (.seqLen idx) ∧
          (idx < batch.actualExpanded → ∀ column,
            final (.decodeLen idx) =
                prepareVariable batch columns numDecodeTokens (takeDecodeLens batch buffers) (.decodeLen idx) ∧
              final (.block idx column) =
                prepareVariable batch columns numDecodeTokens (takeDecodeLens batch buffers) (.block idx column))) := by
  constructor
  · intro outcome prepared
    obtain ⟨final, batchSize, ended, enough, entries, padding⟩ := prepared.entries narrow stride padded
    have global : ∀ idx < batchSize, ∃ total : Nat, final (.seqLen idx) = total := by
      intro idx below
      by_cases expanded : idx < batch.actualExpanded
      · obtain ⟨request, early, token, inside, rfl⟩ := batch.exists_entry expanded
        have held := (entries request token early inside).seqLen
        have context := contexts request early
        exact ⟨_, held.trans (Int.toNat_of_nonneg (by omega)).symm⟩
      · exact ⟨0, (padding idx (Nat.le_of_not_lt expanded) below).seqLen⟩
    refine ⟨final, batchSize, ended, enough, ?_, ?_, ?_⟩
    · intro request token early inside idx
      have entry := entries request token early inside
      have below : idx < batchSize := lt_of_lt_of_le (DecodeBatch.entry_lt early inside) enough
      have context := contexts request early
      have held : final (.seqLen idx) =
          ((batch.seqLens request - batch.decodeLens request + token + 1).toNat : Nat) :=
        entry.seqLen.trans (Int.toNat_of_nonneg (by omega)).symm
      refine ⟨?_, ?_, ?_⟩
      · rw [localizeDecodeBuffer_seqLen ranked below held, localCount_eq_share Nat.one_pos ranked]
      · intro column within
        rw [(localizeDecodeBuffer_other final batchSize idx column).1]
        exact entry.row column within
      · rw [(localizeDecodeBuffer_other final batchSize idx 0).2]
        exact entry.decodeLen
    · intro idx above below
      have none := padding idx above below
      constructor
      · rw [localizeDecodeBuffer_seqLen ranked below none.seqLen, localCount_zero]
        rfl
      · intro column within
        rw [(localizeDecodeBuffer_other final batchSize idx column).1]
        exact none.row column within
    · intro shared idx below maxModelLen blockSize nextN maxSeqLen
      obtain ⟨total, held⟩ := global idx below
      rw [localizeDecodeBuffer_seqLen ranked below held, held]
      constructor
      · intro within
        have bound := localCount_le ranked (Int.ofNat_le.mp within)
        rw [dcpLogitsMaxLen, if_pos (show 1 < ranks from shared)]
        omega
      · intro within
        exact Int.ofNat_le.mpr (localCount_le ranked (Int.ofNat_le.mp within))
  · intro length equal final prepared
    have lengths : ∀ request < batch.numDecodes,
        takeDecodeLens batch buffers (.decodeLen request) = batch.decodeLens request :=
      fun _ below => takeDecodeLens_decodeLen batch buffers below
    have uniform : ∀ request < batch.numDecodes, batch.decodeLens request = batch.maxDecodeLen := by
      intro request below
      rw [equal request below, DecodeBatch.maxDecodeLen_eq (Nat.zero_lt_of_lt longest) equal]
    have same := prepared.eq_variable narrow uniform lengths
    refine ⟨same, fun idx => ⟨?_, fun below column => ?_⟩⟩
    · rw [same, prepareVariable_seqLen, prepareVariable_seqLen]
    · have within : idx < numDecodeTokens := lt_of_lt_of_le below padded
      have expanded : ∀ bound, ¬(batch.actualExpanded ≤ idx ∧ idx < bound ∧ column < columns) := by omega
      rw [same]
      constructor
      · rw [prepareVariable_decodeLen, prepareVariable_decodeLen, if_pos below, if_pos within]
      · rw [prepareVariable_block, prepareVariable_block, batch.sum_decodeLensCpu, if_neg (expanded _),
          if_neg (expanded _)]

/-- Two decodes, of two tokens and of one. -/
def twoDecodes : DecodeBatch where
  numDecodes := 2
  decodeLens := fun request => 2 - request
  seqLens := fun request => 3 + request
  blockTable := fun request column => 10 * request + column
  numBlocks := 2
  blockTableColStride := 1

/-- The second token of the first request, on the second of two ranks; there is room for two more tokens. -/
theorem decode_expansion_exact_twoDecodes :
    ∃ final, PrepareDecodeTensors twoDecodes 3 5 (takeDecodeLens twoDecodes fun _ => 7) (.ok (final, 5)) ∧
      localizeDecodeBuffer 2 1 1 5 final (.seqLen 1) = 1 ∧
      localizeDecodeBuffer 2 1 1 5 final (.seqLen 4) = 0 := by
  have narrow : twoDecodes.numBlocks ≤ 3 := by decide
  have longest : 1 < twoDecodes.maxDecodeLen := by decide
  have padded : twoDecodes.actualExpanded ≤ 5 := by decide
  have contexts : ∀ request < twoDecodes.numDecodes,
      (twoDecodes.decodeLens request : Int) ≤ twoDecodes.seqLens request := by decide
  have prepared : PrepareDecodeTensors twoDecodes 3 5 (takeDecodeLens twoDecodes fun _ => 7)
      (.ok (prepareVariable twoDecodes 3 5 (takeDecodeLens twoDecodes fun _ => 7), 5)) := by
    have mixed : twoDecodes.minDecodeLen ≠ twoDecodes.maxDecodeLen := by decide
    have stride : ¬twoDecodes.blockTableColStride ≠ 1 := not_not.mpr rfl
    rw [PrepareDecodeTensors, if_neg (Nat.not_lt.mpr narrow), if_neg stride, if_neg mixed]
  obtain ⟨final, batchSize, ended, _, entries, padding, _⟩ :=
    (decode_expansion_exact (show 1 < 2 by decide) narrow rfl longest padded contexts fun _ => 7).1 _ prepared
  cases ended
  exact ⟨_, prepared, (entries 0 1 (by decide) (by decide)).1, (padding 4 (by decide) (by decide)).seqLen⟩

end DgxSpark.Dcp

import DgxSpark.Dcp.Indexer
import Mathlib.Algebra.BigOperators.Ring.Finset
import Mathlib.Tactic.Ring

/-
This file says that the bounds of the query rows of a prefill chunk share the context out to the ranks.
-/

namespace DgxSpark.Dcp
open DgxSpark.Library

section Lengths

variable {ranks interleave rank : Nat}

/-- The shard length is the number of positions of the rank. -/
theorem getDcpLocalSeqLens_natCast (total : Nat) :
    getDcpLocalSeqLens total ranks rank interleave = (localCount ranks interleave rank total : Nat) := by
  have base : (total : Int) / interleave / ranks * interleave = (total / interleave / ranks * interleave : Nat) := by
    push_cast
    rfl
  have rounds : total / interleave / ranks * interleave * ranks ≤ total := by
    rw [Nat.div_div_eq_div_mul, Nat.mul_assoc]
    exact Nat.div_mul_le_self total (interleave * ranks)
  simp only [getDcpLocalSeqLens, base, localCount]
  generalize total / interleave / ranks * interleave = base at rounds
  push_cast [Nat.cast_sub]
  have product : ((base * ranks : Nat) : Int) = base * ranks := Nat.cast_mul _ _
  have offset : ((rank * interleave : Nat) : Int) = rank * interleave := Nat.cast_mul _ _
  omega

/-- The bound of a query row counts the positions of the rank up to the query's own. -/
theorem seqLenPerToken_eq {queryStartLoc : Nat → Nat} {seqLens : Nat → Nat} {batchIdx offset : Nat}
    (someRun : 0 < interleave) (ranked : rank < ranks) (ordered : queryStartLoc batchIdx ≤ queryStartLoc (batchIdx + 1))
    (inside : queryStartLoc (batchIdx + 1) - queryStartLoc batchIdx ≤ seqLens batchIdx) :
    seqLenPerToken queryStartLoc (fun request => seqLens request) rank ranks interleave 1 batchIdx offset =
      (localCount ranks interleave rank
        (seqLens batchIdx - (queryStartLoc (batchIdx + 1) - queryStartLoc batchIdx) + offset + 1) : Nat) := by
  have start : (seqLens batchIdx : Int) - (queryStartLoc (batchIdx + 1) - queryStartLoc batchIdx) + 1 + offset =
      (seqLens batchIdx - (queryStartLoc (batchIdx + 1) - queryStartLoc batchIdx) + offset + 1 : Nat) := by omega
  simp only [seqLenPerToken, start, Nat.cast_one, Int.tdiv_one]
  generalize seqLens batchIdx - (queryStartLoc (batchIdx + 1) - queryStartLoc batchIdx) + offset + 1 = total
  by_cases shared : 1 < ranks
  · rw [if_pos shared, ← getDcpLocalSeqLens_natCast]
    rfl
  · have alone : ranks = 1 := by omega
    have first : rank = 0 := by omega
    subst alone
    subst first
    rw [if_neg shared, localCount_one someRun]

theorem cumsum_natCast (lengths : Nat → Nat) (count : Nat) :
    cumsum (fun request => lengths request) count = (∑ request ∈ Finset.range count, lengths request : Nat) := by
  induction count with
  | zero => rfl
  | succ count ih => rw [cumsum_succ, ih, Finset.sum_range_succ, Nat.cast_add]

end Lengths

section Rows

/-- The rows that some stores write of an output. -/
def rowsOf (output : PrefillOutput) (stores : List ((PrefillOutput × Nat) × Int)) : List Nat :=
  stores.filterMap fun store => if store.1.1 = output then some store.1.2 else none

theorem countP_eq_count_rowsOf (output : PrefillOutput) (row : Nat) (stores : List ((PrefillOutput × Nat) × Int)) :
    stores.countP (fun store => store.1 = (output, row)) = (rowsOf output stores).count row := by
  induction stores with
  | nil => rfl
  | cons head rest ih =>
      obtain ⟨⟨here, place⟩, value⟩ := head
      by_cases same : here = output
      · by_cases there : place = row
        · simp_all [rowsOf]
        · simp_all [rowsOf]
      · simp_all [rowsOf]

variable {queryStartLoc : Nat → Nat} {seqLens cuSeqLens rowStartCuSeqLens : Nat → Int}
  {qsStart qsStop rank ranks interleave BLOCK_SIZE ratio : Nat} {output : PrefillOutput}

/-- The value of a query row. -/
def rowValue (queryStartLoc : Nat → Nat) (seqLens rowStartCuSeqLens : Nat → Int) (rank ranks interleave ratio : Nat)
    (output : PrefillOutput) (batchIdx offset : Nat) : Int :=
  if output = .cuSeqLenKs then rowStartCuSeqLens batchIdx
  else rowStartCuSeqLens batchIdx + seqLenPerToken queryStartLoc seqLens rank ranks interleave ratio batchIdx offset

/-- The kernel is two loops, over the queries of the request and over its context. -/
theorem buildPrefillChunkMetadataKernel_eq (someLane : 0 < BLOCK_SIZE) (batchIdx : Nat) :
    buildPrefillChunkMetadataKernel queryStartLoc seqLens cuSeqLens rowStartCuSeqLens qsStart qsStop rank ranks
        interleave BLOCK_SIZE ratio batchIdx =
      (List.range' 0 (queryStartLoc (batchIdx + 1) - queryStartLoc batchIdx)).flatMap
          (queryLane queryStartLoc seqLens rowStartCuSeqLens qsStart qsStop rank ranks interleave ratio batchIdx) ++
        (List.range' 0 (cuSeqLens (batchIdx + 1) - cuSeqLens batchIdx).toNat).flatMap
          (contextLane cuSeqLens batchIdx) := by
  simp only [buildPrefillChunkMetadataKernel]
  rw [flatMap_lanes _ _ _ someLane, flatMap_lanes _ _ _ someLane, Nat.sub_zero, Nat.sub_zero]
  · intro offset beyond
    apply if_neg
    omega
  · intro offset beyond
    have outside : ¬(offset < queryStartLoc (batchIdx + 1) - queryStartLoc batchIdx ∧
        qsStart ≤ queryStartLoc batchIdx + offset ∧ queryStartLoc batchIdx + offset < qsStop) := by omega
    simp [queryLane, maskedStore, outside]

/-- What the kernel stores to a row of a bound. -/
theorem mem_kernel_bound (someLane : 0 < BLOCK_SIZE) (bound : output ≠ .tokenToSeq) {batchIdx row : Nat} {value : Int} :
    ((output, row), value) ∈ buildPrefillChunkMetadataKernel queryStartLoc seqLens cuSeqLens rowStartCuSeqLens qsStart
        qsStop rank ranks interleave BLOCK_SIZE ratio batchIdx ↔
      ∃ offset, offset < queryStartLoc (batchIdx + 1) - queryStartLoc batchIdx ∧
        qsStart ≤ queryStartLoc batchIdx + offset ∧ queryStartLoc batchIdx + offset < qsStop ∧
          row = queryStartLoc batchIdx + offset - qsStart ∧
            value = rowValue queryStartLoc seqLens rowStartCuSeqLens rank ranks interleave ratio output batchIdx
              offset := by
  have context : ((output, row), value) ∉ (List.range' 0 (cuSeqLens (batchIdx + 1) - cuSeqLens batchIdx).toNat).flatMap
      (contextLane cuSeqLens batchIdx) := by
    simp [contextLane, mem_maskedStore, bound]
  rw [buildPrefillChunkMetadataKernel_eq someLane, List.mem_append, or_iff_left context, List.mem_flatMap]
  simp only [queryLane, List.mem_append, mem_maskedStore, List.mem_range'_1, Prod.mk.injEq]
  constructor
  · rintro ⟨offset, -, (⟨⟨inside, lower, upper⟩, ⟨rfl, rfl⟩, rfl⟩ | ⟨⟨inside, lower, upper⟩, ⟨rfl, rfl⟩, rfl⟩)⟩
    · exact ⟨offset, inside, lower, upper, rfl, rfl⟩
    · exact ⟨offset, inside, lower, upper, rfl, rfl⟩
  · rintro ⟨offset, inside, lower, upper, rfl, rfl⟩
    refine ⟨offset, by omega, ?_⟩
    cases output with
    | tokenToSeq => exact absurd rfl bound
    | cuSeqLenKs => exact Or.inl ⟨⟨inside, lower, upper⟩, ⟨rfl, rfl⟩, rfl⟩
    | cuSeqLenKe => exact Or.inr ⟨⟨inside, lower, upper⟩, ⟨rfl, rfl⟩, rfl⟩

variable {numReqs : Nat} {memory final : PrefillOutput × Nat → Int}

/-- After the launch the row of a query has its value. -/
theorem final_bound (someLane : 0 < BLOCK_SIZE) (bound : output ≠ .tokenToSeq) (ordered : Monotone queryStartLoc)
    (launched : Launched (List.range numReqs) (buildPrefillChunkMetadataKernel queryStartLoc seqLens cuSeqLens
      rowStartCuSeqLens qsStart qsStop rank ranks interleave BLOCK_SIZE ratio) memory final)
    {batchIdx offset : Nat} (request : batchIdx < numReqs)
    (inside : offset < queryStartLoc (batchIdx + 1) - queryStartLoc batchIdx)
    (lower : qsStart ≤ queryStartLoc batchIdx + offset) (upper : queryStartLoc batchIdx + offset < qsStop) :
    final (output, queryStartLoc batchIdx + offset - qsStart) =
      rowValue queryStartLoc seqLens rowStartCuSeqLens rank ranks interleave ratio output batchIdx offset := by
  apply launched.written
  · exact ⟨batchIdx, List.mem_range.mpr request,
      (mem_kernel_bound someLane bound).mpr ⟨offset, inside, lower, upper, rfl, rfl⟩⟩
  · intro otherIdx _ value member
    obtain ⟨otherOffset, otherInside, otherLower, otherUpper, same, rfl⟩ := (mem_kernel_bound someLane bound).mp member
    have placed : queryStartLoc batchIdx + offset = queryStartLoc otherIdx + otherOffset := by omega
    have together : batchIdx = otherIdx := by
      apply segment_unique ordered (Nat.le_add_right _ offset) (by omega)
      · rw [placed]
        exact Nat.le_add_right _ _
      · omega
    subst together
    have here : offset = otherOffset := by omega
    rw [here]

theorem rowsOf_append (output : PrefillOutput) (first second : List ((PrefillOutput × Nat) × Int)) :
    rowsOf output (first ++ second) = rowsOf output first ++ rowsOf output second := List.filterMap_append

theorem rowsOf_flatMap {Index : Type} (output : PrefillOutput) (indices : List Index)
    (stores : Index → List ((PrefillOutput × Nat) × Int)) :
    rowsOf output (indices.flatMap stores) = indices.flatMap fun index => rowsOf output (stores index) :=
  List.filterMap_flatMap

/-- A bound is stored once for each row of the slice, in order. -/
theorem rowsOf_launch (someLane : 0 < BLOCK_SIZE) (bound : output ≠ .tokenToSeq) (ordered : Monotone queryStartLoc)
    (zero : queryStartLoc 0 = 0) (within : qsStop ≤ queryStartLoc numReqs) :
    rowsOf output ((List.range numReqs).flatMap (buildPrefillChunkMetadataKernel queryStartLoc seqLens cuSeqLens
      rowStartCuSeqLens qsStart qsStop rank ranks interleave BLOCK_SIZE ratio)) = List.range (qsStop - qsStart) := by
  have lane : ∀ batchIdx, ∀ offset ∈ List.range' 0 (queryStartLoc (batchIdx + 1) - queryStartLoc batchIdx),
      rowsOf output (queryLane queryStartLoc seqLens rowStartCuSeqLens qsStart qsStop rank ranks interleave ratio
        batchIdx offset) =
        if qsStart ≤ queryStartLoc batchIdx + offset ∧ queryStartLoc batchIdx + offset < qsStop then
          [queryStartLoc batchIdx + offset - qsStart] else [] := by
    intro batchIdx offset member
    have inside : offset < queryStartLoc (batchIdx + 1) - queryStartLoc batchIdx := by
      have := (List.mem_range'_1.mp member).2
      omega
    by_cases sliced : qsStart ≤ queryStartLoc batchIdx + offset ∧ queryStartLoc batchIdx + offset < qsStop
    · cases output with
      | tokenToSeq => exact absurd rfl bound
      | cuSeqLenKs => simp [queryLane, rowsOf, maskedStore, inside, sliced]
      | cuSeqLenKe => simp [queryLane, rowsOf, maskedStore, inside, sliced]
    · simp [queryLane, rowsOf, maskedStore, inside, sliced]
  have context : ∀ batchIdx offset, rowsOf output (contextLane cuSeqLens batchIdx offset) = [] := by
    intro batchIdx offset
    simp only [contextLane, maskedStore, rowsOf]
    split
    · simp [bound.symm]
    · rfl
  have program : ∀ batchIdx, rowsOf output (buildPrefillChunkMetadataKernel queryStartLoc seqLens cuSeqLens
      rowStartCuSeqLens qsStart qsStop rank ranks interleave BLOCK_SIZE ratio batchIdx) =
        (List.range' 0 (queryStartLoc (batchIdx + 1) - queryStartLoc batchIdx)).flatMap fun offset =>
          if qsStart ≤ queryStartLoc batchIdx + offset ∧ queryStartLoc batchIdx + offset < qsStop then
            [queryStartLoc batchIdx + offset - qsStart] else [] := by
    intro batchIdx
    rw [buildPrefillChunkMetadataKernel_eq someLane, rowsOf_append, rowsOf_flatMap, rowsOf_flatMap,
      List.flatMap_congr (lane batchIdx)]
    simp [context]
  rw [rowsOf_flatMap]
  simp only [program]
  rw [flatMap_segments ordered zero numReqs fun place =>
    if qsStart ≤ place ∧ place < qsStop then [place - qsStart] else []]
  exact flatMap_slice within

end Rows

section Chunk

/-- The positions below a total that a rank owns. -/
def share (ranks interleave rank total : Nat) : Finset Nat :=
  (Finset.range total).filter fun position => ownerOf ranks interleave position = rank

theorem localCount_eq_share {ranks interleave rank : Nat} (someRun : 0 < interleave) (ranked : rank < ranks)
    (total : Nat) : localCount ranks interleave rank total = (share ranks interleave rank total).card :=
  localCount_eq_card someRun ranked total

/-- A chunk of requests with queries, whose lengths are exact and not compressed. -/
structure IndexerBatch.Prefill (batch : IndexerBatch) (startIdx endIdx : Nat) : Prop where
  nonempty : startIdx < endIdx
  queries : ∀ request, startIdx ≤ request → request < endIdx →
    batch.queryStartLoc request < batch.queryStartLoc (request + 1) ∧
      batch.queryStartLoc (request + 1) - batch.queryStartLoc request ≤ batch.seqLens request
  compressed : batch.compressedSeqLens = batch.seqLens
  exact : batch.compressedSeqLensCpu = batch.seqLens

/-- The bounds of a query row on a rank, for the query at a position of a request. -/
structure RowBounds (m : PrefillChunkMetadata) (final : PrefillOutput × Nat → Int) (ranks interleave rank : Nat)
    (lengths : Nat → Nat) (request position row : Nat) : Prop where
  count : final (.cuSeqLenKe, row) - final (.cuSeqLenKs, row) = (share ranks interleave rank (position + 1)).card
  places : ∀ place : Nat, (place : Int) < final (.cuSeqLenKe, row) - final (.cuSeqLenKs, row) ↔
    ∃ token ∈ share ranks interleave rank (position + 1), localOf ranks interleave token = place
  start : final (.cuSeqLenKs, row) =
    (∑ before ∈ Finset.range request, (share ranks interleave rank (lengths before)).card : Nat)
  next : final (.cuSeqLenKe, row) ≤
    (∑ before ∈ Finset.range (request + 1), (share ranks interleave rank (lengths before)).card : Nat)
  total : final (.cuSeqLenKe, row) ≤ m.totalSeqLens
  once : ∀ output, output ≠ .tokenToSeq →
    ((List.range m.numReqs).flatMap m.kernel).countP (fun store => store.1 = (output, row)) = 1

variable {batch : IndexerBatch} {startIdx endIdx ranks interleave : Nat} {querySlice : Option (Nat × Nat)}
  {skipKvGather : Bool}

variable (querySlice skipKvGather) in
/-- What the rank builds for a chunk. -/
theorem buildPrefillChunkMetadata_prefill (prefill : batch.Prefill startIdx endIdx) (someRun : 0 < interleave)
    {rank : Nat} (ranked : rank < ranks) :
    ∃ m, buildPrefillChunkMetadata rank ranks interleave 1 batch startIdx endIdx querySlice skipKvGather = some m ∧
      m.numReqs = endIdx - startIdx ∧
      m.totalSeqLens = (∑ before ∈ Finset.range (endIdx - startIdx),
        (share ranks interleave rank (batch.seqLens (startIdx + before))).card : Nat) ∧
      ∃ cuSeqLens, m.kernel = buildPrefillChunkMetadataKernel
        (fun request => batch.queryStartLoc (startIdx + request) - batch.queryStartLoc startIdx)
        (fun request => batch.seqLens (startIdx + request)) cuSeqLens
        (fun count => (∑ before ∈ Finset.range count,
          (share ranks interleave rank (batch.seqLens (startIdx + before))).card : Nat))
        (querySlice.getD (0, batch.queryStartLoc endIdx - batch.queryStartLoc startIdx)).1
        (querySlice.getD (0, batch.queryStartLoc endIdx - batch.queryStartLoc startIdx)).2
        rank ranks interleave 1024 1 := by
  have someContext : cumsum (fun request => (batch.compressedSeqLensCpu (startIdx + request) : Int))
      (endIdx - startIdx) ≠ 0 := by
    have := prefill.nonempty
    have first := prefill.queries startIdx le_rfl prefill.nonempty
    have positive : batch.seqLens (startIdx + 0) ≤
        ∑ request ∈ Finset.range (endIdx - startIdx), batch.seqLens (startIdx + request) :=
      Finset.single_le_sum (f := fun request => batch.seqLens (startIdx + request)) (fun _ _ => Nat.zero_le _)
        (Finset.mem_range.mpr (by omega))
    rw [prefill.exact, cumsum_natCast fun request => batch.seqLens (startIdx + request)]
    rw [Nat.add_zero] at positive
    omega
  have localTotals : ∀ count, (if 1 < ranks then
        cumsum (fun request => getDcpLocalSeqLens (batch.seqLens (startIdx + request)) ranks rank interleave) count
      else cumsum (fun request => (batch.seqLens (startIdx + request) : Int)) count) =
        (∑ before ∈ Finset.range count,
          (share ranks interleave rank (batch.seqLens (startIdx + before))).card : Nat) := by
    intro count
    by_cases shared : 1 < ranks
    · simp only [shared, if_true, getDcpLocalSeqLens_natCast]
      rw [cumsum_natCast fun request => localCount ranks interleave rank (batch.seqLens (startIdx + request))]
      simp only [localCount_eq_share someRun ranked]
    · have alone : ranks = 1 := by omega
      have first : rank = 0 := by omega
      subst alone
      subst first
      rw [if_neg shared, cumsum_natCast fun request => batch.seqLens (startIdx + request)]
      simp only [← localCount_eq_share someRun Nat.one_pos, localCount_one someRun]
  refine ⟨_, if_neg someContext, rfl, ?_, ?_⟩
  · rw [prefill.exact]
    exact localTotals _
  · refine ⟨cumsum fun request => batch.compressedSeqLens (startIdx + request), ?_⟩
    dsimp only
    congr 1
    funext count
    rw [← localTotals count, prefill.compressed]
    split <;> rfl

/-- The query starts of a chunk, counted from its first. -/
theorem IndexerBatch.chunk_ordered (batch : IndexerBatch) (startIdx : Nat) :
    Monotone fun request => batch.queryStartLoc (startIdx + request) - batch.queryStartLoc startIdx := by
  intro first second below
  apply Nat.sub_le_sub_right
  exact batch.ordered (Nat.add_le_add_left below startIdx)

/-- The rank's bounds of a row of the slice. -/
theorem rowBounds_of_launched (prefill : batch.Prefill startIdx endIdx) (someRun : 0 < interleave) {rank : Nat}
    (ranked : rank < ranks) {m : PrefillChunkMetadata}
    (built : buildPrefillChunkMetadata rank ranks interleave 1 batch startIdx endIdx querySlice skipKvGather = some m)
    (within : (querySlice.getD (0, batch.queryStartLoc endIdx - batch.queryStartLoc startIdx)).2 ≤
      batch.queryStartLoc endIdx - batch.queryStartLoc startIdx)
    {memory final : PrefillOutput × Nat → Int} (launched : Launched (List.range m.numReqs) m.kernel memory final)
    {request offset place : Nat} (inside : startIdx + request < endIdx)
    (queried : offset < batch.queryStartLoc (startIdx + request + 1) - batch.queryStartLoc (startIdx + request))
    (placed : place = batch.queryStartLoc (startIdx + request) - batch.queryStartLoc startIdx + offset)
    (lower : (querySlice.getD (0, batch.queryStartLoc endIdx - batch.queryStartLoc startIdx)).1 ≤ place)
    (upper : place < (querySlice.getD (0, batch.queryStartLoc endIdx - batch.queryStartLoc startIdx)).2) :
    RowBounds m final ranks interleave rank (fun before => batch.seqLens (startIdx + before)) request
      (batch.seqLens (startIdx + request) -
        (batch.queryStartLoc (startIdx + request + 1) - batch.queryStartLoc (startIdx + request)) + offset)
      (place - (querySlice.getD (0, batch.queryStartLoc endIdx - batch.queryStartLoc startIdx)).1) := by
  obtain ⟨m', built', numReqs, totalSeqLens, cuSeqLens, kernel⟩ :=
    buildPrefillChunkMetadata_prefill querySlice skipKvGather prefill someRun ranked
  have same : m' = m := Option.some.inj (built'.symm.trans built)
  subst same
  generalize querySlice.getD (0, batch.queryStartLoc endIdx - batch.queryStartLoc startIdx) = slice at *
  have first := batch.ordered (Nat.le_add_right startIdx request)
  have ordered := batch.chunk_ordered startIdx
  obtain ⟨someQuery, fits⟩ := prefill.queries (startIdx + request) (Nat.le_add_right _ _) inside
  have length : batch.queryStartLoc (startIdx + (request + 1)) - batch.queryStartLoc startIdx -
      (batch.queryStartLoc (startIdx + request) - batch.queryStartLoc startIdx) =
        batch.queryStartLoc (startIdx + request + 1) - batch.queryStartLoc (startIdx + request) := by
    rw [← Nat.add_assoc]
    omega
  rw [kernel, numReqs] at launched
  have start : final (.cuSeqLenKs, place - slice.1) = (∑ before ∈ Finset.range request,
      (share ranks interleave rank (batch.seqLens (startIdx + before))).card : Nat) := by
    rw [placed]
    exact final_bound (by decide) (by simp) ordered launched (by omega) (by rw [length]; exact queried)
      (by rw [← placed]; exact lower) (by rw [← placed]; exact upper)
  have stop : final (.cuSeqLenKe, place - slice.1) = (∑ before ∈ Finset.range request,
      (share ranks interleave rank (batch.seqLens (startIdx + before))).card : Nat) +
        ((share ranks interleave rank (batch.seqLens (startIdx + request) -
          (batch.queryStartLoc (startIdx + request + 1) - batch.queryStartLoc (startIdx + request)) + offset +
            1)).card : Int) := by
    have counted := @seqLenPerToken_eq ranks interleave rank
      (fun request => batch.queryStartLoc (startIdx + request) - batch.queryStartLoc startIdx)
      (fun request => batch.seqLens (startIdx + request)) request offset someRun ranked (ordered (Nat.le_succ request))
      (by rw [length]; exact fits)
    rw [length, localCount_eq_share someRun ranked] at counted
    rw [placed, ← counted]
    exact final_bound (by decide) (by simp) ordered launched (by omega) (by rw [length]; exact queried)
      (by rw [← placed]; exact lower) (by rw [← placed]; exact upper)
  have below : (share ranks interleave rank (batch.seqLens (startIdx + request) -
      (batch.queryStartLoc (startIdx + request + 1) - batch.queryStartLoc (startIdx + request)) + offset + 1)).card ≤
        (share ranks interleave rank (batch.seqLens (startIdx + request))).card := by
    rw [← localCount_eq_share someRun ranked, ← localCount_eq_share someRun ranked]
    apply localCount_mono someRun ranked
    omega
  have next : final (.cuSeqLenKe, place - slice.1) ≤ (∑ before ∈ Finset.range (request + 1),
      (share ranks interleave rank (batch.seqLens (startIdx + before))).card : Nat) := by
    rw [stop, Finset.sum_range_succ]
    omega
  constructor
  · rw [start, stop]
    omega
  · intro token
    rw [start, stop, add_sub_cancel_left, Nat.cast_lt, ← localCount_eq_share someRun ranked,
      lt_localCount_iff someRun ranked]
    simp [share, and_assoc]
  · exact start
  · exact next
  · apply next.trans
    rw [totalSeqLens]
    have mono := Finset.sum_le_sum_of_subset (f := fun before =>
      (share ranks interleave rank (batch.seqLens (startIdx + before))).card)
        (Finset.range_subset_range.mpr (show request + 1 ≤ endIdx - startIdx by omega))
    exact_mod_cast mono
  · intro output bound
    have ended : startIdx + (endIdx - startIdx) = endIdx := by omega
    rw [countP_eq_count_rowsOf, numReqs, kernel,
      rowsOf_launch (by decide) bound ordered (Nat.sub_self _) (by rw [ended]; exact within), List.count_range]
    rw [if_pos (by omega)]

/-- The bounds of a chunk on all ranks share the context of each query out to them. -/
theorem prefill_bounds (prefill : batch.Prefill startIdx endIdx) (someRun : 0 < interleave)
    (someRank : 0 < ranks)
    (within : (querySlice.getD (0, batch.queryStartLoc endIdx - batch.queryStartLoc startIdx)).2 ≤
      batch.queryStartLoc endIdx - batch.queryStartLoc startIdx) :
    ∃ m : Nat → PrefillChunkMetadata,
      (∀ rank, rank < ranks →
        buildPrefillChunkMetadata rank ranks interleave 1 batch startIdx endIdx querySlice skipKvGather =
          some (m rank)) ∧
      ∀ memory final : Nat → PrefillOutput × Nat → Int,
        (∀ rank, rank < ranks →
          Launched (List.range (m rank).numReqs) (m rank).kernel (memory rank) (final rank)) →
        ∀ request offset place position, startIdx + request < endIdx →
          offset < batch.queryStartLoc (startIdx + request + 1) - batch.queryStartLoc (startIdx + request) →
          place = batch.queryStartLoc (startIdx + request) - batch.queryStartLoc startIdx + offset →
          position = batch.seqLens (startIdx + request) -
            (batch.queryStartLoc (startIdx + request + 1) - batch.queryStartLoc (startIdx + request)) + offset →
          let slice := querySlice.getD (0, batch.queryStartLoc endIdx - batch.queryStartLoc startIdx)
          slice.1 ≤ place → place < slice.2 →
            (∀ rank, rank < ranks →
              RowBounds (m rank) (final rank) ranks interleave rank (fun before => batch.seqLens (startIdx + before))
                request position (place - slice.1)) ∧
            ∑ rank ∈ Finset.range ranks, (final rank (.cuSeqLenKe, place - slice.1) -
              final rank (.cuSeqLenKs, place - slice.1)) = position + 1 := by
  have every : ∀ rank, ∃ m, rank < ranks →
      buildPrefillChunkMetadata rank ranks interleave 1 batch startIdx endIdx querySlice skipKvGather = some m := by
    intro rank
    by_cases ranked : rank < ranks
    · obtain ⟨m, built, -⟩ := buildPrefillChunkMetadata_prefill querySlice skipKvGather prefill someRun ranked
      exact ⟨m, fun _ => built⟩
    · exact ⟨⟨fun _ => 0, 0, 0, 0, 0, false, fun _ => []⟩, fun here => absurd here ranked⟩
  choose m built using every
  refine ⟨m, built, ?_⟩
  intro memory final launched request offset place position inside queried placed positioned slice lower upper
  have rows : ∀ rank, rank < ranks → RowBounds (m rank) (final rank) ranks interleave rank
      (fun before => batch.seqLens (startIdx + before)) request position (place - slice.1) := by
    intro rank ranked
    rw [positioned]
    exact rowBounds_of_launched prefill someRun ranked (built rank ranked) within (launched rank ranked) inside
      queried placed lower upper
  refine ⟨rows, ?_⟩
  have total := localCount_sum someRank someRun (position + 1)
  calc
    ∑ rank ∈ Finset.range ranks, (final rank (.cuSeqLenKe, place - slice.1) -
        final rank (.cuSeqLenKs, place - slice.1)) =
        ∑ rank ∈ Finset.range ranks, (localCount ranks interleave rank (position + 1) : Int) := by
      apply Finset.sum_congr rfl
      intro rank member
      have ranked := Finset.mem_range.mp member
      rw [(rows rank ranked).count, localCount_eq_share someRun ranked]
    _ = position + 1 := by
      rw [← Nat.cast_sum, total]
      rfl

/-- One request of two queries behind a context of one. -/
def twoQueries : IndexerBatch where
  queryStartLoc := fun request => 2 * request
  seqLens := fun _ => 3
  compressedSeqLens := fun _ => 3
  compressedSeqLensCpu := fun _ => 3
  ordered := fun _ _ below => Nat.mul_le_mul_left 2 below

/-- Two ranks share the three positions of the second query. -/
theorem prefill_bounds_twoQueries :
    ∃ m : Nat → PrefillChunkMetadata,
      (∀ rank, rank < 2 → buildPrefillChunkMetadata rank 2 1 1 twoQueries 0 1 none false = some (m rank)) ∧
      ∀ memory final : Nat → PrefillOutput × Nat → Int,
        (∀ rank, rank < 2 → Launched (List.range (m rank).numReqs) (m rank).kernel (memory rank) (final rank)) →
          ∑ rank ∈ Finset.range 2, (final rank (.cuSeqLenKe, 1) - final rank (.cuSeqLenKs, 1)) = 3 := by
  have prefill : twoQueries.Prefill 0 1 := by
    constructor
    · decide
    · intro request _ _
      show 2 * request < 2 * (request + 1) ∧ 2 * (request + 1) - 2 * request ≤ 3
      omega
    · rfl
    · rfl
  obtain ⟨m, built, bounds⟩ := @prefill_bounds twoQueries 0 1 2 1 none false prefill (by decide) (by decide) le_rfl
  refine ⟨m, built, fun memory final launched => ?_⟩
  exact (bounds memory final launched 0 1 1 2 (by decide) (by decide) rfl rfl (by decide) (by decide)).2

end Chunk

end DgxSpark.Dcp

import DgxSpark.Dcp.IndexerBuild
import DgxSpark.Dcp.PrefillBounds

/-
This file shows that the chunks of the prefills cover each query once, within the budgets, and that a chunk that
skips the gather follows one with the same requests.
-/

namespace DgxSpark.Dcp
open DgxSpark.Library

/-- The requests of a slice that starts counting at an offset. -/
def sliceRequests (requests : List SplitRequest) (offset : Nat) (reqSlice : Nat × Nat) : List SplitRequest :=
  (requests.drop (reqSlice.1 - offset)).take (reqSlice.2 - reqSlice.1)

def totalQuery (requests : List SplitRequest) : Nat := (requests.map SplitRequest.query).sum

def totalSeq (requests : List SplitRequest) : Nat := (requests.map SplitRequest.seq).sum

def totalWorkspace (requests : List SplitRequest) : Nat := (requests.map SplitRequest.workspace).sum

theorem totalQuery_append (first second : List SplitRequest) :
    totalQuery (first ++ second) = totalQuery first + totalQuery second := by
  simp [totalQuery]

variable {workspaceSize maxLogitsElems : Nat}

/-- The inner loop stays within the workspace and adds up what it takes. -/
theorem fillChunk_totals (requests : List SplitRequest) {chunkM chunkN chunkWs taken m n : Nat}
    (within : chunkWs ≤ workspaceSize)
    (filled : fillChunk workspaceSize maxLogitsElems chunkM chunkN chunkWs requests = (taken, m, n)) :
    taken ≤ requests.length ∧ m = chunkM + totalQuery (requests.take taken) ∧
      n = chunkN + totalSeq (requests.take taken) ∧ chunkWs + totalWorkspace (requests.take taken) ≤ workspaceSize := by
  induction requests generalizing chunkM chunkN chunkWs taken m n with
  | nil =>
      simp only [fillChunk, Prod.mk.injEq] at filled
      obtain ⟨rfl, rfl, rfl⟩ := filled
      simpa [totalQuery, totalSeq, totalWorkspace] using within
  | cons head rest ih =>
      simp only [fillChunk] at filled
      split at filled
      case isFalse =>
        simp only [Prod.mk.injEq] at filled
        obtain ⟨rfl, rfl, rfl⟩ := filled
        simpa [totalQuery, totalSeq, totalWorkspace] using within
      case isTrue fits =>
        match more : fillChunk workspaceSize maxLogitsElems (chunkM + head.query) (chunkN + head.seq)
            (chunkWs + head.workspace) rest with
        | (later, laterM, laterN) =>
            rw [more] at filled
            simp only [Prod.mk.injEq] at filled
            obtain ⟨rfl, rfl, rfl⟩ := filled
            obtain ⟨count, queries, seqs, share⟩ := ih fits.1 more
            simp only [totalQuery, totalSeq, totalWorkspace, List.take_succ_cons, List.map_cons, List.sum_cons,
              List.length_cons] at *
            omega

/-- A chunk has the totals of its requests, whose shares fit the workspace. -/
theorem nextChunk_totals (head : SplitRequest) (rest : List SplitRequest) (fits : head.workspace ≤ workspaceSize)
    {taken m n : Nat} (next : nextChunk workspaceSize maxLogitsElems head rest = (taken, m, n)) :
    taken ≤ (head :: rest).length ∧ m = totalQuery ((head :: rest).take taken) ∧
      n = totalSeq ((head :: rest).take taken) ∧ totalWorkspace ((head :: rest).take taken) ≤ workspaceSize := by
  match filled : fillChunk workspaceSize maxLogitsElems 0 0 0 (head :: rest) with
  | (count, chunkM, chunkN) =>
      have totals := fillChunk_totals (head :: rest) (Nat.zero_le workspaceSize) filled
      simp only [nextChunk, filled] at next
      split at next
      case isTrue =>
        simp only [Prod.mk.injEq] at next
        obtain ⟨rfl, rfl, rfl⟩ := next
        simpa [totalQuery, totalSeq, totalWorkspace] using fits
      case isFalse =>
        simp only [Prod.mk.injEq] at next
        obtain ⟨rfl, rfl, rfl⟩ := next
        simpa only [Nat.zero_add] using totals

/-- The slices of the queries of a chunk are consecutive, and small enough unless they are of one row. -/
theorem querySlices_ok {chunkM chunkN : Nat} (nonempty : 0 < chunkN) :
    ∃ slices, querySlices maxLogitsElems chunkM chunkN = .ok slices ∧
      (slices.flatMap fun slice => List.range' slice.1 (slice.2 - slice.1)) = List.range chunkM ∧
      (∀ slice ∈ slices, slice.1 < slice.2 ∧ slice.2 ≤ chunkM ∧
        ((slice.2 - slice.1) * chunkN ≤ maxLogitsElems ∨ slice.2 - slice.1 = 1)) ∧
      ∀ place slice, slices[place]? = some slice → 0 < slice.1 →
        ∃ before previous, place = before + 1 ∧ slices[before]? = some previous ∧ previous.2 = slice.1 := by
  obtain ⟨maxQ, chosen⟩ : ∃ maxQ, maxQ = max 1 (maxLogitsElems / chunkN) := ⟨_, rfl⟩
  have positive : 0 < maxQ := by omega
  let slice (qOff : Nat) : Nat × Nat := (qOff, qOff + min maxQ (chunkM - qOff))
  refine ⟨(rangeStep 0 chunkM maxQ).map slice, ?_, ?_, ?_, ?_⟩
  · rw [querySlices, if_pos nonempty, ← chosen]
    exact if_neg (Nat.ne_of_gt positive)
  · rw [List.flatMap_map, ← rangeStep_pieces chunkM positive]
    apply List.flatMap_congr
    intro qOff _
    show List.range' qOff (qOff + min maxQ (chunkM - qOff) - qOff) = _
    rw [Nat.add_sub_cancel_left]
  · intro found member
    obtain ⟨qOff, inside, rfl⟩ := List.mem_map.mp member
    have below := ((mem_rangeStep positive).mp inside).1
    simp only [slice, Nat.add_sub_cancel_left]
    refine ⟨by omega, by omega, ?_⟩
    by_cases fits : 1 ≤ maxLogitsElems / chunkN
    · left
      have rows : min maxQ (chunkM - qOff) ≤ maxLogitsElems / chunkN := by omega
      exact (Nat.mul_le_mul_right chunkN rows).trans (Nat.div_mul_le_self maxLogitsElems chunkN)
    · right
      omega
  · intro place found there later
    rw [List.getElem?_map] at there
    obtain ⟨qOff, here, rfl⟩ := Option.map_eq_some_iff.mp there
    obtain ⟨below, rfl⟩ := (getElem?_rangeStep positive).mp here
    cases place with
    | zero => simp [slice] at later
    | succ before =>
        rw [Nat.zero_add, Nat.succ_mul] at below
        refine ⟨before, slice (0 + before * maxQ), rfl, ?_, ?_⟩
        · rw [List.getElem?_map, (getElem?_rangeStep positive).mpr ⟨by omega, rfl⟩]
          rfl
        · simp only [slice, Nat.succ_mul]
          omega

/-- The tokens of a chunk, counted from the query start of its first request. -/
def tokensOf (queryStart : Nat → Nat) (chunk : (Nat × Nat) × (Nat × Nat)) : List Nat :=
  List.range' (queryStart chunk.1.1 + chunk.2.1) (chunk.2.2 - chunk.2.1)

/-- The requests stand one after another from a place on. -/
def Located (queryStart : Nat → Nat) (start : Nat) (requests : List SplitRequest) : Prop :=
  ∀ place request, requests[place]? = some request →
    queryStart (start + place + 1) = queryStart (start + place) + request.query

theorem Located.total {queryStart : Nat → Nat} {start : Nat} {requests : List SplitRequest}
    (located : Located queryStart start requests) {count : Nat} (within : count ≤ requests.length) :
    queryStart (start + count) = queryStart start + totalQuery (requests.take count) := by
  induction count with
  | zero => simp [totalQuery]
  | succ count ih =>
      have found : requests[count]? = some requests[count] := List.getElem?_eq_getElem within
      rw [← Nat.add_assoc, located count _ found, ih (Nat.le_of_succ_le within), List.take_add_one, found,
        totalQuery_append, Nat.add_assoc]
      rfl

theorem Located.drop {queryStart : Nat → Nat} {start : Nat} {requests : List SplitRequest}
    (located : Located queryStart start requests) (count : Nat) :
    Located queryStart (start + count) (requests.drop count) := by
  intro place request found
  rw [List.getElem?_drop] at found
  rw [Nat.add_assoc start]
  exact located (count + place) request found

/-- What the budgets promise of a chunk. -/
structure WithinBudget (workspaceSize maxLogitsElems : Nat) (requests : List SplitRequest) (offset : Nat)
    (chunk : (Nat × Nat) × (Nat × Nat)) : Prop where
  slice : offset ≤ chunk.1.1 ∧ chunk.1.1 < chunk.1.2 ∧ chunk.1.2 ≤ offset + requests.length
  rows : chunk.2.1 < chunk.2.2 ∧ chunk.2.2 ≤ totalQuery (sliceRequests requests offset chunk.1)
  share : totalWorkspace (sliceRequests requests offset chunk.1) ≤ workspaceSize
  logits : (chunk.2.2 - chunk.2.1) * totalSeq (sliceRequests requests offset chunk.1) ≤ maxLogitsElems ∨
    chunk.2.2 - chunk.2.1 = 1

/-- The chunks of the requests behind some are chunks of all. -/
theorem WithinBudget.earlier {requests : List SplitRequest} {start taken : Nat} {chunk : (Nat × Nat) × (Nat × Nat)}
    (budget : WithinBudget workspaceSize maxLogitsElems (requests.drop taken) (start + taken) chunk)
    (within : taken ≤ requests.length) : WithinBudget workspaceSize maxLogitsElems requests start chunk := by
  obtain ⟨above, order, below⟩ := budget.slice
  have same : sliceRequests (requests.drop taken) (start + taken) chunk.1 = sliceRequests requests start chunk.1 := by
    have place : taken + (chunk.1.1 - (start + taken)) = chunk.1.1 - start := by omega
    rw [sliceRequests, List.drop_drop, place]
    rfl
  rw [List.length_drop] at below
  exact ⟨⟨by omega, order, by omega⟩, same ▸ budget.rows, same ▸ budget.share, same ▸ budget.logits⟩

/-- A chunk that starts behind the first query follows the chunk of the same requests that ends there. -/
def Adjacent (chunks : List ((Nat × Nat) × (Nat × Nat))) : Prop :=
  ∀ place chunk, chunks[place]? = some chunk → 0 < chunk.2.1 →
    ∃ before previous, place = before + 1 ∧ chunks[before]? = some previous ∧ previous.1 = chunk.1 ∧
      previous.2.2 = chunk.2.1

/-- The slices of one chunk of requests and the chunks behind them. -/
theorem Adjacent.append {reqSlice : Nat × Nat} {slices : List (Nat × Nat)} {later : List ((Nat × Nat) × (Nat × Nat))}
    (follows : ∀ place slice, slices[place]? = some slice → 0 < slice.1 →
      ∃ before previous, place = before + 1 ∧ slices[before]? = some previous ∧ previous.2 = slice.1)
    (adjacent : Adjacent later) : Adjacent (slices.map (fun slice => (reqSlice, slice)) ++ later) := by
  intro place chunk found started
  by_cases inside : place < slices.length
  · rw [List.getElem?_append_left (by rwa [List.length_map]), List.getElem?_map] at found
    obtain ⟨slice, there, rfl⟩ := Option.map_eq_some_iff.mp found
    obtain ⟨before, previous, rfl, here, joined⟩ := follows place slice there started
    refine ⟨before, (reqSlice, previous), rfl, ?_, rfl, joined⟩
    rw [List.getElem?_append_left (by rw [List.length_map]; omega), List.getElem?_map, here]
    rfl
  · rw [List.getElem?_append_right (by rw [List.length_map]; omega), List.length_map] at found
    obtain ⟨before, previous, next, here, same, joined⟩ := adjacent _ chunk found started
    refine ⟨before + slices.length, previous, by omega, ?_, same, joined⟩
    rw [List.getElem?_append_right (by rw [List.length_map]; omega), List.length_map, Nat.add_sub_cancel]
    exact here

/-- The splitter ends, and its chunks are as they should be. -/
theorem splitIndexerPrefillChunks_ok {queryStart : Nat → Nat} (requests : List SplitRequest) {start : Nat}
    (located : Located queryStart start requests)
    (sized : ∀ request ∈ requests, 0 < request.query ∧ request.query ≤ request.seq ∧ request.workspace ≤ workspaceSize) :
    ∃ chunks, splitIndexerPrefillChunks workspaceSize maxLogitsElems start requests = .ok chunks ∧
      (chunks.flatMap (tokensOf queryStart) = List.range' (queryStart start) (totalQuery requests)) ∧
      (∀ chunk ∈ chunks, WithinBudget workspaceSize maxLogitsElems requests start chunk) ∧ Adjacent chunks := by
  induction count : requests.length using Nat.strong_induction_on generalizing start requests with
  | _ count ih =>
      subst count
      cases requests with
      | nil =>
          refine ⟨[], by rw [splitIndexerPrefillChunks], rfl, List.forall_mem_nil _, ?_⟩
          intro place chunk found
          simp at found
      | cons head rest =>
          rcases next : nextChunk workspaceSize maxLogitsElems head rest with ⟨taken, chunkM, chunkN⟩
          have first := nextChunk_pos workspaceSize maxLogitsElems head rest
          have here := sized head List.mem_cons_self
          obtain ⟨within, queries, seqs, share⟩ := nextChunk_totals head rest here.2.2 next
          rw [next] at first
          have nonempty : 0 < chunkN := by
            obtain ⟨more, rfl⟩ := Nat.exists_eq_succ_of_ne_zero (Nat.ne_of_gt first)
            rw [seqs, totalSeq, List.take_succ_cons, List.map_cons, List.sum_cons]
            omega
          obtain ⟨slices, cut, covered, small, follows⟩ :=
            @querySlices_ok maxLogitsElems chunkM chunkN nonempty
          obtain ⟨later, ended, tokens, budgets, adjacent⟩ := ih ((head :: rest).drop taken).length
            (by rw [List.length_drop]; omega) ((head :: rest).drop taken) (located.drop taken)
            (fun request member => sized request (List.mem_of_mem_drop member)) rfl
          refine ⟨slices.map (fun slice => ((start, start + taken), slice)) ++ later, ?_, ?_, ?_,
            Adjacent.append follows adjacent⟩
          · rw [splitIndexerPrefillChunks]
            simp only [next, cut, ended]
          · have own : (slices.map fun slice => ((start, start + taken), slice)).flatMap (tokensOf queryStart) =
                List.range' (queryStart start) chunkM := by
              rw [List.flatMap_map, List.range'_eq_map_range, ← covered, List.map_flatMap]
              apply List.flatMap_congr
              intro slice _
              exact (List.map_add_range' ..).symm
            have split : totalQuery (head :: rest) = chunkM + totalQuery ((head :: rest).drop taken) := by
              rw [queries, ← totalQuery_append, List.take_append_drop]
            rw [List.flatMap_append, own, tokens, located.total within, ← queries, split, List.range'_append_1]
          · intro chunk member
            rcases List.mem_append.mp member with mine | after
            · obtain ⟨slice, inside, rfl⟩ := List.mem_map.mp mine
              obtain ⟨order, below, logits⟩ := small slice inside
              have whole : sliceRequests (head :: rest) start (start, start + taken) =
                  (head :: rest).take taken := by
                rw [sliceRequests, Nat.sub_self, List.drop_zero, Nat.add_sub_cancel_left]
              refine ⟨⟨le_rfl, Nat.lt_add_of_pos_right first, Nat.add_le_add_left within start⟩, ?_, ?_, ?_⟩
              · rw [whole, ← queries]
                exact ⟨order, below⟩
              · rwa [whole]
              · rwa [whole, ← seqs]
            · exact (budgets chunk after).earlier within

section Metadata

variable {batch : IndexerBatch} {requests : List SplitRequest} {offset : Nat}

/-- The metadata of a chunk: its tokens, and whether it skips the gather. -/
theorem buildPrefillChunkMetadata_chunk (rank ranks interleave ratio : Nat)
    (lengths : ∀ place request, requests[place]? = some request →
      batch.compressedSeqLensCpu (offset + place) = request.seq)
    (sized : ∀ request ∈ requests, 0 < request.query ∧ request.query ≤ request.seq ∧ request.workspace ≤ workspaceSize)
    {chunk : (Nat × Nat) × (Nat × Nat)} (budget : WithinBudget workspaceSize maxLogitsElems requests offset chunk) :
    ∃ m, buildPrefillChunkMetadata rank ranks interleave ratio batch chunk.1.1 chunk.1.2 (some chunk.2)
        (decide (0 < chunk.2.1)) = some m ∧
      m.tokenStart = batch.queryStartLoc chunk.1.1 + chunk.2.1 ∧
      m.tokenEnd = batch.queryStartLoc chunk.1.1 + chunk.2.2 ∧ m.skipKvGather = decide (0 < chunk.2.1) := by
  obtain ⟨above, order, below⟩ := budget.slice
  have context : cumsum (fun request => (batch.compressedSeqLensCpu (chunk.1.1 + request) : Int))
      (chunk.1.2 - chunk.1.1) ≠ 0 := by
    obtain ⟨request, found⟩ : ∃ request, requests[chunk.1.1 - offset]? = some request :=
      ⟨_, List.getElem?_eq_getElem (by omega)⟩
    have own := lengths _ _ found
    have some := sized _ (List.mem_of_getElem? found)
    have place : offset + (chunk.1.1 - offset) = chunk.1.1 + 0 := by omega
    have single : batch.compressedSeqLensCpu (chunk.1.1 + 0) ≤
        ∑ request ∈ Finset.range (chunk.1.2 - chunk.1.1), batch.compressedSeqLensCpu (chunk.1.1 + request) :=
      Finset.single_le_sum (f := fun request => batch.compressedSeqLensCpu (chunk.1.1 + request))
        (fun _ _ => Nat.zero_le _) (Finset.mem_range.mpr (by omega))
    rw [place] at own
    rw [cumsum_natCast fun request => batch.compressedSeqLensCpu (chunk.1.1 + request)]
    omega
  refine ⟨_, if_neg context, rfl, rfl, ?_⟩
  simp

/-- The splitter ends on every list of requests, and the metadata made of its chunks takes the queries one after
another, each once. The shares of a chunk's requests fit the workspace, its rows fit the budget of the logits
unless there is one row, and a chunk that skips the gather follows one with the same requests. -/
theorem prefill_chunks_cover_once (rank ranks interleave ratio maxLogitsBytes : Nat)
    (located : Located batch.queryStartLoc offset requests)
    (lengths : ∀ place request, requests[place]? = some request →
      batch.compressedSeqLensCpu (offset + place) = request.seq)
    (sized : ∀ request ∈ requests,
      0 < request.query ∧ request.query ≤ request.seq ∧ request.workspace ≤ workspaceSize) :
    ∃ chunks, ∃ metadata : List PrefillChunkMetadata,
      splitIndexerPrefillChunks workspaceSize (maxLogitsBytes / 4) offset requests = .ok chunks ∧
      (chunks.map fun chunk => buildPrefillChunkMetadata rank ranks interleave ratio batch chunk.1.1 chunk.1.2
        (some chunk.2) (decide (0 < chunk.2.1))) = metadata.map some ∧
      (∀ m ∈ metadata, m.tokenStart < m.tokenEnd) ∧
      (metadata.flatMap fun m => List.range' m.tokenStart (m.tokenEnd - m.tokenStart)) =
        List.range' (batch.queryStartLoc offset) (totalQuery requests) ∧
      (∀ chunk ∈ chunks, WithinBudget workspaceSize (maxLogitsBytes / 4) requests offset chunk) ∧
      (metadata.map PrefillChunkMetadata.skipKvGather = chunks.map fun chunk => decide (0 < chunk.2.1)) ∧
      Adjacent chunks := by
  obtain ⟨chunks, ended, tokens, budgets, adjacent⟩ :=
    @splitIndexerPrefillChunks_ok workspaceSize (maxLogitsBytes / 4) _ requests offset located sized
  have built : ∀ chunk ∈ chunks, ∃ m, buildPrefillChunkMetadata rank ranks interleave ratio batch chunk.1.1 chunk.1.2
      (some chunk.2) (decide (0 < chunk.2.1)) = some m ∧
        m.tokenStart = batch.queryStartLoc chunk.1.1 + chunk.2.1 ∧
        m.tokenEnd = batch.queryStartLoc chunk.1.1 + chunk.2.2 ∧ m.skipKvGather = decide (0 < chunk.2.1) :=
    fun chunk member => buildPrefillChunkMetadata_chunk rank ranks interleave ratio lengths sized (budgets chunk member)
  have some : Nonempty PrefillChunkMetadata := ⟨⟨fun _ => 0, 0, 0, 0, 0, false, fun _ => []⟩⟩
  choose! m built starts ends skips using built
  refine ⟨chunks, chunks.map m, ended, ?_, ?_, ?_, budgets, ?_, adjacent⟩
  · rw [List.map_map]
    exact List.map_congr_left built
  · intro metadata member
    obtain ⟨chunk, inside, rfl⟩ := List.mem_map.mp member
    rw [starts chunk inside, ends chunk inside]
    exact Nat.add_lt_add_left (budgets chunk inside).rows.1 _
  · rw [← tokens, List.flatMap_map]
    apply List.flatMap_congr
    intro chunk inside
    rw [starts chunk inside, ends chunk inside, Nat.add_sub_add_left]
    rfl
  · rw [List.map_map]
    exact List.map_congr_left skips

/-- Two requests of two queries in contexts of three: the logits have room for one row. -/
theorem prefill_chunks_cover_once_twoQueries :
    ∃ chunks, ∃ metadata : List PrefillChunkMetadata,
      splitIndexerPrefillChunks 4 (12 / 4) 1 [⟨2, 3, 3⟩, ⟨2, 3, 3⟩] = .ok chunks ∧
      (chunks.map fun chunk => buildPrefillChunkMetadata 0 1 1 1 twoQueries chunk.1.1 chunk.1.2
        (some chunk.2) (decide (0 < chunk.2.1))) = metadata.map some ∧
      (metadata.flatMap fun m => List.range' m.tokenStart (m.tokenEnd - m.tokenStart)) = [2, 3, 4, 5] := by
  have located : Located twoQueries.queryStartLoc 1 [⟨2, 3, 3⟩, ⟨2, 3, 3⟩] := by
    intro place request found
    have same : request.query = 2 := by
      have member := List.mem_of_getElem? found
      simp only [List.mem_cons, List.not_mem_nil, or_false, or_self] at member
      rw [member]
    rw [same]
    rfl
  have lengths : ∀ (place : Nat) request, [(⟨2, 3, 3⟩ : SplitRequest), ⟨2, 3, 3⟩][place]? = some request →
      twoQueries.compressedSeqLensCpu (1 + place) = request.seq := by
    intro place request found
    have member := List.mem_of_getElem? found
    simp only [List.mem_cons, List.not_mem_nil, or_false, or_self] at member
    rw [member]
    rfl
  have sized : ∀ request ∈ [(⟨2, 3, 3⟩ : SplitRequest), ⟨2, 3, 3⟩],
      0 < request.query ∧ request.query ≤ request.seq ∧ request.workspace ≤ 4 := by
    intro request member
    simp only [List.mem_cons, List.not_mem_nil, or_false, or_self] at member
    subst member
    decide
  obtain ⟨chunks, metadata, ended, built, _, tokens, _⟩ := prefill_chunks_cover_once 0 1 1 1 12 located lengths sized
  exact ⟨chunks, metadata, ended, built, tokens⟩

end Metadata

end DgxSpark.Dcp

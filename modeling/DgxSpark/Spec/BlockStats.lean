import DgxSpark.Spec.Rejection
import Mathlib.Algebra.BigOperators.Field
import Mathlib.Algebra.BigOperators.Group.Finset.Basic
import Mathlib.Data.List.GetD

/-
This file shows what the block statistics say about a whole row: its first maximum, its largest logit without
the first maximum, and its log-sum-exp.
-/

namespace DgxSpark.Spec
open DgxSpark.Library ExactFloat

section Blocks

variable {size width : Nat}

theorem cdiv_pos (sizePos : 0 < size) (widthPos : 0 < width) : 0 < cdiv size width :=
  Nat.div_pos (by omega) widthPos

theorem cdiv_covers (widthPos : 0 < width) : size ≤ cdiv size width * width := by
  have parts := Nat.div_add_mod' (size + width - 1) width
  have rest := Nat.mod_lt (size + width - 1) widthPos
  rw [cdiv]
  omega

theorem cdiv_started {block : Nat} (widthPos : 0 < width) (inside : block < cdiv size width) : block * width < size := by
  have parts := Nat.div_mul_le_self (size + width - 1) width
  have more := Nat.mul_le_mul_right width (Nat.succ_le_of_lt inside)
  rw [Nat.succ_mul, cdiv] at more
  omega

theorem isFirstMax_real {row : Nat → ℝ} {place : Nat} :
    IsFirstMax (fun column => ExactFloat.real (row column)) size place ↔ IsFirstMax row size place := by
  constructor
  · intro here
    exact ⟨here.inside, fun other inside => real_le_real.mp (here.largest other inside),
      fun earlier before => real_lt_real.mp (here.first earlier before)⟩
  · intro here
    exact ⟨here.inside, fun other inside => real_le_real.mpr (here.largest other inside),
      fun earlier before => real_lt_real.mpr (here.first earlier before)⟩

theorem blockRow_le_iff {row : Nat → ℝ} {block lane : Nat} {bound : ℝ} :
    blockRow (fun column => ExactFloat.real (row column)) size width .negInf block lane ≤ .real bound ↔
      (block * width + lane < size → row (block * width + lane) ≤ bound) := by
  rw [blockRow]
  by_cases inside : block * width + lane < size
  · simp [inside]
  · simp [inside]

end Blocks

namespace VerificationBatch

variable (batch : VerificationBatch) {reqIdx : Nat}

theorem cuNumLogits_le {first last : Nat} (order : first ≤ last) (inside : last ≤ batch.numReqs) :
    batch.cuNumLogits first ≤ batch.cuNumLogits last := by
  induction last, order using Nat.le_induction with
  | base => exact le_refl _
  | succ last _ ih => exact (ih (by omega)).trans (batch.rows last inside).1.le

/-- The row of a draft is a row of the batch, in its request's slot and at its place. -/
theorem draft_row (inside : reqIdx < batch.numReqs) {i : Nat} (drafted : i < batch.numDrafts reqIdx) :
    batch.cuNumLogits reqIdx + i < batch.numLogits ∧
      batch.expandedIdxMapping (batch.cuNumLogits reqIdx + i) = batch.idxMapping reqIdx ∧
      batch.expandedLocalPos (batch.cuNumLogits reqIdx + i) < batch.numSpeculativeSteps := by
  have within : batch.cuNumLogits (reqIdx + 1) ≤ batch.cuNumLogits batch.numReqs := batch.cuNumLogits_le inside (le_refl _)
  have rows := batch.rows reqIdx inside
  rw [numDrafts] at drafted
  obtain ⟨slot, place⟩ := batch.expanded reqIdx inside (batch.cuNumLogits reqIdx + i) (by omega) (by omega)
  refine ⟨?_, slot, ?_⟩
  · rw [numLogits]
    exact lt_of_lt_of_le (by omega) within
  · omega

/-- The row that the resampling kernels look at is in the request's slot; only the last one is the bonus row. -/
theorem resampled_row (inside : reqIdx < batch.numReqs) {i : Nat} (drafted : i ≤ batch.numDrafts reqIdx) :
    batch.expandedIdxMapping (batch.cuNumLogits reqIdx + i) = batch.idxMapping reqIdx ∧
      (batch.cuNumLogits reqIdx + i + 1 = batch.cuNumLogits (reqIdx + 1) ↔ i = batch.numDrafts reqIdx) := by
  have rows := batch.rows reqIdx inside
  rw [numDrafts] at drafted ⊢
  obtain ⟨slot, -⟩ := batch.expanded reqIdx inside (batch.cuNumLogits reqIdx + i) (by omega) (by omega)
  exact ⟨slot, by omega⟩

end VerificationBatch

variable {batch : VerificationBatch} {logitIdx : Nat}

theorem vocabBlock_pos : 0 < VOCAB_BLOCK_SIZE := by decide

theorem resampleBlock_pos : 0 < RESAMPLE_BLOCK_SIZE := by decide

section Greedy

/-- The cells of a greedy row hold the first maxima of its blocks. -/
structure GreedyBlocks (batch : VerificationBatch) (logitIdx : Nat) (stats : Nat → BlockStats) : Prop where
  argmax : ∀ block, block < batch.vocabNumBlocks → (stats block).targetLocalArgmax =
    ((block * VOCAB_BLOCK_SIZE + argmaxOf (batch.targetBlock logitIdx VOCAB_BLOCK_SIZE block) : Nat) : Int)
  max : ∀ block, block < batch.vocabNumBlocks →
    (stats block).targetLocalMax = maxOf (batch.targetBlock logitIdx VOCAB_BLOCK_SIZE block)

/-- Where the reductions find the first maximum of a greedy row. -/
structure FoundMax (batch : VerificationBatch) (logitIdx : Nat) (stats : Nat → BlockStats) (block lane : Nat) : Prop where
  block_lt : block < batch.vocabNumBlocks
  lane_lt : lane < VOCAB_BLOCK_SIZE
  outer : argmaxOf (loadTargetLocalMax batch stats) = block
  inner : argmaxOf (batch.targetBlock logitIdx VOCAB_BLOCK_SIZE block) = lane
  argmax : targetArgmax batch stats = ((block * VOCAB_BLOCK_SIZE + lane : Nat) : Int)
  first : IsFirstMax (fun column : Nat => batch.targetLogit logitIdx column) batch.vocabSize (block * VOCAB_BLOCK_SIZE + lane)
  max : maxOf (loadTargetLocalMax batch stats) =
    .real (batch.targetLogit logitIdx ((block * VOCAB_BLOCK_SIZE + lane : Nat) : Int))

variable {stats : Nat → BlockStats}

theorem GreedyBlocks.found (reduced : GreedyBlocks batch logitIdx stats) :
    ∃ block lane, FoundMax batch logitIdx stats block lane := by
  obtain ⟨inside, laneInside, first, value⟩ := @argmaxOf_blocks _ _ _ (batch.targetRow logitIdx) _ _ _ _ .negInf
    vocabBlock_pos (cdiv_pos batch.vocab_pos vocabBlock_pos) (le_nextPowerOf2 batch.vocabNumBlocks)
    (cdiv_covers vocabBlock_pos) (fun _ inside => cdiv_started vocabBlock_pos inside) (fun _ _ => negInf_lt_real _)
    _ reduced.max _ _ rfl rfl
  refine ⟨_, _, inside, laneInside, rfl, rfl, ?_, isFirstMax_real.mp first, value⟩
  exact reduced.argmax _ inside

/-- The argmax of the kernel is the first maximum of the row. -/
theorem GreedyBlocks.argmax_first (reduced : GreedyBlocks batch logitIdx stats) :
    ∃ place : Nat, targetArgmax batch stats = place ∧
      IsFirstMax (fun column : Nat => batch.targetLogit logitIdx column) batch.vocabSize place := by
  obtain ⟨block, lane, found⟩ := reduced.found
  exact ⟨_, found.argmax, found.first⟩

end Greedy

theorem loadBlocks_congr {blocks padded : Nat} {first second : Nat → ExactFloat} {other : ExactFloat}
    (same : ∀ block, block < blocks → first block = second block) :
    loadBlocks blocks padded first other = loadBlocks blocks padded second other := by
  apply List.map_congr_left
  intro block _
  rw [paddedRow, paddedRow]
  split
  · exact same block ‹_›
  · rfl

theorem loadBlocks_getD {blocks padded block : Nat} {cells : Nat → ExactFloat} {other default : ExactFloat}
    (inside : block < padded) :
    (loadBlocks blocks padded cells other).getD block default = paddedRow cells blocks other block := by
  rw [loadBlocks, List.getD_eq_getElem _ _ (by simpa using inside), List.getElem_map, List.getElem_range]

section RunnerUp

variable {stats : Nat → LossyBlockStats} {block lane : Nat}

/-- The largest lane of a block without its first maximum. -/
noncomputable def blockSecond (batch : VerificationBatch) (logitIdx block : Nat) : ExactFloat :=
  let targetLogits := batch.targetBlock logitIdx VOCAB_BLOCK_SIZE block
  maxOf ((List.range VOCAB_BLOCK_SIZE).map fun lane =>
    if lane = argmaxOf targetLogits then .negInf else targetLogits.getD lane .negInf)

theorem targetBlock_getD {width column : Nat} (inside : column < width) (default : ExactFloat) :
    (batch.targetBlock logitIdx width block).getD column default =
      blockRow (batch.targetRow logitIdx) batch.vocabSize width .negInf block column := by
  rw [VerificationBatch.targetBlock, List.getD_eq_getElem _ _ (by simpa using inside), List.getElem_map,
    List.getElem_range]

theorem targetBlock_max_le_iff {bound : ℝ} :
    maxOf (batch.targetBlock logitIdx VOCAB_BLOCK_SIZE block) ≤ .real bound ↔
      ∀ column, column < VOCAB_BLOCK_SIZE → block * VOCAB_BLOCK_SIZE + column < batch.vocabSize →
        batch.targetLogit logitIdx ((block * VOCAB_BLOCK_SIZE + column : Nat) : Int) ≤ bound := by
  rw [maxOf_le_iff, VerificationBatch.targetBlock, List.forall_mem_map]
  simp only [List.mem_range]
  apply forall_congr'
  intro column
  apply imp_congr_right
  intro _
  exact blockRow_le_iff

theorem blockSecond_le_iff {bound : ℝ} :
    blockSecond batch logitIdx block ≤ .real bound ↔
      ∀ column, column < VOCAB_BLOCK_SIZE → column ≠ argmaxOf (batch.targetBlock logitIdx VOCAB_BLOCK_SIZE block) →
        block * VOCAB_BLOCK_SIZE + column < batch.vocabSize →
          batch.targetLogit logitIdx ((block * VOCAB_BLOCK_SIZE + column : Nat) : Int) ≤ bound := by
  rw [blockSecond, maxOf_le_iff, List.forall_mem_map]
  simp only [List.mem_range]
  apply forall_congr'
  intro column
  apply imp_congr_right
  intro inside
  by_cases chosen : column = argmaxOf (batch.targetBlock logitIdx VOCAB_BLOCK_SIZE block)
  · rw [if_pos chosen]
    constructor
    · intro _ different
      exact absurd chosen different
    · intro _
      exact negInf_le_real bound
  · rw [if_neg chosen, targetBlock_getD inside, forall_prop_of_true chosen]
    exact blockRow_le_iff

theorem negInf_le_blockSecond (reached : argmaxOf (batch.targetBlock logitIdx VOCAB_BLOCK_SIZE block) < VOCAB_BLOCK_SIZE) :
    .negInf ≤ blockSecond batch logitIdx block := by
  apply le_maxOf
  rw [List.mem_map]
  exact ⟨_, List.mem_range.mpr reached, if_pos rfl⟩

/-- The lanes that the kernel reduces to the runner-up. -/
theorem runnerUp_eq (stats : Nat → LossyBlockStats) :
    runnerUp batch stats = maxOf ((List.range (nextPowerOf2 batch.vocabNumBlocks)).map
      (paddedRow (fun block =>
        if block = argmaxOf (loadTargetLocalMax batch fun block => (stats block).toBlockStats) then
          (stats block).targetLocalSecond
        else (stats block).targetLocalMax) batch.vocabNumBlocks .negInf)) := by
  rw [runnerUp]
  congr 1
  apply List.map_congr_left
  intro block member
  rw [List.mem_range] at member
  rw [loadTargetLocalMax, loadBlocks_getD member, loadBlocks_getD member]
  by_cases inside : block < batch.vocabNumBlocks
  · simp [paddedRow, inside]
  · simp [paddedRow, inside]

/-- The runner-up is the largest logit of the row without the first maximum. -/
theorem runnerUp_le_iff (reduced : GreedyBlocks batch logitIdx fun block => (stats block).toBlockStats)
    (second : ∀ block, block < batch.vocabNumBlocks → (stats block).targetLocalSecond = blockSecond batch logitIdx block)
    (found : FoundMax batch logitIdx (fun block => (stats block).toBlockStats) block lane) {bound : ℝ} :
    runnerUp batch stats ≤ .real bound ↔
      ∀ other : Nat, other < batch.vocabSize → other ≠ block * VOCAB_BLOCK_SIZE + lane →
        batch.targetLogit logitIdx other ≤ bound := by
  rw [runnerUp_eq, found.outer, maxOf_le_iff, List.forall_mem_map]
  simp only [List.mem_range]
  have lanes : ∀ place, place < batch.vocabNumBlocks →
      ((if place = block then (stats place).targetLocalSecond else (stats place).targetLocalMax) ≤ .real bound ↔
        ∀ column, column < VOCAB_BLOCK_SIZE → place * VOCAB_BLOCK_SIZE + column < batch.vocabSize →
          place * VOCAB_BLOCK_SIZE + column ≠ block * VOCAB_BLOCK_SIZE + lane →
            batch.targetLogit logitIdx ((place * VOCAB_BLOCK_SIZE + column : Nat) : Int) ≤ bound) := by
    intro place inside
    by_cases same : place = block
    · subst same
      rw [if_pos rfl, second place inside, blockSecond_le_iff, found.inner]
      constructor
      · intro least column columnInside real different
        exact least column columnInside (fun chosen => different (by rw [chosen])) real
      · intro least column columnInside different real
        exact least column columnInside real (by omega)
    · rw [if_neg same, reduced.max place inside, targetBlock_max_le_iff]
      have apart : ∀ column, column < VOCAB_BLOCK_SIZE →
          place * VOCAB_BLOCK_SIZE + column ≠ block * VOCAB_BLOCK_SIZE + lane := by
        intro column columnInside equal
        have quotients := congrArg (· / VOCAB_BLOCK_SIZE) equal
        simp only [Nat.mul_comm _ VOCAB_BLOCK_SIZE, Nat.mul_add_div vocabBlock_pos, Nat.div_eq_of_lt columnInside,
          Nat.div_eq_of_lt found.lane_lt, Nat.add_zero] at quotients
        exact same quotients
      constructor
      · intro least column columnInside real _
        exact least column columnInside real
      · intro least column columnInside real
        exact least column columnInside real (apart column columnInside)
  constructor
  · intro least other inside different
    have whole := Nat.div_add_mod' other VOCAB_BLOCK_SIZE
    have laneInside : other % VOCAB_BLOCK_SIZE < VOCAB_BLOCK_SIZE := Nat.mod_lt _ vocabBlock_pos
    have covered : batch.vocabSize ≤ batch.vocabNumBlocks * VOCAB_BLOCK_SIZE := cdiv_covers vocabBlock_pos
    have blockInside : other / VOCAB_BLOCK_SIZE < batch.vocabNumBlocks :=
      Nat.div_lt_of_lt_mul (by rw [Nat.mul_comm]; omega)
    have padded := least _ (blockInside.trans_le (le_nextPowerOf2 _))
    rw [paddedRow, if_pos blockInside, lanes _ blockInside] at padded
    have here := padded _ laneInside (by rwa [whole]) (by rwa [whole])
    rwa [whole] at here
  · intro least place _
    by_cases inside : place < batch.vocabNumBlocks
    · rw [paddedRow, if_pos inside, lanes place inside]
      intro column _ real different
      exact least _ real different
    · rw [paddedRow, if_neg inside]
      exact negInf_le_real bound

theorem runnerUp_not_nan
    (second : ∀ block, block < batch.vocabNumBlocks → (stats block).targetLocalSecond = blockSecond batch logitIdx block)
    (found : FoundMax batch logitIdx (fun block => (stats block).toBlockStats) block lane) :
    runnerUp batch stats ≠ .nan := by
  have reached : argmaxOf (batch.targetBlock logitIdx VOCAB_BLOCK_SIZE block) < VOCAB_BLOCK_SIZE := by
    rw [found.inner]
    exact found.lane_lt
  have member : blockSecond batch logitIdx block ≤ runnerUp batch stats := by
    rw [runnerUp_eq, found.outer]
    apply le_maxOf
    rw [List.mem_map]
    refine ⟨block, List.mem_range.mpr (found.block_lt.trans_le (le_nextPowerOf2 _)), ?_⟩
    rw [paddedRow, if_pos found.block_lt, if_pos rfl, second block found.block_lt]
  have above : ExactFloat.nan < runnerUp batch stats :=
    lt_of_lt_of_le (lt_of_lt_of_le (by simp [lt_def, rank]) (negInf_le_blockSecond reached)) member
  exact above.ne'

end RunnerUp

section LogSumExp

/-- A sum over blocks of one length is a sum over all places. -/
theorem sum_blocks (value : Nat → ℝ) (blocks length : Nat) :
    ∑ block ∈ Finset.range blocks, ∑ lane ∈ Finset.range length, value (block * length + lane) =
      ∑ place ∈ Finset.range (blocks * length), value place := by
  induction blocks with
  | zero => simp
  | succ blocks ih => rw [Finset.sum_range_succ, ih, Nat.succ_mul, Finset.sum_range_add]

theorem sum_masked (value : Nat → ℝ) {size total : Nat} (within : size ≤ total) :
    ∑ place ∈ Finset.range total, (if place < size then value place else 0) = ∑ place ∈ Finset.range size, value place := by
  obtain ⟨extra, rfl⟩ := Nat.exists_eq_add_of_le within
  rw [Finset.sum_range_add, Finset.sum_congr rfl fun place member => if_pos (Finset.mem_range.mp member)]
  simp

theorem sum_range_real (count : Nat) (value : Nat → ℝ) :
    sum ((List.range count).map fun index => ExactFloat.real (value index)) =
      .real (∑ index ∈ Finset.range count, value index) := by
  rw [sum_real, ← List.sum_toFinset, List.toFinset_range]
  exact List.nodup_range

variable {row : Nat → ℝ} {size width blocks padded : Nat}

/-- The maximum of a block that starts inside the row is a number. -/
theorem blockMax_real (row : Nat → ℝ) {block : Nat} (widthPos : 0 < width) (started : block * width < size) :
    ∃ shift, maxOf ((List.range width).map
      (blockRow (fun column => ExactFloat.real (row column)) size width .negInf block)) = .real shift := by
  obtain ⟨found, attained⟩ :=
    argmaxOf_isFirstMax (blockRow (fun column => ExactFloat.real (row column)) size width .negInf block) widthPos
  have first := found.largest 0 widthPos
  rw [← attained, blockRow, Nat.add_zero, if_pos started] at first
  rw [blockRow] at attained
  split at attained
  · exact ⟨_, attained⟩
  · rw [attained] at first
    exact absurd first (not_le.mpr (negInf_lt_real _))

/-- The summed exponentials of a block, by its maximum. -/
theorem blockSumexp_eq {block : Nat} {shift : ℝ}
    (max : maxOf ((List.range width).map (blockRow (fun column => ExactFloat.real (row column)) size width .negInf block)) =
      .real shift) :
    (computeBlockMaxAndSumexp
      ((List.range width).map (blockRow (fun column => ExactFloat.real (row column)) size width .negInf block))).2 =
        .real ((∑ lane ∈ Finset.range width,
          if block * width + lane < size then Real.exp (row (block * width + lane)) else 0) * Real.exp (-shift)) := by
  rw [computeBlockMaxAndSumexp, max, if_pos (greater_negInf shift), Finset.sum_mul, ← sum_range_real, List.map_map]
  show ExactFloat.sum _ = ExactFloat.sum _
  congr 1
  apply List.map_congr_left
  intro lane _
  rw [Function.comp_apply, blockRow]
  by_cases inside : block * width + lane < size
  · rw [if_pos inside, if_pos inside, real_sub_real, exp_real, sub_eq_add_neg, Real.exp_add]
  · rw [if_neg inside, if_neg inside, negInf_sub_real, exp_negInf, zero_mul]

/-- The log-sum-exp of a row from the maxima and the summed exponentials of its blocks. -/
theorem computeGlobalLse_eq (widthPos : 0 < width) (blocksPos : 0 < blocks) (within : blocks ≤ padded)
    (covered : size ≤ blocks * width) (started : ∀ block, block < blocks → block * width < size)
    {localMax localSumexp : Nat → ExactFloat}
    (max : ∀ block, block < blocks → localMax block =
      maxOf ((List.range width).map (blockRow (fun column => ExactFloat.real (row column)) size width .negInf block)))
    (sumexp : ∀ block, block < blocks → localSumexp block = (computeBlockMaxAndSumexp
      ((List.range width).map (blockRow (fun column => ExactFloat.real (row column)) size width .negInf block))).2) :
    computeGlobalLse localMax localSumexp blocks padded =
      .real (Real.log (∑ column ∈ Finset.range size, Real.exp (row column))) := by
  have globalMax : ∃ top, maxOf (loadBlocks blocks padded localMax .negInf) = .real top :=
    ⟨_, (argmaxOf_blocks widthPos blocksPos within covered started (fun _ _ => negInf_lt_real _) max rfl rfl).2.2.2⟩
  obtain ⟨top, topped⟩ := globalMax
  -- The weight of a block in the merged sum: its own shift cancels.
  have weights : List.zipWith (fun sumexp max => sumexp.mul (max.sub (.real top)).exp)
      (loadBlocks blocks padded localSumexp (.real 0)) (loadBlocks blocks padded localMax .negInf) =
      (List.range padded).map fun block => ExactFloat.real (if block < blocks then
        (∑ lane ∈ Finset.range width,
          if block * width + lane < size then Real.exp (row (block * width + lane)) else 0) * Real.exp (-top) else 0) := by
    rw [loadBlocks, loadBlocks, List.zipWith_map, List.zipWith_self]
    apply List.map_congr_left
    intro block _
    rw [paddedRow, paddedRow]
    by_cases inside : block < blocks
    · obtain ⟨shift, shifted⟩ := blockMax_real row widthPos (started block inside)
      rw [if_pos inside, if_pos inside, if_pos inside, sumexp block inside, max block inside, blockSumexp_eq shifted,
        shifted, real_sub_real, exp_real, real_mul_real, mul_assoc, ← Real.exp_add]
      congr 3
      ring
    · rw [if_neg inside, if_neg inside, if_neg inside, negInf_sub_real, exp_negInf, real_mul_real, zero_mul]
  have mass : ∑ block ∈ Finset.range padded, (if block < blocks then
      (∑ lane ∈ Finset.range width,
        if block * width + lane < size then Real.exp (row (block * width + lane)) else 0) * Real.exp (-top) else 0) =
      (∑ column ∈ Finset.range size, Real.exp (row column)) * Real.exp (-top) := by
    rw [sum_masked _ within, ← Finset.sum_mul,
      sum_blocks (fun place => if place < size then Real.exp (row place) else 0), sum_masked _ covered]
  have nonneg : 0 ≤ ∑ column ∈ Finset.range size, Real.exp (row column) :=
    Finset.sum_nonneg fun column _ => (Real.exp_pos _).le
  have positive : 0 < ∑ column ∈ Finset.range size, Real.exp (row column) := by
    apply Finset.sum_pos (fun column _ => Real.exp_pos _)
    rw [Finset.nonempty_range_iff]
    have := started 0 blocksPos
    omega
  rw [computeGlobalLse, topped, weights, sum_range_real, mass, log_real (mul_pos positive (Real.exp_pos _)), real_add_real,
    Real.log_mul positive.ne' (Real.exp_pos _).ne', Real.log_exp]
  congr 1
  ring

end LogSumExp

end DgxSpark.Spec

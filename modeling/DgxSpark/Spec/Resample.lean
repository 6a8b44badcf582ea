import DgxSpark.Spec.BlockStats

/-
This file shows that the resampling kernels find their token among the blocks that were drawn: no lane is NaN.
For a greedy bonus row they find the first maximum of the row.
-/

namespace DgxSpark.Spec
open DgxSpark.Library ExactFloat

section Floats

theorem negInf_le_of_ne_nan {value : ExactFloat} (number : value ≠ .nan) : .negInf ≤ value := by
  cases value with
  | nan => exact absurd rfl number
  | negInf => exact le_refl _
  | real value => exact negInf_le_real value
  | posInf => simp [le_def, rank]

theorem add_real_ne_nan {value : ExactFloat} (number : value ≠ .nan) (shift : ℝ) : value.add (.real shift) ≠ .nan := by
  cases value <;> simp_all [add]

theorem sub_ne_nan {first second : ExactFloat} (number : first.sub second ≠ .nan) : second ≠ .nan := by
  rintro rfl
  cases first <;> simp [sub, neg, add] at number

/-- A ratio below one has a logarithm of what is left. -/
theorem log_rest_real {value : ExactFloat} (below : Greater (.real 1) value.exp) :
    value ≠ .nan ∧ ∃ rest, ((ExactFloat.real 1).sub value.exp).log = .real rest := by
  cases value with
  | nan => exact absurd rfl below.1
  | negInf =>
      refine ⟨by simp, Real.log (1 - 0), ?_⟩
      rw [exp_negInf, real_sub_real, log_real (by norm_num)]
  | real value =>
      refine ⟨by simp, Real.log (1 - Real.exp value), ?_⟩
      rw [exp_real, greater_real] at below
      rw [exp_real, real_sub_real, log_real (by linarith)]
  | posInf =>
      obtain ⟨-, below⟩ := below
      simp [exp, lt_def, rank] at below

/-- The double logarithm of a draw between zero and one is a number. -/
theorem gumbel_real {draw : ℝ} (positive : 0 < draw) (below : draw < 1) :
    ∃ noise, (ExactFloat.real draw).log.neg.log.neg = .real noise := by
  have log := Real.log_neg positive below
  refine ⟨-Real.log (-Real.log draw), ?_⟩
  rw [log_real positive]
  show (ExactFloat.real (-Real.log draw)).log.neg = _
  rw [log_real (by linarith)]
  rfl

end Floats

variable {batch : VerificationBatch} {draws : Draws} {reqIdx rejectedStep : Nat} {targetLse draftLse : ExactFloat}

theorem float64Tiny_pos : 0 < FLOAT64_TINY := by
  rw [FLOAT64_TINY]
  positivity

theorem float64Tiny_lt_one : FLOAT64_TINY < 1 := by
  have power : (10 : ℝ) ^ 1 ≤ 10 ^ 308 := pow_le_pow_right₀ (by norm_num) (by norm_num)
  rw [FLOAT64_TINY, div_lt_one (by positivity)]
  exact lt_of_lt_of_le (by norm_num) power

theorem tlRand64_pos (seed offset : Int) : 0 < tlRand64 draws seed offset := lt_max_of_lt_right float64Tiny_pos

theorem tlRand64_lt_one (seed offset : Int) : tlRand64 draws seed offset < 1 := by
  rw [tlRand64]
  apply max_lt
  · have lo := (draws.randint4x seed offset).1.toNat_lt
    have hi := (draws.randint4x seed offset).2.toNat_lt
    have word : (draws.randint4x seed offset).2.toNat <<< 32 ||| (draws.randint4x seed offset).1.toNat < 2 ^ 64 := by
      apply Nat.or_lt_two_pow
      · rw [Nat.shiftLeft_eq]
        omega
      · exact lo.trans (by norm_num)
    have real : (((draws.randint4x seed offset).2.toNat <<< 32 ||| (draws.randint4x seed offset).1.toNat : Nat) : ℝ) <
        2 ^ 64 := by exact_mod_cast word
    linarith
  · exact float64Tiny_lt_one

theorem gumbelNoise_real (gumbelSeed column : Int) : ∃ noise, gumbelNoise batch draws gumbelSeed column = .real noise := by
  rw [gumbelNoise]
  split
  · exact gumbel_real (tlRand64_pos _ _) (tlRand64_lt_one _ _)
  · have least : (0 : ℝ) < TL_RAND_MIN := by norm_num [TL_RAND_MIN]
    have below : max (draws.rand gumbelSeed column) TL_RAND_MIN < 1 :=
      max_lt (draws.rand_lt_one _ _) (by norm_num [TL_RAND_MIN])
    have above : TL_RAND_MIN ≤ max (draws.rand gumbelSeed column) TL_RAND_MIN := le_max_right _ _
    exact gumbel_real (by linarith) (by linarith)

theorem maskedTarget_ne_nan {logitIdx column : Nat} :
    maskedLoad (column < batch.vocabSize) (ExactFloat.real (batch.targetLogit logitIdx column)) .negInf ≠ .nan := by
  rw [maskedLoad]
  split <;> simp

theorem residualLogit_ne_nan (column : Nat) :
    residualLogit batch rejectedStep targetLse draftLse reqIdx column ≠ .nan := by
  rw [residualLogit]
  split
  · exact maskedTarget_ne_nan
  · cases batch.draftLogits with
    | some draftLogits =>
        simp only
        split
        case isTrue below =>
            obtain ⟨number, rest, log⟩ := log_rest_real below
            rw [log]
            exact add_real_ne_nan (sub_ne_nan number) rest
        case isFalse => simp
    | none =>
        simp only
        split
        · exact maskedTarget_ne_nan
        · simp

/-- The first block draws a value, if only `-inf`. -/
theorem gumbelBlockArgmax_reaches (tokenIdx : Nat) :
    .negInf ≤ (gumbelBlockArgmax batch draws (residualLogit batch rejectedStep targetLse draftLse reqIdx) tokenIdx 0).1 := by
  have lane : ExactFloat.negInf ≤
      if batch.temperature (batch.expandedIdxMapping tokenIdx) ≠ 0 then
        if 0 * RESAMPLE_BLOCK_SIZE + 0 < batch.vocabSize then
          (residualLogit batch rejectedStep targetLse draftLse reqIdx (0 * RESAMPLE_BLOCK_SIZE + 0)).add
            (gumbelNoise batch draws (draws.randint (batch.seed (batch.expandedIdxMapping tokenIdx)) (batch.pos tokenIdx))
              ((0 * RESAMPLE_BLOCK_SIZE + 0 : Nat) : Int))
        else .negInf
      else residualLogit batch rejectedStep targetLse draftLse reqIdx (0 * RESAMPLE_BLOCK_SIZE + 0) := by
    apply negInf_le_of_ne_nan
    split
    · split
      · obtain ⟨noise, real⟩ := @gumbelNoise_real batch draws
          (draws.randint (batch.seed (batch.expandedIdxMapping tokenIdx)) (batch.pos tokenIdx))
          ((0 * RESAMPLE_BLOCK_SIZE + 0 : Nat) : Int)
        rw [real]
        exact add_real_ne_nan (residualLogit_ne_nan _) noise
      · simp
    · exact residualLogit_ne_nan _
  apply lane.trans
  rw [gumbelBlockArgmax]
  apply le_maxOf
  rw [List.mem_map]
  exact ⟨0, List.mem_range.mpr resampleBlock_pos, rfl⟩

/-- The inserted token depends on the drawn blocks only. -/
theorem insertedToken_congr {first second : Nat → ResampledBlock}
    (same : ∀ block, block < batch.resampleNumBlocks → first block = second block)
    (reaches : .negInf ≤ (first 0).resampledLocalMax) : insertedToken batch first = insertedToken batch second := by
  have some : 0 < batch.resampleNumBlocks := cdiv_pos batch.vocab_pos resampleBlock_pos
  have maxima : loadBlocks batch.resampleNumBlocks (nextPowerOf2 batch.resampleNumBlocks)
      (fun block => (first block).resampledLocalMax) .negInf =
      loadBlocks batch.resampleNumBlocks (nextPowerOf2 batch.resampleNumBlocks)
        (fun block => (second block).resampledLocalMax) .negInf := by
    apply loadBlocks_congr
    intro block inside
    rw [same block inside]
  have found := @argmaxOf_padded_lt _ _ _ _ _ _ (fun block => (first block).resampledLocalMax) some
    (le_nextPowerOf2 batch.resampleNumBlocks) reaches
  rw [insertedToken, insertedToken, ← maxima]
  exact congrArg _ (same _ found)

/-- Where a token is resampled, a block is drawn whatever its cell held. -/
theorem resampleKernel_drawn
    (resampled : ¬(batch.temperature (batch.expandedIdxMapping (batch.cuNumLogits reqIdx + rejectedStep)) = 0 ∧
      decide (batch.cuNumLogits reqIdx + rejectedStep + 1 = batch.cuNumLogits (reqIdx + 1)) = false)) (block : Nat)
    (cell : ResampledBlock) :
    resampleKernel batch draws rejectedStep targetLse draftLse reqIdx block cell =
      { resampledLocalArgmax := block * RESAMPLE_BLOCK_SIZE +
          (gumbelBlockArgmax batch draws (residualLogit batch rejectedStep targetLse draftLse reqIdx)
            (batch.cuNumLogits reqIdx + rejectedStep) block).2
        resampledLocalMax := (gumbelBlockArgmax batch draws (residualLogit batch rejectedStep targetLse draftLse reqIdx)
          (batch.cuNumLogits reqIdx + rejectedStep) block).1 } := by
  rw [resampleKernel, if_neg resampled]

/-- The row of a request after `_resample_kernel` and `_insert_resampled_kernel`. -/
noncomputable def insertedRow (batch : VerificationBatch) (draws : Draws) (verified : Verification) (reqIdx : Nat)
    (fresh : Nat → ResampledBlock) : Nat → Int :=
  insertSampled batch (drawnBlocks batch draws verified.rejectedStep verified.targetLse verified.draftLse reqIdx fresh)
    reqIdx verified.rejectedStep verified.sampled

/-- The row does not depend on what the buffers held. -/
theorem insertedRow_congr {old new : Nat → ResampledBlock} {first second : Verification}
    (step : first.rejectedStep = second.rejectedStep) (target : first.targetLse = second.targetLse)
    (draft : first.draftLse = second.draftLse)
    (before : ∀ place, place < second.rejectedStep → first.sampled place = second.sampled place)
    (kept : batch.temperature (batch.expandedIdxMapping (batch.cuNumLogits reqIdx + second.rejectedStep)) = 0 →
      batch.cuNumLogits reqIdx + second.rejectedStep + 1 ≠ batch.cuNumLogits (reqIdx + 1) →
        first.sampled second.rejectedStep = second.sampled second.rejectedStep) {place : Nat}
    (inside : place < second.rejectedStep + 1) :
    insertedRow batch draws first reqIdx old place = insertedRow batch draws second reqIdx new place := by
  have some : 0 < batch.resampleNumBlocks := cdiv_pos batch.vocab_pos resampleBlock_pos
  rw [insertedRow, insertedRow, step, target, draft, insertSampled, insertSampled]
  by_cases early : batch.temperature (batch.expandedIdxMapping (batch.cuNumLogits reqIdx + second.rejectedStep)) = 0 ∧
      decide (batch.cuNumLogits reqIdx + second.rejectedStep + 1 = batch.cuNumLogits (reqIdx + 1)) = false
  · rw [if_pos early, if_pos early]
    rcases Nat.lt_succ_iff_lt_or_eq.mp inside with sooner | rfl
    · exact before place sooner
    · exact kept early.1 (of_decide_eq_false early.2)
  · rw [if_neg early, if_neg early]
    have token : insertedToken batch
        (drawnBlocks batch draws second.rejectedStep second.targetLse second.draftLse reqIdx old) =
        insertedToken batch
          (drawnBlocks batch draws second.rejectedStep second.targetLse second.draftLse reqIdx new) := by
      apply insertedToken_congr
      · intro block blockInside
        rw [drawnBlocks, drawnBlocks, if_pos blockInside, if_pos blockInside, resampleKernel_drawn early,
          resampleKernel_drawn early]
      · rw [drawnBlocks, if_pos some, resampleKernel_drawn early]
        dsimp only
        exact gumbelBlockArgmax_reaches _
    rw [token]
    rcases Nat.lt_succ_iff_lt_or_eq.mp inside with sooner | rfl
    · rw [Function.update_of_ne sooner.ne, Function.update_of_ne sooner.ne]
      exact before place sooner
    · rw [Function.update_self, Function.update_self]

end DgxSpark.Spec

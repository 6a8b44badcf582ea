import DgxSpark.Library.ExactFloat
import DgxSpark.Library.Grid
import Mathlib.Data.Nat.Log

/-
This file embeds what the verification kernels of `rejection_sampler_utils.py` have in common with the stock
kernels: their inputs, the reductions over blocks, the resampling kernel and the Gumbel draw of `gumbel.py`.
Numbers are exact reals with the special values; the casts between widths do not change them.
-/

namespace DgxSpark.Spec
open DgxSpark.Library ExactFloat

/-- The inputs of `rejection_sample`. Logits are flat memories with their strides. -/
structure VerificationBatch where
  numReqs : Nat
  vocabSize : Nat
  numSpeculativeSteps : Nat
  useFp64 : Bool
  targetLogits : Int → ℝ
  targetLogitsStride : Nat
  draftLogits : Option (Int → ℝ)
  draftLogitsStride0 : Nat
  draftLogitsStride1 : Nat
  draftSampled : Nat → Int
  cuNumLogits : Nat → Nat
  pos : Nat → Int
  idxMapping : Nat → Nat
  expandedIdxMapping : Nat → Nat
  expandedLocalPos : Nat → Nat
  temperature : Nat → ℝ
  seed : Nat → Int
  syntheticConditionalRates : Option (Nat → ℝ)
  vocab_pos : 0 < vocabSize
  /-- Every request has its bonus row, after at most the configured number of drafts. -/
  rows : ∀ reqIdx, reqIdx < numReqs → cuNumLogits reqIdx < cuNumLogits (reqIdx + 1) ∧
    cuNumLogits (reqIdx + 1) ≤ cuNumLogits reqIdx + numSpeculativeSteps + 1
  /-- Requests are in slots of their own. -/
  slots : ∀ first second, first < numReqs → second < numReqs → idxMapping first = idxMapping second → first = second
  /-- The rows of a request know its slot and their place. -/
  expanded : ∀ reqIdx, reqIdx < numReqs → ∀ row, cuNumLogits reqIdx ≤ row → row < cuNumLogits (reqIdx + 1) →
    expandedIdxMapping row = idxMapping reqIdx ∧ expandedLocalPos row = row - cuNumLogits reqIdx

/-- The draws of the random number generator, by seed and offset. -/
structure Draws where
  randint : Int → Int → Int
  randint4x : Int → Int → UInt32 × UInt32
  rand : Int → Int → ℝ
  rand_lt_one : ∀ seed offset, rand seed offset < 1

def TL_RAND_MIN : ℝ := 4.6566127342e-10

/-- The smallest normal number of a double. -/
noncomputable def FLOAT64_TINY : ℝ := 2.2250738585072014 / 10 ^ 308

/-- `tl_rand64` without zero. -/
noncomputable def tlRand64 (draws : Draws) (seed offset : Int) : ℝ :=
  let lo := (draws.randint4x seed offset).1.toNat
  let hi := (draws.randint4x seed offset).2.toNat
  let r := hi <<< 32 ||| lo
  max ((r : ℝ) * 5.421010862427522170037e-20) FLOAT64_TINY

/-- `triton.cdiv`. -/
def cdiv (size block : Nat) : Nat := (size + block - 1) / block

def VOCAB_BLOCK_SIZE : Nat := 8192

def RESAMPLE_BLOCK_SIZE : Nat := 1024

namespace VerificationBatch

variable (batch : VerificationBatch)

def numLogits : Nat := batch.cuNumLogits batch.numReqs

def vocabNumBlocks : Nat := cdiv batch.vocabSize VOCAB_BLOCK_SIZE

def resampleNumBlocks : Nat := cdiv batch.vocabSize RESAMPLE_BLOCK_SIZE

/-- The drafts of a request: its rows but the bonus row. -/
def numDrafts (reqIdx : Nat) : Nat := batch.cuNumLogits (reqIdx + 1) - batch.cuNumLogits reqIdx - 1

/-- A load of a target logit; a token id is an offset from the row. -/
def targetLogit (logitIdx : Nat) (tokenId : Int) : ℝ := batch.targetLogits (logitIdx * batch.targetLogitsStride + tokenId)

def draftLogit (draftLogits : Int → ℝ) (reqStateIdx step : Nat) (tokenId : Int) : ℝ :=
  draftLogits (reqStateIdx * batch.draftLogitsStride0 + step * batch.draftLogitsStride1 + tokenId)

def targetRow (logitIdx column : Nat) : ExactFloat := .real (batch.targetLogit logitIdx column)

/-- The masked load of a block of a row of target logits. -/
def targetBlock (logitIdx width block : Nat) : List ExactFloat :=
  (List.range width).map (blockRow (batch.targetRow logitIdx) batch.vocabSize width .negInf block)

end VerificationBatch

/-- The cells of a block of a row in the buffers of the block statistics. -/
structure BlockStats where
  targetLocalArgmax : Int
  targetLocalMax : ExactFloat
  targetLocalSumexp : ExactFloat
  draftLocalMax : ExactFloat
  draftLocalSumexp : ExactFloat

/-- The variables of the loop over the drafts of a request, and its row of sampled tokens. -/
structure Verification where
  rejectedStep : Nat
  targetLse : ExactFloat
  draftLse : ExactFloat
  accepted : Bool
  sampled : Nat → Int

/-- The masked load of the blocks of a row. -/
def loadBlocks (blocks padded : Nat) (cells : Nat → ExactFloat) (other : ExactFloat) : List ExactFloat :=
  (List.range padded).map (paddedRow cells blocks other)

noncomputable def computeBlockMaxAndSumexp (logits : List ExactFloat) : ExactFloat × ExactFloat :=
  let blockMax := maxOf logits
  let blockSumexp := if Greater blockMax .negInf then sum (logits.map fun logit => (logit.sub blockMax).exp) else .real 0
  (blockMax, blockSumexp)

noncomputable def computeGlobalLse (localMax localSumexp : Nat → ExactFloat) (vocabNumBlocks padded : Nat) :
    ExactFloat :=
  let maxes := loadBlocks vocabNumBlocks padded localMax .negInf
  let sumexps := loadBlocks vocabNumBlocks padded localSumexp (.real 0)
  let globalMax := maxOf maxes
  globalMax.add (sum (List.zipWith (fun sumexp max => sumexp.mul (max.sub globalMax).exp) sumexps maxes)).log

section Rows

variable (batch : VerificationBatch) (draws : Draws)

/-- The greedy branch of the stock `_compute_block_stats_kernel`: the first maximum of the block. -/
noncomputable def greedyBlockStats (logitIdx block : Nat) (cell : BlockStats) : BlockStats :=
  let targetLogits := batch.targetBlock logitIdx VOCAB_BLOCK_SIZE block
  { cell with
    targetLocalArgmax := block * VOCAB_BLOCK_SIZE + argmaxOf targetLogits
    targetLocalMax := maxOf targetLogits }

@[simp] theorem greedyBlockStats_argmax (logitIdx block : Nat) (cell : BlockStats) :
    (greedyBlockStats batch logitIdx block cell).targetLocalArgmax =
      block * VOCAB_BLOCK_SIZE + argmaxOf (batch.targetBlock logitIdx VOCAB_BLOCK_SIZE block) := by
  rw [greedyBlockStats]

@[simp] theorem greedyBlockStats_max (logitIdx block : Nat) (cell : BlockStats) :
    (greedyBlockStats batch logitIdx block cell).targetLocalMax =
      maxOf (batch.targetBlock logitIdx VOCAB_BLOCK_SIZE block) := by
  rw [greedyBlockStats]

/-- The other branch of `_compute_block_stats_kernel`: the maximum and the summed exponentials of the block. -/
noncomputable def sampledBlockStats (logitIdx block : Nat) (cell : BlockStats) : BlockStats :=
  let target := computeBlockMaxAndSumexp (batch.targetBlock logitIdx VOCAB_BLOCK_SIZE block)
  let cell := { cell with targetLocalMax := target.1, targetLocalSumexp := target.2 }
  match batch.draftLogits with
  | some draftLogits =>
      let row := fun column : Nat => ExactFloat.real
        (batch.draftLogit draftLogits (batch.expandedIdxMapping logitIdx) (batch.expandedLocalPos logitIdx) column)
      let draft := computeBlockMaxAndSumexp
        ((List.range VOCAB_BLOCK_SIZE).map (blockRow row batch.vocabSize VOCAB_BLOCK_SIZE .negInf block))
      { cell with draftLocalMax := draft.1, draftLocalSumexp := draft.2 }
  | none => cell

/-- What the kernel stores does not depend on what the cell held. -/
theorem sampledBlockStats_target (logitIdx block : Nat) (old new : BlockStats) :
    (sampledBlockStats batch logitIdx block old).targetLocalMax =
        (sampledBlockStats batch logitIdx block new).targetLocalMax ∧
      (sampledBlockStats batch logitIdx block old).targetLocalSumexp =
        (sampledBlockStats batch logitIdx block new).targetLocalSumexp := by
  simp only [sampledBlockStats]
  cases batch.draftLogits <;> simp only [and_self]

theorem sampledBlockStats_draft (logitIdx block : Nat) (old new : BlockStats) (drafted : batch.draftLogits ≠ none) :
    (sampledBlockStats batch logitIdx block old).draftLocalMax =
        (sampledBlockStats batch logitIdx block new).draftLocalMax ∧
      (sampledBlockStats batch logitIdx block old).draftLocalSumexp =
        (sampledBlockStats batch logitIdx block new).draftLocalSumexp := by
  obtain ⟨draftLogits, some⟩ := Option.ne_none_iff_exists'.mp drafted
  simp only [sampledBlockStats, some, and_self]

/-- The maxima of the blocks of a row, padded to a power of two. -/
def loadTargetLocalMax (stats : Nat → BlockStats) : List ExactFloat :=
  loadBlocks batch.vocabNumBlocks (nextPowerOf2 batch.vocabNumBlocks) (fun block => (stats block).targetLocalMax) .negInf

/-- The argmax of a greedy row in `_rejection_kernel`: that of the first block with the largest maximum. -/
noncomputable def targetArgmax (stats : Nat → BlockStats) : Int :=
  (stats (argmaxOf (loadTargetLocalMax batch stats))).targetLocalArgmax

/-- The branch of `_rejection_kernel` for a row that is not greedy. -/
noncomputable def sampledStep (stats : Nat → Nat → BlockStats) (reqIdx : Nat) (state : Verification) (i : Nat) :
    Verification :=
  let reqStateIdx := batch.idxMapping reqIdx
  let logitIdx := batch.cuNumLogits reqIdx + i
  let draftSampled := batch.draftSampled (logitIdx + 1)
  let padded := nextPowerOf2 batch.vocabNumBlocks
  let targetLse := computeGlobalLse (fun block => (stats logitIdx block).targetLocalMax)
    (fun block => (stats logitIdx block).targetLocalSumexp) batch.vocabNumBlocks padded
  let targetLogProb := (ExactFloat.real (batch.targetLogit logitIdx draftSampled)).sub targetLse
  let u := tlRand64 draws (batch.seed reqStateIdx) (batch.pos logitIdx)
  let draft : ExactFloat × ExactFloat :=
    match batch.draftLogits with
    | some draftLogits =>
        let draftLse := computeGlobalLse (fun block => (stats logitIdx block).draftLocalMax)
          (fun block => (stats logitIdx block).draftLocalSumexp) batch.vocabNumBlocks padded
        (draftLse, (ExactFloat.real (batch.draftLogit draftLogits reqStateIdx i draftSampled)).sub draftLse)
    -- A one-hot draft has log-probability 0, and the stored log-sum-exp is not touched.
    | none => (state.draftLse, .real 0)
  let accepted : Bool :=
    match batch.syntheticConditionalRates with
    | some rates => decide (u < rates i)
    | none => decide (Greater targetLogProb ((ExactFloat.real u).log.add draft.2))
  { rejectedStep := if accepted then state.rejectedStep + 1 else state.rejectedStep
    targetLse := targetLse
    draftLse := draft.1
    accepted := accepted
    sampled := Function.update state.sampled i draftSampled }

end Rows

/-- The cells of a block of a request in the buffers of the resampled token. -/
structure ResampledBlock where
  resampledLocalArgmax : Int
  resampledLocalMax : ExactFloat

section Resample

variable (batch : VerificationBatch) (draws : Draws)

/-- The noise of a lane in `gumbel_block_argmax`. -/
noncomputable def gumbelNoise (gumbelSeed column : Int) : ExactFloat :=
  if batch.useFp64 then (ExactFloat.real (tlRand64 draws gumbelSeed column)).log.neg.log.neg
  else
    -- `log1p(-u)` is `log(1 - u)` for exact reals.
    let u := max (draws.rand gumbelSeed column) TL_RAND_MIN
    (ExactFloat.real (1 - u)).log.neg.log.neg

/-- `gumbel_block_argmax` without processed logits: the value and the lane of the first maximum. -/
noncomputable def gumbelBlockArgmax (logits : Nat → ExactFloat) (tokenIdx block : Nat) : ExactFloat × Nat :=
  let reqStateIdx := batch.expandedIdxMapping tokenIdx
  let temp := batch.temperature reqStateIdx
  let gumbelSeed := draws.randint (batch.seed reqStateIdx) (batch.pos tokenIdx)
  let lanes := (List.range RESAMPLE_BLOCK_SIZE).map fun lane =>
    let column := block * RESAMPLE_BLOCK_SIZE + lane
    if temp ≠ 0 then
      if column < batch.vocabSize then (logits column).add (gumbelNoise batch draws gumbelSeed column) else .negInf
    else logits column
  (maxOf lanes, argmaxOf lanes)

/-- The logits that `_resample_kernel` draws from, by column; those past the vocabulary load as `-inf`. -/
noncomputable def residualLogit (rejectedStep : Nat) (targetLse draftLse : ExactFloat) (reqIdx column : Nat) :
    ExactFloat :=
  let tokenIdx := batch.cuNumLogits reqIdx + rejectedStep
  let reqStateIdx := batch.expandedIdxMapping tokenIdx
  let targetLogit : ExactFloat :=
    maskedLoad (column < batch.vocabSize) (.real (batch.targetLogit tokenIdx column)) .negInf
  if tokenIdx + 1 = batch.cuNumLogits (reqIdx + 1) then targetLogit
  else
    match batch.draftLogits with
    | some draftLogits =>
        let draftLogit : ExactFloat := maskedLoad (column < batch.vocabSize)
          (.real (batch.draftLogit draftLogits reqStateIdx rejectedStep column)) .negInf
        let targetLogProb := targetLogit.sub targetLse
        let ratio := ((draftLogit.sub draftLse).sub targetLogProb).exp
        if Greater (.real 1) ratio then targetLogProb.add ((ExactFloat.real 1).sub ratio).log else .negInf
    | none => if (column : Int) ≠ batch.draftSampled (tokenIdx + 1) then targetLogit else .negInf

/-- `_resample_kernel` at a block of a request, over what the buffers held. -/
noncomputable def resampleKernel (rejectedStep : Nat) (targetLse draftLse : ExactFloat) (reqIdx block : Nat)
    (cell : ResampledBlock) : ResampledBlock :=
  let tokenIdx := batch.cuNumLogits reqIdx + rejectedStep
  let temp := batch.temperature (batch.expandedIdxMapping tokenIdx)
  let isBonus : Bool := tokenIdx + 1 = batch.cuNumLogits (reqIdx + 1)
  -- A greedy row that is no bonus row keeps the target argmax it has.
  if temp = 0 ∧ isBonus = false then cell
  else
    let drawn := gumbelBlockArgmax batch draws (residualLogit batch rejectedStep targetLse draftLse reqIdx) tokenIdx block
    { resampledLocalArgmax := block * RESAMPLE_BLOCK_SIZE + drawn.2, resampledLocalMax := drawn.1 }

/-- The blocks of a request that the launch of `_resample_kernel` leaves. -/
noncomputable def drawnBlocks (rejectedStep : Nat) (targetLse draftLse : ExactFloat) (reqIdx : Nat)
    (fresh : Nat → ResampledBlock) (block : Nat) : ResampledBlock :=
  if block < batch.resampleNumBlocks then
    resampleKernel batch draws rejectedStep targetLse draftLse reqIdx block (fresh block)
  else fresh block

/-- The resampled token of `_insert_resampled_kernel`: that of the first block with the largest value. -/
noncomputable def insertedToken (cells : Nat → ResampledBlock) : Int :=
  let resampledLocalMax := loadBlocks batch.resampleNumBlocks (nextPowerOf2 batch.resampleNumBlocks)
    (fun block => (cells block).resampledLocalMax) .negInf
  (cells (argmaxOf resampledLocalMax)).resampledLocalArgmax

/-- The row that `_insert_resampled_kernel` leaves. -/
noncomputable def insertSampled (cells : Nat → ResampledBlock) (reqIdx rejectedStep : Nat) (sampled : Nat → Int) :
    Nat → Int :=
  let tokenIdx := batch.cuNumLogits reqIdx + rejectedStep
  let temp := batch.temperature (batch.expandedIdxMapping tokenIdx)
  let isBonus : Bool := tokenIdx + 1 = batch.cuNumLogits (reqIdx + 1)
  if temp = 0 ∧ isBonus = false then sampled else Function.update sampled rejectedStep (insertedToken batch cells)

end Resample

/-- What the buffers of a call hold before its kernels write to them: `new_empty` leaves anything. -/
structure Fresh where
  stats : Nat → Nat → BlockStats
  targetLocalSecond : Nat → Nat → ExactFloat
  sampled : Nat → Nat → Int
  resampled : Nat → Nat → ResampledBlock

section Single

theorem singleDraft_rows (reqIdx : Nat) (_ : reqIdx < 1) :
    2 * reqIdx < 2 * (reqIdx + 1) ∧ 2 * (reqIdx + 1) ≤ 2 * reqIdx + 1 + 1 := ⟨by omega, by omega⟩

theorem singleDraft_expanded (reqIdx : Nat) (_ : reqIdx < 1) (row : Nat) (_ : 2 * reqIdx ≤ row)
    (_ : row < 2 * (reqIdx + 1)) : row / 2 = reqIdx ∧ row % 2 = row - 2 * reqIdx := ⟨by omega, by omega⟩

/-- A greedy request with one draft, over a vocabulary of two tokens with equal logits. -/
noncomputable def singleDraft (draft : Int) : VerificationBatch where
  numReqs := 1
  vocabSize := 2
  numSpeculativeSteps := 1
  useFp64 := false
  targetLogits := fun _ => 0
  targetLogitsStride := 2
  draftLogits := none
  draftLogitsStride0 := 0
  draftLogitsStride1 := 0
  draftSampled := fun _ => draft
  cuNumLogits := fun reqIdx => 2 * reqIdx
  pos := fun _ => 0
  idxMapping := fun reqIdx => reqIdx
  expandedIdxMapping := fun row => row / 2
  expandedLocalPos := fun row => row % 2
  temperature := fun _ => 0
  seed := fun _ => 0
  syntheticConditionalRates := none
  vocab_pos := Nat.zero_lt_two
  rows := singleDraft_rows
  slots := fun _ _ _ _ same => same
  expanded := singleDraft_expanded

/-- Draws and buffers for a single call. -/
def zeroDraws : Draws where
  randint := fun _ _ => 0
  randint4x := fun _ _ => (0, 0)
  rand := fun _ _ => 0
  rand_lt_one := fun _ _ => zero_lt_one

noncomputable def zeroFresh : Fresh where
  stats := fun _ _ => ⟨0, .nan, .nan, .nan, .nan⟩
  targetLocalSecond := fun _ _ => .nan
  sampled := fun _ _ => 0
  resampled := fun _ _ => ⟨0, .nan⟩

end Single

end DgxSpark.Spec

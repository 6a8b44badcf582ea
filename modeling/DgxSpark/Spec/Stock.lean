import DgxSpark.Spec.Verification

/-
This file embeds the stock rejection sampler, `fixtures/spec_runtime/rejection_sampler_utils.py`.
-/

namespace DgxSpark.Spec.Stock
open DgxSpark.Library ExactFloat

variable (batch : VerificationBatch) (draws : Draws)

/-- `_compute_block_stats_kernel` at a block of a row. -/
noncomputable def computeBlockStatsKernel (logitIdx block : Nat) (cell : BlockStats) : BlockStats :=
  if batch.numSpeculativeSteps ≤ batch.expandedLocalPos logitIdx then cell
  else if batch.temperature (batch.expandedIdxMapping logitIdx) = 0 then greedyBlockStats batch logitIdx block cell
  else sampledBlockStats batch logitIdx block cell

/-- The block statistics that the launch leaves. -/
noncomputable def blockStats (fresh : Nat → Nat → BlockStats) (logitIdx block : Nat) : BlockStats :=
  if logitIdx < batch.numLogits ∧ block < batch.vocabNumBlocks then
    computeBlockStatsKernel batch logitIdx block (fresh logitIdx block)
  else fresh logitIdx block

/-- A draft of a greedy row in `_rejection_kernel`. -/
noncomputable def greedyStep (stats : Nat → Nat → BlockStats) (reqIdx : Nat) (state : Verification) (i : Nat) :
    Verification :=
  let logitIdx := batch.cuNumLogits reqIdx + i
  let draftSampled := batch.draftSampled (logitIdx + 1)
  let argmax := targetArgmax batch (stats logitIdx)
  let accepted : Bool :=
    match batch.syntheticConditionalRates with
    | some rates => decide (tlRand64 draws (batch.seed (batch.idxMapping reqIdx)) (batch.pos logitIdx) < rates i)
    | none => decide (argmax = draftSampled)
  { state with
    rejectedStep := if accepted then state.rejectedStep + 1 else state.rejectedStep
    accepted := accepted
    sampled := Function.update state.sampled i (if accepted then draftSampled else argmax) }

/-- A turn of the loop of `_rejection_kernel`. -/
noncomputable def rejectionStep (stats : Nat → Nat → BlockStats) (reqIdx : Nat) (state : Verification) (i : Nat) :
    Verification :=
  if state.accepted then
    if batch.temperature (batch.idxMapping reqIdx) = 0 then greedyStep batch draws stats reqIdx state i
    else sampledStep batch draws stats reqIdx state i
  else state

/-- `_rejection_kernel` for a request. -/
noncomputable def rejectionKernel (stats : Nat → Nat → BlockStats) (sampled : Nat → Int) (reqIdx : Nat) : Verification :=
  (List.range (batch.numDrafts reqIdx)).foldl (rejectionStep batch draws stats reqIdx)
    { rejectedStep := 0, targetLse := .real 0, draftLse := .real 0, accepted := true, sampled := sampled }

/-- The sampled tokens of a request and their number. -/
structure Verdict where
  sampled : Nat → Int
  numSampled : Nat

/-- `rejection_sample` for a request. -/
noncomputable def rejectionSample (fresh : Fresh) (reqIdx : Nat) : Verdict :=
  let stats := blockStats batch fresh.stats
  let verified := rejectionKernel batch draws stats (fresh.sampled reqIdx) reqIdx
  let resampled := drawnBlocks batch draws verified.rejectedStep verified.targetLse verified.draftLse reqIdx
    (fresh.resampled reqIdx)
  { sampled := insertSampled batch resampled reqIdx verified.rejectedStep verified.sampled
    numSampled := verified.rejectedStep + 1 }

end DgxSpark.Spec.Stock

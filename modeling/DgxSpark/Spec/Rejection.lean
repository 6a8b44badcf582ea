import DgxSpark.Spec.Verification

/-
This file embeds `rejection_sampler_utils.py` of the overlay: the block statistics with the runner-up, the
bounded-lossy greedy rule, the insertion of the resampled token and `rejection_sample`.
-/

namespace DgxSpark.Spec
open DgxSpark.Library ExactFloat

def LOSSY_OFF : ℝ := -1

/-- The optional arguments of `rejection_sample`. A floor is a real number or `-inf`. -/
structure LossySettings where
  lossyMargin : Option (Nat → ℝ)
  lossyMinLogp : Option (Nat → WithBot ℝ)
  stopIds : Option (List Int)
  lossyScope : Option (Nat → Int)
  thinkState : Option (Nat → Int)
  thinkIds : Int × Int

namespace LossySettings

variable (settings : LossySettings)

def margin (reqStateIdx : Nat) : ℝ := settings.lossyMargin.elim LOSSY_OFF fun margins => margins reqStateIdx

def minLogp (reqStateIdx : Nat) : WithBot ℝ := settings.lossyMinLogp.elim ⊥ fun floors => floors reqStateIdx

def scope (reqStateIdx : Nat) : Int := settings.lossyScope.elim 0 fun scopes => scopes reqStateIdx

def initialThink (reqStateIdx : Nat) : Int := settings.thinkState.elim 0 fun states => states reqStateIdx

end LossySettings

/-- `pad_stop_ids`. -/
def padStopIds (stopIds : Option (List Int)) : List Int :=
  match stopIds with
  | none => List.replicate 8 (-1)
  | some [] => List.replicate 8 (-1)
  | some stops => stops ++ List.replicate (max 8 (nextPowerOf2 stops.length) - stops.length) (-1)

/-- The think state after a committed token. -/
def markThink (thinkIds : Int × Int) (inThink committed : Int) : Int :=
  if committed = thinkIds.1 then 1 else if committed = thinkIds.2 then 0 else inThink

/-- A floor as a number. -/
def floorOf : WithBot ℝ → ExactFloat
  | ⊥ => .negInf
  | (floor : ℝ) => .real floor

/-- The block statistics with the runner-up of the block. -/
structure LossyBlockStats extends BlockStats where
  targetLocalSecond : ExactFloat

/-- The variables of the loop with those of the lossy rule. -/
structure LossyVerification extends Verification where
  relaxedStep : Nat
  inThink : Int

variable (batch : VerificationBatch) (draws : Draws) (settings : LossySettings)

/-- `_compute_block_stats_kernel` at a block of a row. -/
noncomputable def computeBlockStatsKernel (logitIdx block : Nat) (cell : LossyBlockStats) : LossyBlockStats :=
  let reqStateIdx := batch.expandedIdxMapping logitIdx
  if batch.numSpeculativeSteps ≤ batch.expandedLocalPos logitIdx then cell
  else if batch.temperature reqStateIdx = 0 then
    let greedy := { cell with toBlockStats := greedyBlockStats batch logitIdx block cell.toBlockStats }
    if 0 ≤ settings.margin reqStateIdx then
      let targetLogits := batch.targetBlock logitIdx VOCAB_BLOCK_SIZE block
      let idx := argmaxOf targetLogits
      { greedy with
        targetLocalSecond := maxOf ((List.range VOCAB_BLOCK_SIZE).map fun lane =>
          if lane = idx then .negInf else targetLogits.getD lane .negInf)
        targetLocalSumexp := (computeBlockMaxAndSumexp targetLogits).2 }
    else greedy
  else { cell with toBlockStats := sampledBlockStats batch logitIdx block cell.toBlockStats }

/-- The block statistics that the launch leaves. -/
noncomputable def blockStats (fresh : Fresh) (logitIdx block : Nat) : LossyBlockStats :=
  let cell := { toBlockStats := fresh.stats logitIdx block, targetLocalSecond := fresh.targetLocalSecond logitIdx block }
  if logitIdx < batch.numLogits ∧ block < batch.vocabNumBlocks then
    computeBlockStatsKernel batch settings logitIdx block cell
  else cell

/-- The largest logit of a row without its argmax, from the blocks. -/
noncomputable def runnerUp (stats : Nat → LossyBlockStats) : ExactFloat :=
  let padded := nextPowerOf2 batch.vocabNumBlocks
  let targetLocalMax := loadTargetLocalMax batch fun block => (stats block).toBlockStats
  let maxTargetBlockIdx := argmaxOf targetLocalMax
  let targetLocalSecond := loadBlocks batch.vocabNumBlocks padded (fun block => (stats block).targetLocalSecond) .negInf
  maxOf ((List.range padded).map fun block =>
    if block = maxTargetBlockIdx then targetLocalSecond.getD block .negInf else targetLocalMax.getD block .negInf)

/-- The bounded-lossy rule for a draft of a row. -/
noncomputable def relaxedRule (stats : Nat → LossyBlockStats) (reqStateIdx logitIdx : Nat) (inThink draftSampled : Int) :
    Bool :=
  let exactStats := fun block => (stats block).toBlockStats
  let argmax := targetArgmax batch exactStats
  let targetLogit := ExactFloat.real (batch.targetLogit logitIdx draftSampled)
  let targetMax := maxOf (loadTargetLocalMax batch exactStats)
  let stopIds := padStopIds settings.stopIds
  let draftStops := (stopIds.map fun stop => if stop = draftSampled then 1 else 0).sum
  let argmaxStops := (stopIds.map fun stop => if stop = argmax then 1 else 0).sum
  let relaxed := decide (draftSampled ≠ argmax) && decide (AtLeast targetLogit (runnerUp batch stats)) &&
    decide (AtLeast (.real (settings.margin reqStateIdx)) (targetMax.sub targetLogit)) &&
    draftStops == 0 && argmaxStops == 0 && (settings.scope reqStateIdx == 0 || inThink == 1)
  let minLogp := floorOf (settings.minLogp reqStateIdx)
  if Greater minLogp .negInf then
    let lse := computeGlobalLse (fun block => (stats block).targetLocalMax) (fun block => (stats block).targetLocalSumexp)
      batch.vocabNumBlocks (nextPowerOf2 batch.vocabNumBlocks)
    relaxed && decide (AtLeast (targetLogit.sub lse) minLogp)
  else relaxed

/-- A draft of a greedy row in `_rejection_kernel`. -/
noncomputable def greedyStep (stats : Nat → Nat → LossyBlockStats) (reqIdx : Nat) (state : LossyVerification) (i : Nat) :
    LossyVerification :=
  let reqStateIdx := batch.idxMapping reqIdx
  let logitIdx := batch.cuNumLogits reqIdx + i
  let draftSampled := batch.draftSampled (logitIdx + 1)
  let argmax := targetArgmax batch fun block => (stats logitIdx block).toBlockStats
  match batch.syntheticConditionalRates with
  | some rates =>
      let accepted := decide (tlRand64 draws (batch.seed reqStateIdx) (batch.pos logitIdx) < rates i)
      { state with
        rejectedStep := if accepted then state.rejectedStep + 1 else state.rejectedStep
        accepted := accepted
        sampled := Function.update state.sampled i (if accepted then draftSampled else argmax) }
  | none =>
      let exact := decide (argmax = draftSampled)
      let relaxed :=
        if 0 ≤ settings.margin reqStateIdx then
          relaxedRule batch settings (stats logitIdx) reqStateIdx logitIdx state.inThink draftSampled
        else decide (draftSampled < 0)
      let accepted := exact || relaxed
      let committed := if accepted then draftSampled else argmax
      { state with
        rejectedStep := if accepted then state.rejectedStep + 1 else state.rejectedStep
        accepted := accepted
        sampled := Function.update state.sampled i committed
        relaxedStep := if relaxed then state.relaxedStep + 1 else state.relaxedStep
        inThink := markThink settings.thinkIds state.inThink committed }

/-- A turn of the loop of `_rejection_kernel`. -/
noncomputable def rejectionStep (stats : Nat → Nat → LossyBlockStats) (reqIdx : Nat) (state : LossyVerification)
    (i : Nat) : LossyVerification :=
  if state.accepted then
    if batch.temperature (batch.idxMapping reqIdx) = 0 then greedyStep batch draws settings stats reqIdx state i
    else
      { state with
        toVerification :=
          sampledStep batch draws (fun row block => (stats row block).toBlockStats) reqIdx state.toVerification i }
  else state

/-- `_rejection_kernel` for a request. -/
noncomputable def rejectionKernel (stats : Nat → Nat → LossyBlockStats) (thinkState : Nat → Int) (sampled : Nat → Int)
    (reqIdx : Nat) : LossyVerification :=
  (List.range (batch.numDrafts reqIdx)).foldl (rejectionStep batch draws settings stats reqIdx)
    { rejectedStep := 0, targetLse := .real 0, draftLse := .real 0, accepted := true, sampled := sampled,
      relaxedStep := 0, inThink := thinkState (batch.idxMapping reqIdx) }

/-- The stores of `_insert_resampled_kernel` to the think state: only a bonus token is new to it. -/
noncomputable def insertThink (cells : Nat → ResampledBlock) (thinkState : Nat → Int) (reqIdx rejectedStep : Nat) :
    List (Nat × Int) :=
  let tokenIdx := batch.cuNumLogits reqIdx + rejectedStep
  let reqStateIdx := batch.expandedIdxMapping tokenIdx
  maskedStore (tokenIdx + 1 = batch.cuNumLogits (reqIdx + 1)) reqStateIdx
    (markThink settings.thinkIds (thinkState reqStateIdx) (insertedToken batch cells))

/-- What `rejection_sample` returns, by request, and the think state it leaves, by slot. -/
structure Verdicts where
  sampled : Nat → Nat → Int
  numSampled : Nat → Nat
  numRelaxed : Nat → Nat
  thinkState : Nat → Int

/-- `rejection_sample`. -/
noncomputable def rejectionSample (fresh : Fresh) : Verdicts :=
  let stats := blockStats batch settings fresh
  let verified := fun reqIdx =>
    rejectionKernel batch draws settings stats settings.initialThink (fresh.sampled reqIdx) reqIdx
  let verifiedThink := storeAll settings.initialThink
    ((List.range batch.numReqs).map fun reqIdx => (batch.idxMapping reqIdx, (verified reqIdx).inThink))
  let resampled := fun reqIdx =>
    drawnBlocks batch draws (verified reqIdx).rejectedStep (verified reqIdx).targetLse (verified reqIdx).draftLse reqIdx
      (fresh.resampled reqIdx)
  { sampled := fun reqIdx =>
      insertSampled batch (resampled reqIdx) reqIdx (verified reqIdx).rejectedStep (verified reqIdx).sampled
    numSampled := fun reqIdx => (verified reqIdx).rejectedStep + 1
    numRelaxed := fun reqIdx => (verified reqIdx).relaxedStep
    thinkState := storeAll verifiedThink ((List.range batch.numReqs).flatMap fun reqIdx =>
      insertThink batch settings (resampled reqIdx) verifiedThink reqIdx (verified reqIdx).rejectedStep) }

end DgxSpark.Spec

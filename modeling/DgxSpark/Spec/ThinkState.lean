import DgxSpark.Library.OrderedDict
import DgxSpark.Library.Run
import DgxSpark.Spec.Committed

/-
This file embeds the lossy controls and the think state of `states.py`, and the turns of the worker that read and
write them: admission with the staged writes, plain sampling and verification.
Numbers are exact reals; the sampled tokens of the plain sampler and the logits of a verification are any.
-/

namespace DgxSpark.Spec
open DgxSpark.Library

/-- What a boot sets: the think markers, the tokens that are never relaxed and the number of request slots. -/
structure LossyBoot where
  thinkIds : Int × Int
  stopIds : List Int
  maxNumReqs : Nat

/-- A value of `extra_args`: a finite number that is no `bool`, or anything else. -/
inductive Json where
  | number (value : ℝ)
  | other

/-- The sampling parameters that the controls read. -/
structure SamplingParams where
  temperature : ℝ
  /-- The seed, drawn where the request gives none. -/
  seed : Int
  structuredOutputs : Bool
  logitBias : Bool
  allowedTokenIds : Bool
  badWords : Bool
  presencePenalty : ℝ
  frequencyPenalty : ℝ
  repetitionPenalty : ℝ
  specLossyMargin : Option Json
  specLossyRank : Option Json
  specLossyMinP : Option Json
  specLossyScope : Option String

def LOSSY_MAX_MARGIN : ℝ := 5

noncomputable def LOSSY_MAX_MIN_P : ℝ := 1 / 2

/-- `_number`. -/
def Json.number? : Json → Option ℝ
  | .number value => some value
  | .other => none

namespace SamplingParams

variable (samplingParams : SamplingParams)

def lossyScope : Int := if samplingParams.specLossyScope.getD "all" = "think" then 1 else 0

/-- The greedy requests without constraints, which alone may be relaxed. -/
def Plain : Prop :=
  samplingParams.temperature = 0 ∧ samplingParams.structuredOutputs = false ∧ samplingParams.logitBias = false ∧
    samplingParams.allowedTokenIds = false ∧ samplingParams.badWords = false ∧ samplingParams.presencePenalty = 0 ∧
    samplingParams.frequencyPenalty = 0 ∧ samplingParams.repetitionPenalty = 1

open Classical in
/-- `lossy_controls`: the margin and the logarithm of the smallest probability. -/
noncomputable def lossyControls : ℝ × WithBot ℝ :=
  let off := (LOSSY_OFF, (⊥ : WithBot ℝ))
  match samplingParams.specLossyMargin.bind Json.number? with
  | none => off
  | some margin =>
      if ¬(0 < margin ∧ margin ≤ LOSSY_MAX_MARGIN) then off
      else if (samplingParams.specLossyRank.getD (.number 2)).number? ≠ some 2 then off
      else
        match (samplingParams.specLossyMinP.getD (.number 0)).number? with
        | none => off
        | some minP =>
            if ¬(0 ≤ minP ∧ minP < LOSSY_MAX_MIN_P) ∨ ¬samplingParams.Plain then off
            else (margin, if 0 < minP then ((Real.log minP : ℝ) : WithBot ℝ) else ⊥)

end SamplingParams

/-- The think state that a marker leaves; other tokens leave it as it is. -/
def markOf (thinkIds : Int × Int) (tok : Int) : Option Int :=
  if tok = thinkIds.1 then some 1 else if tok = thinkIds.2 then some 0 else none

/-- The state that the last marker of some tokens leaves. -/
def lastMark (thinkIds : Int × Int) (tokens : List Int) : Option Int := tokens.reverse.findSome? (markOf thinkIds)

/-- `initial_think_state`: the last marker among the trailing 64 tokens decides. -/
def initialThinkState (thinkIds : Int × Int) (tokenIds : List Int) : Int :=
  (lastMark thinkIds (tokenIds.drop (tokenIds.length - 64))).getD 0

/-- A host array and the device tensor that its copies go to. -/
structure UvaBackedTensor (Value : Type) where
  np : Nat → Value
  gpu : Nat → Value

namespace UvaBackedTensor

variable {Value : Type}

def filled (value : Value) : UvaBackedTensor Value := ⟨fun _ => value, fun _ => value⟩

def stage (tensor : UvaBackedTensor Value) (idx : Nat) (value : Value) : UvaBackedTensor Value :=
  { tensor with np := Function.update tensor.np idx value }

def copyToUva (tensor : UvaBackedTensor Value) : UvaBackedTensor Value := { tensor with gpu := tensor.np }

end UvaBackedTensor

/-- `SamplingStates`; the slot past the last one absorbs masked rows of the think state. -/
structure SamplingStates where
  temperature : UvaBackedTensor ℝ
  seeds : UvaBackedTensor Int
  lossyMargin : UvaBackedTensor ℝ
  lossyMinLogp : UvaBackedTensor (WithBot ℝ)
  lossyScope : UvaBackedTensor Int
  thinkState : UvaBackedTensor Int

namespace SamplingStates

def init : SamplingStates where
  temperature := .filled 0
  seeds := .filled 0
  lossyMargin := .filled LOSSY_OFF
  lossyMinLogp := .filled ⊥
  lossyScope := .filled 0
  thinkState := .filled 0

/-- `add_request` with the lossy switch of the boot on. -/
noncomputable def addRequest (states : SamplingStates) (reqIdx : Nat) (samplingParams : SamplingParams) : SamplingStates :=
  let controls := samplingParams.lossyControls
  { temperature := states.temperature.stage reqIdx samplingParams.temperature
    seeds := states.seeds.stage reqIdx samplingParams.seed
    lossyMargin := states.lossyMargin.stage reqIdx controls.1
    lossyMinLogp := states.lossyMinLogp.stage reqIdx controls.2
    lossyScope := states.lossyScope.stage reqIdx (if 0 ≤ controls.1 then samplingParams.lossyScope else 0)
    thinkState := states.thinkState.stage reqIdx 0 }

def setThinkState (boot : LossyBoot) (states : SamplingStates) (reqIdx : Nat) (tokenIds : List Int) : SamplingStates :=
  { states with thinkState := states.thinkState.stage reqIdx (initialThinkState boot.thinkIds tokenIds) }

def applyStagedWrites (states : SamplingStates) : SamplingStates where
  temperature := states.temperature.copyToUva
  seeds := states.seeds.copyToUva
  lossyMargin := states.lossyMargin.copyToUva
  lossyMinLogp := states.lossyMinLogp.copyToUva
  lossyScope := states.lossyScope.copyToUva
  thinkState := states.thinkState.copyToUva

/-- `advance_think_state` over the rows of a batch: their slots, -1 for a masked row, and their tokens. -/
def advanceThinkState (boot : LossyBoot) (thinkState : Nat → Int) (rows : List (Int × Int)) : Nat → Int :=
  storeAll thinkState (rows.map fun (idx, tok) =>
    let slot := if 0 ≤ idx then idx.toNat else boot.maxNumReqs
    (slot, markThink boot.thinkIds (thinkState slot) tok))

def updateThinkStateFromSampled (boot : LossyBoot) (states : SamplingStates) (rows : List (Int × Int)) : SamplingStates :=
  { states with thinkState :=
      { states.thinkState with gpu := advanceThinkState boot states.thinkState.gpu rows } }

/-- What the rejection sampler reads of the states. -/
def settings (boot : LossyBoot) (states : SamplingStates) : LossySettings where
  lossyMargin := some states.lossyMargin.gpu
  lossyMinLogp := some states.lossyMinLogp.gpu
  stopIds := some boot.stopIds
  lossyScope := some states.lossyScope.gpu
  thinkState := some states.thinkState.gpu
  thinkIds := boot.thinkIds

/-- A batch with the temperatures and the seeds of the states. -/
def batchOf (states : SamplingStates) (batch : VerificationBatch) : VerificationBatch :=
  { batch with temperature := states.temperature.gpu, seed := states.seeds.gpu }

end SamplingStates

/-- A request of the worker, and the tokens that were committed for it since its admission. -/
structure LiveRequest where
  slot : Nat
  samplingParams : SamplingParams
  prefillTokenIds : List Int
  committed : List Int

structure NewRequest where
  reqId : String
  /-- The slot that the worker picks. -/
  slot : Nat
  samplingParams : SamplingParams
  prefillTokenIds : List Int

/-- What is sampled in a turn: a token for each row of a batch without drafts, or the drafts of a batch. -/
inductive Sampling where
  | plain (rows : List (Int × Int))
  | verified (batch : VerificationBatch) (draws : Draws) (fresh : Fresh)

structure Turn where
  finished : List String
  newRequests : List NewRequest
  sampling : Option Sampling

structure Worker where
  states : SamplingStates
  requests : OrderedDict String LiveRequest

namespace Worker

variable (boot : LossyBoot)

def init : Worker := ⟨.init, .empty⟩

/-- The tokens go to the requests by their slots. -/
def commit (worker : Worker) (tokens : Nat → List Int) : Worker :=
  { worker with requests := worker.requests.mapValues fun request =>
      { request with committed := request.committed ++ tokens request.slot } }

/-- A new request of `add_requests` takes a free slot; an older one with its id is removed first. -/
noncomputable def admitRequest (worker : Worker) (new : NewRequest) : Option Worker :=
  let requests := worker.requests.erase new.reqId
  if new.slot < boot.maxNumReqs ∧ ∀ request ∈ requests.values, request.slot ≠ new.slot then
    some {
      states := (worker.states.addRequest new.slot new.samplingParams).setThinkState boot new.slot new.prefillTokenIds
      requests := requests.set new.reqId ⟨new.slot, new.samplingParams, new.prefillTokenIds, []⟩ }
  else none

/-- `finish_requests` and `add_requests`, whose last call applies the staged writes. -/
noncomputable def addRequests (worker : Worker) (turn : Turn) : Option Worker :=
  let finished := { worker with requests := turn.finished.foldl OrderedDict.erase worker.requests }
  (turn.newRequests.foldlM (admitRequest boot) finished).map fun worker =>
    { worker with states := worker.states.applyStagedWrites }

/-- The tokens of the rows of a slot. -/
def rowTokens (rows : List (Int × Int)) (slot : Nat) : List Int :=
  (rows.filter fun row => row.1 = (slot : Int)).map Prod.snd

/-- The sampled tokens of the request of a slot. -/
def verdictTokens (batch : VerificationBatch) (verdicts : Verdicts) (slot : Nat) : List Int :=
  ((List.range batch.numReqs).filter fun reqIdx => batch.idxMapping reqIdx = slot).flatMap fun reqIdx =>
    (List.range (verdicts.numSampled reqIdx)).map (verdicts.sampled reqIdx)

/-- The verdicts of `rejection_sample` on a batch. -/
noncomputable def verdicts (worker : Worker) (batch : VerificationBatch) (draws : Draws) (fresh : Fresh) : Verdicts :=
  rejectionSample (worker.states.batchOf batch) draws (worker.states.settings boot) fresh

/-- `sample`, and every scheduled request commits its sampled tokens. -/
noncomputable def sample (worker : Worker) : Sampling → Worker
  | .plain rows =>
      { worker with states := worker.states.updateThinkStateFromSampled boot rows }.commit (rowTokens rows)
  | .verified batch draws fresh =>
      let verdicts := worker.verdicts boot batch draws fresh
      { worker with states := { worker.states with
          thinkState := { worker.states.thinkState with gpu := verdicts.thinkState } } }.commit
        (verdictTokens batch verdicts)

/-- A turn of the worker. -/
noncomputable def step (worker : Worker) (turn : Turn) : Option Worker :=
  (worker.addRequests boot turn).map fun worker => turn.sampling.elim worker (worker.sample boot)

end Worker

end DgxSpark.Spec

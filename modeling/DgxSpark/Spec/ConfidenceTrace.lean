import Mathlib.Tactic
import DgxSpark.Library.Json
import DgxSpark.Library.OrderedDict
import DgxSpark.Spec.Adaptive

/-
This file models the collector of the confidence trace and shows that each packet pairs a proposal with its own
verification. The request ids, the floats and the scores are of any type.
-/

namespace DgxSpark.ConfidenceTrace

open Adaptive (PyFloat)

def packetLimit : Nat := 128

def packetVersion : Nat := 1

section Eligibility

variable {F : Type} [PyFloat F]

/-- Python equality with an integer. -/
def isNumber (value : Json F) (number : Nat) : Bool :=
  match value with
  | .bool flag => flag.toNat == number
  | .int n => n == number
  | .float x => PyFloat.eq x (PyFloat.ofNat number)
  | _ => false

def truthy : Json F → Bool
  | .null => false
  | .bool flag => flag
  | .int n => n != 0
  | .float x => !PyFloat.eq x (PyFloat.ofNat 0)
  | .str text => !text.isEmpty
  | .list items => !items.isEmpty
  | .object fields => !fields.isEmpty

/-- The attributes of a request or of its parameters that the source reads with `getattr`. -/
abbrev Attributes (F : Type) := OrderedDict String (Json F)

def Attributes.getattr (attributes : Attributes F) (name : String) (default : Json F) : Json F :=
  (attributes.get? name).getD default

structure SamplingParams (F : Type) where
  temperature : Json F
  extraArgs : Option (OrderedDict String (Json F))
  attributes : Attributes F

structure NewRequestData (R F : Type) where
  reqId : R
  samplingParams : Option (SamplingParams F)
  attributes : Attributes F

/-- `type(capture) in (bool, int) and capture == 1`. -/
def wanted : Json F → Bool
  | .bool flag => flag
  | .int n => n == 1
  | _ => false

def requestEligible {R : Type} (data : NewRequestData R F) : Bool :=
  match data.samplingParams with
  | none => false
  | some sp =>
      let xargs := sp.extraArgs.getD OrderedDict.empty
      let capture := (xargs.get? "spec_confidence_trace").getD (.bool true)
      isNumber sp.temperature 0 && wanted capture
        && !truthy (sp.attributes.getattr "structured_outputs" .null)
        && !truthy (data.attributes.getattr "resumable" (.bool false))
        && !truthy (data.attributes.getattr "lora_request" .null)
        && !truthy (data.attributes.getattr "mm_features" .null)
        && isNumber (sp.attributes.getattr "presence_penalty" (.int 0)) 0
        && isNumber (sp.attributes.getattr "frequency_penalty" (.int 0)) 0
        && isNumber (sp.attributes.getattr "repetition_penalty" (.int 1)) 1
        && !truthy (sp.attributes.getattr "allowed_token_ids" .null)
        && !truthy (sp.attributes.getattr "bad_words" .null)
        && !truthy (sp.attributes.getattr "logit_bias" .null)

end Eligibility

section Collector

inductive Dtype where
  | float32
  | int64
  | int32
  | other
deriving DecidableEq

structure Tensor (Element : Type) where
  shape : List Nat
  dtype : Dtype
  item : List Nat → Element

namespace Tensor

variable {Element : Type}

def row (tensor : Tensor Element) (before : List Nat) (count : Nat) : List Element :=
  (List.range count).map fun i => tensor.item (before ++ [i])

/-- The dimension counts are fixed, and each dimension passes its test. -/
def fits (tensor : Tensor Element) (dtype : Dtype) (tests : List (Nat → Bool)) : Bool :=
  tensor.dtype == dtype && tensor.shape.length == tests.length &&
    (tensor.shape.zip tests).all fun (size, test) => test size

end Tensor

/-- The rows of `is_prefilling_np` are the requests of the batch. -/
structure InputBatch (R : Type) where
  numReqs : Nat
  reqIds : List R
  hasStructuredOutputReqs : Bool
  isPrefillingNp : List Bool
  numDraftTokens : Nat
  numTokens : Nat
  positions : Tensor Int
  inputIds : Tensor Int
  rows : isPrefillingNp.length = numReqs

structure Speculator (S : Type) where
  selectorScores : Option (Tensor S)
  samplePos : Option (Tensor Int)
  draftTokens : Option (Tensor Int)

structure Sources (S : Type) where
  realizedScores : List (List S)
  samplePositions : List Int
  draftTokens : List Int
  targetPositions : List Int
  targetTokens : List Int

structure PacketMeta where
  version : Nat
  epoch : Nat
  proposalId : Nat
  proposalWorkerStep : Nat
  verifiedWorkerStep : Nat
  proposalAgeSteps : Nat
  verifiedK : Nat

structure Packet (R S : Type) where
  request : R
  info : PacketMeta
  tensors : Sources S

/-- The state of a tracked request. -/
structure Tracked where
  epoch : Nat
  eligible : Bool
  serial : Nat
  captured : Nat

/-- The record of the last accepted proposal. -/
structure Proposal (R : Type) where
  request : R
  epoch : Nat
  proposalId : Nat
  workerStep : Nat

structure ConfidenceCollector (R : Type) where
  incarnation : Nat
  workerStep : Nat
  requests : OrderedDict R Tracked
  previous : Option (Proposal R)

inductive Call (R F S : Type) where
  | add (data : NewRequestData R F)
  | remove (rid : R)
  | capture (batch : InputBatch R) (speculator : Speculator S)
  | proposed (batch : InputBatch R)

variable {R F S : Type}

theorem InputBatch.prefilling_ne_nil (batch : InputBatch R) (one : batch.numReqs = 1) :
    batch.isPrefillingNp ≠ [] := by
  intro empty
  have none : batch.isPrefillingNp.length = 0 := by rw [empty, List.length_nil]
  rw [batch.rows, one] at none
  exact Nat.one_ne_zero none

/-- The clones of the sources, where the tensors have the shapes and the types that the trace expects. -/
def Speculator.clone (speculator : Speculator S) (batch : InputBatch R) : Option (Sources S) :=
  match speculator.selectorScores, speculator.samplePos, speculator.draftTokens with
  | some scores, some samplePos, some drafts =>
      if scores.fits .float32 [(1 ≤ ·), (· == 7), (· == 16)]
          && samplePos.fits .int64 [(7 ≤ ·)]
          && drafts.fits .int64 [(1 ≤ ·), (· == 7)]
          && batch.positions.fits .int64 [(batch.numTokens ≤ ·)]
          && batch.inputIds.fits .int32 [(batch.numTokens ≤ ·)] then
        some {
          realizedScores := (List.range 7).map fun j => scores.row [0, j] 16
          samplePositions := samplePos.row [] 7
          draftTokens := drafts.row [0] 7
          targetPositions := batch.positions.row [] batch.numTokens
          targetTokens := batch.inputIds.row [] batch.numTokens }
      else
        none
  | _, _, _ => none

namespace ConfidenceCollector

def init : ConfidenceCollector R := ⟨0, 0, OrderedDict.empty, none⟩

variable [DecidableEq R]

def remove (collector : ConfidenceCollector R) (rid : R) : ConfidenceCollector R :=
  { collector with
    requests := collector.requests.erase rid
    previous := collector.previous.filter fun previous => previous.request ≠ rid }

/-- The source of `_owner`. -/
def owner (collector : ConfidenceCollector R) (batch : InputBatch R) : Option (R × Tracked) :=
  if one : collector.requests.entries.length = 1 ∧ batch.numReqs = 1 ∧ batch.reqIds.length = 1 then
    batch.reqIds.head?.bind fun rid =>
      (collector.requests.get? rid).bind fun state =>
        if !state.eligible || packetLimit ≤ state.captured
            || batch.hasStructuredOutputReqs || batch.isPrefillingNp.head (batch.prefilling_ne_nil one.2.1)
            || batch.numDraftTokens ∉ [1, 3, 5, 7]
            || batch.numTokens ≠ batch.numDraftTokens + 1 then
          none
        else
          some (rid, state)
  else
    none

def capture (collector : ConfidenceCollector R) (batch : InputBatch R) (speculator : Speculator S) :
    ConfidenceCollector R × Option (Packet R S) :=
  let stepped := { collector with workerStep := collector.workerStep + 1 }
  let dropped := ({ stepped with previous := none }, none)
  match stepped.owner batch, stepped.previous with
  | some (rid, state), some previous =>
      if previous.request ≠ rid ∨ previous.epoch ≠ state.epoch ∨ previous.workerStep ≠ stepped.workerStep - 1 then
        dropped
      else
        match speculator.clone batch with
        | none => dropped
        | some tensors =>
            ({ stepped with requests := stepped.requests.set rid { state with captured := state.captured + 1 } },
              some {
                request := rid
                info := {
                  version := packetVersion
                  epoch := state.epoch
                  proposalId := previous.proposalId
                  proposalWorkerStep := previous.workerStep
                  verifiedWorkerStep := stepped.workerStep
                  proposalAgeSteps := stepped.workerStep - previous.workerStep
                  verifiedK := batch.numDraftTokens }
                tensors })
  | _, _ => dropped

def proposed (collector : ConfidenceCollector R) (batch : InputBatch R) : ConfidenceCollector R :=
  match collector.owner batch with
  | none => { collector with previous := none }
  | some (rid, state) =>
      { collector with
        requests := collector.requests.set rid { state with serial := state.serial + 1 }
        previous := some ⟨rid, state.epoch, state.serial + 1, collector.workerStep⟩ }

variable [PyFloat F]

def add (collector : ConfidenceCollector R) (data : NewRequestData R F) : ConfidenceCollector R :=
  let removed := collector.remove data.reqId
  { removed with
    incarnation := removed.incarnation + 1
    requests := removed.requests.set data.reqId ⟨removed.incarnation + 1, requestEligible data, 0, 0⟩
    previous := none }

def step (collector : ConfidenceCollector R) : Call R F S → ConfidenceCollector R × Option (Packet R S)
  | .add data => (collector.add data, none)
  | .remove rid => (collector.remove rid, none)
  | .capture batch speculator => collector.capture batch speculator
  | .proposed batch => (collector.proposed batch, none)

end ConfidenceCollector

end Collector

end DgxSpark.ConfidenceTrace

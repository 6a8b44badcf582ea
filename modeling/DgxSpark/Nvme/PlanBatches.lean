import Mathlib.Data.List.Sort
import DgxSpark.Library.Fallible
import DgxSpark.Library.OrderedDict
import DgxSpark.Nvme.Artifact

/-
This file embeds `plan_batches` of `spark_nvme/coalesced.py` and says which plans it makes.
-/

namespace DgxSpark.Nvme

open Library

/-- A tensor of the checkpoint, under the name that is its key. -/
structure TensorInfo (DType : Type) where
  shape : List Nat
  dtype : DType
  bytes : Int
  file : String
  offset : Int

/-- What `stamp` reads of a file. -/
structure Stamp where
  device : Int
  inode : Int
  size : Int
  modified : Int
  changed : Int
deriving DecidableEq

structure Metadata (DType : Type) where
  tensors : OrderedDict String (TensorInfo DType)
  stamps : OrderedDict String Stamp

abbrev Row (DType : Type) := String × TensorInfo DType

structure Batch (DType : Type) where
  file : String
  start : Int
  stop : Int
  tensors : List (Row DType)

def Batch.bytes {DType : Type} (batch : Batch DType) : Int := batch.stop - batch.start

inductive PlanError where
  | value (text : String)
  | unsupported (text : String)
  | key (path : String)
deriving DecidableEq

/-- The batches so far, and the one that is being filled. -/
structure Plan (DType : Type) where
  batches : List (Batch DType)
  current : List (Row DType)
  start : Int
  stop : Int

variable {DType : Type}

/-- The end of a tensor in its file. -/
def TensorInfo.stop (info : TensorInfo DType) : Int := info.offset + info.bytes

/-- The batch that `current` makes. -/
def Plan.pending (plan : Plan DType) (path : String) : Batch DType := ⟨path, plan.start, plan.stop, plan.current⟩

/-- A batch that would outgrow its size is closed before the next tensor. -/
def Plan.flush (plan : Plan DType) (path : String) (batchBytes : Int) (info : TensorInfo DType) : Plan DType :=
  if plan.current ≠ [] ∧ info.offset + info.bytes - plan.start > batchBytes then
    { plan with batches := plan.batches ++ [plan.pending path], current := [] }
  else plan

/-- The first tensor of a batch sets its start. -/
def Plan.take (plan : Plan DType) (row : Row DType) : Plan DType :=
  { plan with
    start := if plan.current = [] then row.2.offset / ALIGN * ALIGN else plan.start
    stop := row.2.offset + row.2.bytes
    current := plan.current ++ [row] }

def planRow (path : String) (size batchBytes : Int) (plan : Plan DType) (row : Row DType) :
    Except PlanError (Plan DType) :=
  let info := row.2
  if ¬(0 ≤ info.offset ∧ info.offset < info.offset + info.bytes ∧ info.offset + info.bytes ≤ size) then
    .error (.value "tensor range outside checkpoint")
  else if plan.current ≠ [] ∧ info.offset < plan.stop then .error (.value "overlapping checkpoint tensors")
  else .ok ((plan.flush path batchBytes info).take row)

/-- The rows of a file, sorted by their offset. -/
def sortRows (rows : List (Row DType)) : List (Row DType) :=
  rows.insertionSort fun first second => first.2.offset ≤ second.2.offset

def planFile (stamps : OrderedDict String Stamp) (batchBytes : Int) (batches : List (Batch DType))
    (entry : String × List (Row DType)) : Except PlanError (List (Batch DType)) :=
  match stamps.get? entry.1 with
  | none => .error (.key entry.1)
  | some stamp => do
      let plan ← (sortRows entry.2).foldlM (planRow entry.1 stamp.size batchBytes) ⟨batches, [], 0, 0⟩
      pure (if plan.current = [] then plan.batches else plan.batches ++ [plan.pending entry.1])

section Collect

variable (elementSize : DType → Nat)

/-- One tensor of the first loop: an empty one is passed over, the others go to the list of their file. -/
def collectRow (byFile : OrderedDict String (List (Row DType))) (row : Row DType) :
    Except PlanError (OrderedDict String (List (Row DType))) :=
  if row.2.bytes = 0 then .ok byFile
  else if row.2.offset % elementSize row.2.dtype ≠ 0 then
    .error (.unsupported "unaligned tensor encoding needs native reconstruction")
  else
    match byFile.get? row.2.file with
    | none => .error (.key row.2.file)
    | some rows => .ok (byFile.set row.2.file (rows ++ [row]))

/-- Every file of the checkpoint with an empty list. -/
def noRows (stamps : OrderedDict String Stamp) : OrderedDict String (List (Row DType)) where
  entries := stamps.entries.map fun entry => (entry.1, [])
  nodup := by
    rw [List.map_map]
    exact stamps.nodup

def planBatches (metadata : Metadata DType) (batchBytes : Int) : Except PlanError (List (Batch DType)) :=
  if batchBytes < ALIGN ∨ batchBytes % ALIGN ≠ 0 then
    .error (.value "batch size must be a positive 4096 multiple")
  else do
    let byFile ← metadata.tensors.entries.foldlM (collectRow elementSize) (noRows metadata.stamps)
    byFile.entries.foldlM (planFile metadata.stamps batchBytes) []

end Collect

end DgxSpark.Nvme

import DgxSpark.Library.CopyStream
import DgxSpark.Nvme.Coverage
import DgxSpark.Nvme.RangeReader

/-
This file embeds `read_exact` and `stream` of `spark_nvme/transport.py` and `restore` of `spark_nvme/artifact.py`:
the main thread, the reads in their slots and the copies of the device take their steps in any order.
-/

namespace DgxSpark.Nvme
open Library

/-- A byte view of a storage: where it starts and how long it is, and the device of the storage. -/
structure Destination where
  storage : Nat
  start : Nat
  numel : Nat
  device : Nat
deriving DecidableEq

structure Extent where
  offset : Int
  length : Int
  digest : String
  destination : Destination
deriving DecidableEq

/-- A storage of the model: its bytes and its device. -/
structure Storage where
  numel : Nat
  device : Nat

/-- The slice of a storage that a chunk names; it ends with the storage at the latest. -/
def extentOf (storages : List Storage) (chunk : Chunk) : Extent :=
  -- `inspect` has checked the index.
  let storage := (storages[chunk.storage.toNat]?).getD ⟨0, 0⟩
  let start := min chunk.start.toNat storage.numel
  let stop := min (chunk.start + chunk.length).toNat storage.numel
  ⟨chunk.offset, chunk.length, chunk.sha256, ⟨chunk.storage.toNat, start, stop - start, storage.device⟩⟩

inductive StreamError where
  | value (text : String)
  | eof (offset : Int)
  | os
  | artifact (error : ArtifactError)
deriving DecidableEq

/-- The arguments of `stream`. Only a `cuda` device copies on its own. -/
structure StreamSetup where
  chunkBytes : Int
  depth : Int
  direct : Bool
  cuda : Nat → Bool

/-- The read of a slot, by the place of its extent in the list. -/
inductive ReadTask where
  | free
  | submitted (index : Nat)
  | reading (index done : Nat)
  | finished (index : Nat) (failure : Option StreamError)
deriving DecidableEq

/-- No read of the slot is under way. -/
def ReadTask.Over : ReadTask → Prop
  | .free => True
  | .submitted _ => False
  | .reading _ _ => False
  | .finished _ _ => True

instance : DecidablePred ReadTask.Over := fun task => by
  cases task <;> unfold ReadTask.Over <;> infer_instance

/-- Where the main thread stands. -/
inductive StreamPoint where
  | opening
  | submitting (slot : Nat)
  | collecting
  | unwinding (error : StreamError)
  | returned
  | raised (error : StreamError)
deriving DecidableEq

structure Stream where
  point : StreamPoint
  /-- How many extents were taken from the list. -/
  taken : Nat
  buffers : Nat → Buffer UInt8
  tasks : Nat → ReadTask
  copies : CopyStream Nat Nat
  memory : Nat → Buffer UInt8
  /-- The extents that were copied to their destinations, in order. -/
  copied : List Nat

inductive StreamAction where
  | opened (ok : Bool)
  | submit
  | wake (slot : Nat)
  | preadv (slot : Nat) (answer : PreadvAnswer)
  | hash (slot : Nat)
  | collect (slot : Nat)
  | copy
  | unwind

namespace Stream

variable (setup : StreamSetup) (extents : List Extent) (weights : List UInt8) (sha256 : List UInt8 → String)

/-- `stream` up to the opening of the file. -/
def start (buffers memory : Nat → Buffer UInt8) : Stream where
  point :=
    if setup.chunkBytes ≤ 0 ∨ setup.chunkBytes % ALIGN ≠ 0 ∨ ¬(1 ≤ setup.depth ∧ setup.depth ≤ 128) then
      .raised (.value "chunk_bytes must be a positive 4096 multiple; depth 1..128")
    else if extents = [] then .returned
    else .opening
  taken := 0
  buffers := buffers
  tasks := fun _ => .free
  copies := .idle
  memory := memory
  copied := []

/-- The device of the first extent. -/
def device : Nat := (extents.head?.map (·.destination.device)).getD 0

/-- `next_extent` and the submission of its read. -/
def submitNext (state : Stream) (slot : Nat) : Stream :=
  if state.taken < extents.length then
    { state with taken := state.taken + 1, tasks := Function.update state.tasks slot (.submitted state.taken) }
  else state

/-- The check of an extent before its read. -/
def checkExtent (extent : Extent) : Bool :=
  extent.offset % ALIGN = 0 ∧ 0 < extent.length ∧ extent.length ≤ setup.chunkBytes

/-- The call of `preadv` into the slot's view. -/
def preadvCall (extent : Extent) (done : Nat) : PreadvCall where
  direct := setup.direct
  buffer := done
  length := (align extent.length).toNat - done
  offset := extent.offset + done

/-- The bytes of an extent in its slot. -/
def data (state : Stream) (slot : Nat) (extent : Extent) : List UInt8 :=
  (state.buffers slot).read 0 extent.length.toNat

/-- The bytes of a slot go to the destination of an extent. -/
def deliver (state : Stream) (slot index : Nat) (extent : Extent) : Stream :=
  { state with
    memory := Function.update state.memory extent.destination.storage
      ((state.memory extent.destination.storage).write extent.destination.start (state.data slot extent))
    copied := state.copied ++ [index] }

/-- A good result is copied, on a `cuda` device later, and the slot gets its next read. -/
def accept (state : Stream) (slot index : Nat) (extent : Extent) : Stream :=
  if extent.destination.numel ≠ extent.length then
    { state with point := .unwinding (.value "destination must be an exact byte view") }
  else if extent.destination.device ≠ device extents then
    { state with point := .unwinding (.value "mixed destination devices") }
  else if setup.cuda (device extents) then
    submitNext extents { state with copies := state.copies.submit slot index } slot
  else submitNext extents (state.deliver slot index extent) slot

def step (state : Stream) : StreamAction → Option Stream
  | .opened ok =>
      if state.point = .opening then
        some { state with point := if ok then .submitting 0 else .raised .os }
      else none
  | .submit =>
      match state.point with
      | .submitting slot =>
          if slot < setup.depth.toNat then
            some { (submitNext extents state slot) with point := .submitting (slot + 1) }
          else some { state with point := .collecting }
      | _ => none
  | .wake slot =>
      match state.tasks slot with
      | .submitted index => do
          let extent ← extents[index]?
          guard (state.copies.Reached (state.copies.event slot))
          let task : ReadTask :=
            if checkExtent setup extent then .reading index 0
            else .finished index (some (.value "invalid aligned extent"))
          return { state with tasks := Function.update state.tasks slot task }
      | _ => none
  | .preadv slot answer =>
      match state.tasks slot with
      | .reading index done => do
          let extent ← extents[index]?
          let call := preadvCall setup extent done
          guard (done < align extent.length ∧ call.Legal weights answer)
          let task : ReadTask := match answer with
            | .raised => .finished index (some .os)
            | .count 0 _ => .finished index (some (.eof call.offset))
            | .count (n + 1) _ => .reading index (done + (n + 1))
          return { state with
            buffers := Function.update state.buffers slot (Filling.received (state.buffers slot) weights call answer)
            tasks := Function.update state.tasks slot task }
      | _ => none
  | .hash slot =>
      match state.tasks slot with
      | .reading index done => do
          let extent ← extents[index]?
          guard (align extent.length ≤ done)
          let failure : Option StreamError :=
            if sha256 (state.data slot extent) ≠ extent.digest then
              some (.value s!"weight checksum mismatch at {extent.offset}")
            else none
          return { state with tasks := Function.update state.tasks slot (.finished index failure) }
      | _ => none
  | .collect slot =>
      match state.point, state.tasks slot with
      | .collecting, .finished index failure => do
          guard (slot < setup.depth.toNat)
          let extent ← extents[index]?
          let state := { state with tasks := Function.update state.tasks slot .free }
          match failure with
          | some error => return { state with point := .unwinding error }
          | none => return accept setup extents state slot index extent
      | _, _ => none
  | .copy => do
      let ((slot, index), copies) ← state.copies.advance
      let extent ← extents[index]?
      return { (state.deliver slot index extent) with copies := copies }
  | .unwind =>
      match state.point with
      | .collecting =>
          if (∀ slot < setup.depth.toNat, state.tasks slot = .free) ∧ state.copies.waiting = [] then
            some { state with point := .returned }
          else none
      | .unwinding error =>
          if (∀ slot < setup.depth.toNat, (state.tasks slot).Over) ∧ state.copies.waiting = [] then
            some { state with point := .raised error }
          else none
      | _ => none

end Stream

section Restore

variable {Contract Schema State : Type} [DecidableEq Contract] [DecidableEq Schema]

/-- `restore` on a model whose `inventory` is known, up to the opening of the file. -/
def restore (digest : Manifest Contract Schema State → String) (artifact : Artifact Contract Schema State)
    (contract : Contract) (schema : Schema) (storages : List Storage) (depth : Int) (direct : Bool) (cuda : Nat → Bool)
    (buffers memory : Nat → Buffer UInt8) : StreamSetup × List Extent × Stream :=
  let idle (point : StreamPoint) : Stream := ⟨point, 0, buffers, fun _ => .free, .idle, memory, []⟩
  match inspect digest artifact contract with
  | .error error => (⟨0, depth, direct, cuda⟩, [], idle (.raised (.artifact error)))
  | .ok m =>
      let setup : StreamSetup := ⟨m.chunkBytes, depth, direct, cuda⟩
      if schema ≠ m.schema ∨ storages.map (fun storage => (storage.numel : Int)) ≠ m.storageBytes then
        (setup, [], idle (.raised (.value "constructed tensor/alias schema differs from artifact")))
      else
        let extents := m.chunks.map (extentOf storages)
        (setup, extents, Stream.start setup extents buffers memory)

end Restore

end DgxSpark.Nvme

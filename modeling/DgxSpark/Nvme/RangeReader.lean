import DgxSpark.Library.Buffer
import DgxSpark.Library.Grid
import DgxSpark.Library.Run
import DgxSpark.Nvme.PlanCoverage

/-
This file embeds `read_aligned` and `RangeReader` of `spark_nvme/coalesced.py`. The sub-reads of a tile
run at once, each calling `preadv` until it has what it requires.
-/

namespace DgxSpark.Nvme

open Library

/-- The reader after `__init__`. The owner of a slot is where its allocation begins. -/
structure RangeReader where
  tileBytes : Nat
  concurrency : Nat
  direct : Bool
  owners : Fin 2 → Nat

inductive ReaderError where
  | value (text : String)
deriving DecidableEq

namespace RangeReader

def init (concurrency tileBytes memoryLimit : Int) (direct : Bool) (owners : Fin 2 → Nat) :
    Except ReaderError RangeReader :=
  if ¬(1 ≤ concurrency ∧ concurrency ≤ 128) then .error (.value "read concurrency must be 1..128")
  else if min tileBytes ((memoryLimit / 2 - ALIGN) / ALIGN * ALIGN) < ALIGN then
    .error (.value "read budget must fit two aligned host tiles")
  else
    .ok {
      tileBytes := (min tileBytes ((memoryLimit / 2 - ALIGN) / ALIGN * ALIGN)).toNat
      concurrency := concurrency.toNat
      direct := direct
      owners := owners }

/-- Where the tile of a slot begins in memory, behind `(-pointer) % ALIGN` bytes of its allocation. -/
def address (reader : RangeReader) (slot : Fin 2) : Int :=
  reader.owners slot + (-(reader.owners slot : Int)) % ALIGN

/-- A tile of a batch: its position in the output and its length. -/
structure Tile where
  position : Nat
  length : Nat
deriving DecidableEq

/-- The job of a thread: its offset in the tile, the bytes it requires, and the length of its view. -/
structure SubRead where
  offset : Nat
  required : Nat
  length : Nat
deriving DecidableEq

variable {DType : Type}

def tiles (reader : RangeReader) (batch : Batch DType) : List Tile :=
  (rangeStep 0 batch.bytes.toNat reader.tileBytes).map fun position =>
    ⟨position, min reader.tileBytes (batch.bytes.toNat - position)⟩

def sourceOffset (batch : Batch DType) (tile : Tile) : Int := batch.start + tile.position

def quantum (reader : RangeReader) (length : Nat) : Nat :=
  max ALIGN (alignNat ((length + reader.concurrency - 1) / reader.concurrency))

/-- The slice of the slot's view ends with the view at the latest. -/
def subRead (reader : RangeReader) (length offset : Nat) : SubRead :=
  let required := min (reader.quantum length) (length - offset)
  ⟨offset, required, min (alignNat required) (reader.tileBytes - offset)⟩

def subReads (reader : RangeReader) (length : Nat) : List SubRead :=
  (rangeStep 0 length (reader.quantum length)).map (reader.subRead length)

end RangeReader

inductive ReadFailure where
  | eof (offset : Int)
  | os
deriving DecidableEq

/-- A running `read_aligned`; `buffered` tells that the file was opened again without `O_DIRECT`. -/
structure Reading where
  job : RangeReader.SubRead
  done : Nat
  buffered : Bool
  failure : Option ReadFailure

/-- A call of `preadv`: whether its descriptor has `O_DIRECT`, where its buffer begins in the tile and how
long it is, and the offset in the file. -/
structure PreadvCall where
  direct : Bool
  buffer : Nat
  length : Nat
  offset : Int

/-- How a call of `preadv` ends, and whether opening the file again would go well. -/
inductive PreadvAnswer where
  | count (n : Nat) (reopens : Bool)
  | raised

namespace Reading

def start (job : RangeReader.SubRead) : Reading := ⟨job, 0, false, none⟩

/-- The loop goes on while bytes are missing and nothing was raised. -/
def Runs (reading : Reading) : Prop := reading.done < reading.job.required ∧ reading.failure = none

instance (reading : Reading) : Decidable reading.Runs := inferInstanceAs (Decidable (_ ∧ _))

def call (direct : Bool) (source : Int) (reading : Reading) : PreadvCall where
  direct := direct && !reading.buffered
  buffer := reading.job.offset + reading.done
  length := reading.job.length - reading.done
  offset := source + reading.job.offset + reading.done

def after (direct : Bool) (source : Int) (reading : Reading) : PreadvAnswer → Reading
  | .raised => { reading with failure := some .os }
  | .count 0 _ => { reading with failure := some (.eof (reading.call direct source).offset) }
  | .count (n + 1) reopens =>
      let done := reading.done + (n + 1)
      if done < reading.job.required ∧ direct = true ∧ reading.buffered = false then
        if reopens then { reading with done := done, buffered := true }
        else { reading with done := done, failure := some .os }
      else { reading with done := done }

end Reading

/-- `preadv` may be short, but only at the end of the file it reads nothing, and it reads nothing behind it. -/
def PreadvCall.Legal (call : PreadvCall) (file : List UInt8) : PreadvAnswer → Prop
  | .raised => True
  | .count n _ => n ≤ call.length ∧ (n ≠ 0 → call.offset.toNat + n ≤ file.length) ∧
      (n = 0 → (file.length : Int) ≤ call.offset ∨ call.length = 0)

instance (call : PreadvCall) (file : List UInt8) (answer : PreadvAnswer) : Decidable (call.Legal file answer) := by
  cases answer <;> unfold PreadvCall.Legal <;> infer_instance

/-- A tile while its sub-reads run, with the calls of `preadv` so far. -/
structure Filling where
  bytes : Buffer UInt8
  readings : List Reading
  calls : List PreadvCall

namespace Filling

def start (bytes : Buffer UInt8) (jobs : List RangeReader.SubRead) : Filling := ⟨bytes, jobs.map Reading.start, []⟩

/-- What the call has put into the tile. -/
def received (bytes : Buffer UInt8) (file : List UInt8) (call : PreadvCall) : PreadvAnswer → Buffer UInt8
  | .raised => bytes
  | .count n _ => bytes.write call.buffer ((file.drop call.offset.toNat).take n)

variable (file : List UInt8) (direct : Bool) (source : Int)

/-- One of the threads makes its next call. -/
def step (filling : Filling) (action : Nat × PreadvAnswer) : Option Filling :=
  match filling.readings[action.1]? with
  | none => none
  | some reading =>
      let call := reading.call direct source
      if reading.Runs ∧ call.Legal file action.2 then
        some {
          bytes := received filling.bytes file call action.2
          readings := filling.readings.set action.1 (reading.after direct source action.2)
          calls := filling.calls ++ [call] }
      else none

end Filling

end DgxSpark.Nvme

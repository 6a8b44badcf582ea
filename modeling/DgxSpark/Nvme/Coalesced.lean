import DgxSpark.Library.CopyStream
import DgxSpark.Nvme.Prefetch
import DgxSpark.Nvme.RangeReader
import DgxSpark.Nvme.StreamWeights

/-
This file embeds `coalesced_weights` of `spark_nvme/coalesced.py` with its generator `produce` and the reader that fills
the batches. The threads of the pool, the pump, the device and the caller take their steps in any order.
-/

namespace DgxSpark.Nvme.Coalesced

open Library Streaming

/-- `outside` is what the system or the device raises, or what the caller throws in. -/
inductive CoalescedError where
  | valueError (text : String)
  | unsupported (text : String)
  | memoryError (text : String)
  | keyError (path : String)
  | eofError (text : String)
  | runtimeError (text : String)
  | outside
deriving DecidableEq

/-- A file that does not change: what `os.stat` says of it, and its bytes. -/
structure SourceFile where
  stamp : Stamp
  bytes : List UInt8

abbrev Disk := String → Option SourceFile

/-- What a descriptor of the path reads from. -/
def bytesAt (disk : Disk) (path : String) : List UInt8 := ((disk path).map SourceFile.bytes).getD []

/-- The arguments of a call. `abspath` and `elementSize` are those of the system and of the tensors, and `owners` says
where the allocations of the two slots begin. -/
structure CoalescedCall (DType : Type) where
  files : List String
  metadata : Metadata DType
  concurrency : Int
  memoryLimit : Int
  ownedLimit : Int
  batchBytes : Int
  device : Device
  direct : Bool
  skip : String → Bool
  abspath : String → String
  elementSize : DType → Nat
  owners : Fin 2 → Nat

/-- The copy of a tile out of its slot, into the output of a batch. -/
structure Upload where
  batch : Nat
  position : Nat
  length : Nat

/-- `produce` ends after its last batch, by an exception, or when it is closed. -/
inductive Ending where
  | completed
  | failed (error : CoalescedError)
  | cancelled

/-- Where `produce` stands. `fencing` is the head of the loop over the tiles of a batch. -/
inductive SourcePoint where
  | created
  | checking (index : Nat)
  | reserving (index : Nat)
  | opening (index : Nat)
  | fencing (index position : Nat) (finalEvent : Option Nat)
  | reading (slot : Fin 2) (index position : Nat) (finalEvent : Option Nat) (readings : List Reading)
  | yielding (index : Nat) (finalEvent : Option Nat)
  | suspended (index : Nat)
  | closing (ending : Ending)
  | finished (ending : Ending)
  | ended (ending : Ending)

/-- `produce` with its reader. The last fields record the outputs that were allocated, with their bytes, which of them
nothing refers to any more, and the events of the batches that were yielded. -/
structure Source where
  point : SourcePoint
  path : Option String
  nextSlot : Nat
  slots : Fin 2 → Buffer UInt8
  uploads : CopyStream (Fin 2) Upload
  outputs : Nat → Buffer UInt8
  budget : OwnedStorageBudget
  allocated : List (Nat × Int)
  expired : List Nat
  events : List (Option Nat)

inductive SourceAction where
  | resume
  | cancel
  | check
  | reserve (allocated : Bool)
  | enter (opened : Bool)
  | fence
  | preadv (thread : Nat) (answer : PreadvAnswer)
  | collect
  | copy
  | synchronize (done : Bool)
  | expire (output : Nat)

/-- What `produce` yields: the place of the batch, which is also that of its output, and its event. -/
structure Item where
  index : Nat
  event : Option Nat

/-- A slice of an output, and the event that the caller's stream waits for before it. -/
structure View where
  output : Nat
  start : Nat
  length : Nat
  event : Option Nat

/-- What the caller gets for a name. An empty tensor has no view. -/
structure Yielded (DType : Type) where
  name : String
  shape : List Nat
  dtype : DType
  view : Option View

inductive Finish where
  | returned
  | raised (error : CoalescedError)
  | closed

/-- Where the body of `coalesced_weights` stands. -/
inductive Point (DType : Type) where
  | iterating
  | tensors (item : Item) (rows : List (Row DType))
  | yielded (item : Item) (rows : List (Row DType))
  | empties (rows : List (Row DType))
  | yieldedEmpty (rows : List (Row DType))
  | checking
  | closing (finish : Finish)
  | ended (finish : Finish)

/-- The generator, the pump between it and `produce`, and what was handed on: the answers of `produce` to the pump,
what its `close` raised, and what the caller got. -/
structure CoalescedWeights (DType : Type) where
  point : Point DType
  prefetch : Prefetch Item CoalescedError
  source : Source
  complete : Bool
  answers : List (Next Item CoalescedError)
  closeError : Option CoalescedError
  yields : List (Yielded DType)

inductive Action where
  | source (action : SourceAction)
  | pump
  | pumpTimeout
  | joinTimeout
  | main
  | fails
  | resumed
  | closed
  | thrown

variable {DType : Type}

namespace CoalescedCall

def cuda (call : CoalescedCall DType) : Bool :=
  match call.device with
  | .cuda => true
  | _ => false

def known (call : CoalescedCall DType) : Bool :=
  match call.device with
  | .other _ => false
  | _ => true

def planError : PlanError → CoalescedError
  | .value text => .valueError text
  | .unsupported text => .unsupported text
  | .key path => .keyError path

/-- What the call checks before it starts, and its batches. -/
def plan (call : CoalescedCall DType) : Except CoalescedError (List (Batch DType)) :=
  if call.known = false ∨ call.ownedLimit ≤ 0 then .error (.valueError "invalid coalesced device or owned budget")
  else if ¬(call.files.map call.abspath ⊆ call.metadata.stamps.keys ∧
      call.metadata.stamps.keys ⊆ call.files.map call.abspath) then
    .error (.valueError "checkpoint file inventory mismatch")
  else match planBatches call.elementSize call.metadata call.batchBytes with
    | .error error => .error (planError error)
    | .ok batches =>
        if batches.any fun batch => batch.bytes > call.ownedLimit then
          .error (.unsupported "largest batch exceeds owned byte budget")
        else .ok batches

/-- The reader that `produce` makes. -/
def reader (call : CoalescedCall DType) : Except ReaderError RangeReader :=
  RangeReader.init call.concurrency call.batchBytes call.memoryLimit call.direct call.owners

end CoalescedCall

namespace Source

def start (limit : Int) (slots : Fin 2 → Buffer UInt8) (outputs : Nat → Buffer UInt8) : Source where
  point := .created
  path := none
  nextSlot := 0
  slots := slots
  uploads := .idle
  outputs := outputs
  budget := ⟨limit, 0, 0, []⟩
  allocated := []
  expired := []
  events := []

theorem mod_slots (count : Nat) : count % 2 < 2 := Nat.mod_lt count (by decide)

/-- The two slots take turns. -/
def slotOf (count : Nat) : Fin 2 := ⟨count % 2, mod_slots count⟩

/-- The tile of a batch at a position. -/
def tileAt (reader : RangeReader) (batch : Batch DType) (position : Nat) : RangeReader.Tile :=
  ⟨position, min reader.tileBytes (batch.bytes.toNat - position)⟩

def readerError : ReaderError → CoalescedError
  | .value text => .valueError text

def reserveError : Raised → CoalescedError
  | .valueError text => .valueError text
  | .memoryError text => .memoryError text
  | .outside => .outside

def readError : ReadFailure → CoalescedError
  | .eof offset => .eofError ("short checkpoint read at " ++ toString offset)
  | .os => .outside

/-- The bytes of a tile go to the output of its batch. -/
def deliver (slots : Fin 2 → Buffer UInt8) (outputs : Nat → Buffer UInt8) (slot : Fin 2) (upload : Upload) :
    Nat → Buffer UInt8 :=
  Function.update outputs upload.batch
    ((outputs upload.batch).write upload.position ((slots slot).read 0 upload.length))

/-- An exception leaves `produce` through its `finally` block. -/
def fail (state : Source) (error : CoalescedError) : Source := { state with point := .closing (.failed error) }

/-- The output that `produce` refers to. -/
def holds : SourcePoint → Option Nat
  | .opening index => some index
  | .fencing index _ _ => some index
  | .reading _ index _ _ _ => some index
  | .yielding index _ => some index
  | .suspended index => some index
  | _ => none

variable (call : CoalescedCall DType) (disk : Disk) (batches : List (Batch DType))

/-- `next` on a generator that waits. -/
def resume (state : Source) : Option Source :=
  match state.point with
  | .created =>
      match call.reader with
      | .error error => some { state with point := .finished (.failed (readerError error)) }
      | .ok _ => some { state with point := .checking 0 }
  | .suspended index => some { state with point := .checking (index + 1) }
  | _ => none

/-- `close` on a generator that waits. -/
def cancel (state : Source) : Option Source :=
  match state.point with
  | .created => some { state with point := .finished .cancelled }
  | .suspended _ => some { state with point := .closing .cancelled }
  | _ => none

/-- The head of the loop over the batches, with the comparison of the stamps. -/
def check (state : Source) : Option Source :=
  match state.point with
  | .checking index =>
      match batches[index]? with
      | none => some { state with point := .closing .completed }
      | some batch =>
          match disk batch.file, call.metadata.stamps.get? batch.file with
          | none, _ => some (state.fail .outside)
          | some _, none => some (state.fail (.keyError batch.file))
          | some file, some before =>
              if file.stamp ≠ before then some (state.fail (.valueError "checkpoint changed before batch read"))
              else some { state with point := .reserving index }
  | _ => none

/-- `budget.reserve`, the allocation of the output and `budget.track`. -/
def reserve (state : Source) (allocated : Bool) : Option Source :=
  match state.point with
  | .reserving index => do
      let batch ← batches[index]?
      match state.budget.reserve state.expired batch.bytes with
      | .error error => return state.fail (reserveError error)
      | .ok budget =>
          if allocated then
            return { state with
              point := .opening index
              budget := budget.track index batch.bytes
              allocated := state.allocated ++ [(index, batch.bytes)] }
          else return { state with point := .closing (.failed .outside), budget := budget }
  | _ => none

/-- The first lines of `fill`: another file is opened, and the loop over the tiles begins. -/
def enter (state : Source) (opened : Bool) : Option Source :=
  match state.point with
  | .opening index => do
      let batch ← batches[index]?
      if state.path = some batch.file then return { state with point := .fencing index 0 none }
      else if opened ∧ (disk batch.file).isSome then
        return { state with point := .fencing index 0 none, path := some batch.file }
      else return state.fail .outside
  | _ => none

/-- The next slot is free once its event is over, and the sub-reads of the tile are submitted. -/
def fence (state : Source) : Option Source :=
  match state.point with
  | .fencing index position finalEvent => do
      let reader ← call.reader.toOption
      let batch ← batches[index]?
      if position < batch.bytes.toNat then
        let slot := slotOf state.nextSlot
        guard (state.uploads.Reached (state.uploads.event slot))
        return { state with
          point := .reading slot index position finalEvent
            ((reader.subReads (tileAt reader batch position).length).map Reading.start)
          nextSlot := state.nextSlot + 1 }
      else return { state with point := .yielding index finalEvent }
  | _ => none

/-- One of the threads calls `preadv`. -/
def preadv (state : Source) (thread : Nat) (answer : PreadvAnswer) : Option Source :=
  match state.point with
  | .reading slot index position finalEvent readings => do
      let reader ← call.reader.toOption
      let batch ← batches[index]?
      let path ← state.path
      let filling ← Filling.step (bytesAt disk path) call.direct
        (RangeReader.sourceOffset batch (tileAt reader batch position)) ⟨state.slots slot, readings, []⟩ (thread, answer)
      return { state with
        point := .reading slot index position finalEvent filling.readings
        slots := Function.update state.slots slot filling.bytes }
  | _ => none

/-- All sub-reads are over. The first failure is raised, or the tile is copied, on a `cuda` device later. -/
def collect (state : Source) : Option Source :=
  match state.point with
  | .reading slot index position finalEvent readings => do
      let reader ← call.reader.toOption
      let batch ← batches[index]?
      guard (∀ reading ∈ readings, ¬reading.Runs)
      match readings.findSome? Reading.failure with
      | some failure => return state.fail (readError failure)
      | none =>
          let upload : Upload := ⟨index, position, (tileAt reader batch position).length⟩
          if call.cuda then
            let uploads := state.uploads.submit slot upload
            return { state with
              point := .fencing index (position + reader.tileBytes) (uploads.event slot)
              uploads := uploads }
          else return { state with
            point := .fencing index (position + reader.tileBytes) finalEvent
            outputs := deliver state.slots state.outputs slot upload }
  | _ => none

/-- The device makes its next copy. -/
def copy (state : Source) : Option Source := do
  let ((slot, upload), uploads) ← state.uploads.advance
  return { state with uploads := uploads, outputs := deliver state.slots state.outputs slot upload }

/-- `close` of the reader waits for the copies, and raises where the device does. -/
def synchronize (state : Source) (done : Bool) : Option Source :=
  match state.point with
  | .closing ending =>
      if done then
        if call.cuda ∧ state.uploads.waiting ≠ [] then none else some { state with point := .finished ending }
      else if call.cuda then some { state with point := .finished (.failed .outside) } else none
  | _ => none

/-- The last reference to an output is gone. -/
def expire (state : Source) (output : Nat) : Option Source :=
  if output < state.allocated.length ∧ output ∉ state.expired ∧ holds state.point ≠ some output then
    some { state with expired := state.expired ++ [output] }
  else none

def step (state : Source) : SourceAction → Option Source
  | .resume => state.resume call
  | .cancel => state.cancel
  | .check => state.check call disk batches
  | .reserve allocated => state.reserve batches allocated
  | .enter opened => state.enter disk batches opened
  | .fence => state.fence call batches
  | .preadv thread answer => state.preadv call disk batches thread answer
  | .collect => state.collect call batches
  | .copy => state.copy
  | .synchronize done => state.synchronize call done
  | .expire output => state.expire output

/-- What the pump gets from `next`, and the generator after it. -/
def answer (state : Source) : Option (Next Item CoalescedError × Source) :=
  match state.point with
  | .yielding index finalEvent =>
      some (.item ⟨index, finalEvent⟩,
        { state with point := .suspended index, events := state.events ++ [finalEvent] })
  | .finished .completed => some (.stop, { state with point := .ended .completed })
  | .finished (.failed error) => some (.raise error, { state with point := .ended (.failed error) })
  | _ => none

/-- What `close` of the generator raises, and the generator after it. -/
def closed (state : Source) : Option (Option CoalescedError × Source) :=
  match state.point with
  | .finished .cancelled => some (none, { state with point := .ended .cancelled })
  | .finished (.failed error) => some (some error, { state with point := .ended (.failed error) })
  | .ended _ => some (none, state)
  | _ => none

end Source

/-- The producer of one call. -/
def answering (next : Next Item CoalescedError) (closeError : Option CoalescedError) :
    Producer Item CoalescedError := ⟨fun _ => next, closeError⟩

/-- The typed view of a tensor of a batch. A slice ends with the output, and `view` and `reshape` refuse what are not the
elements of the shape. -/
def viewOf (elementSize : DType → Nat) (batch : Batch DType) (item : Item) (row : Row DType) :
    Except CoalescedError (Yielded DType) :=
  let size := batch.bytes.toNat
  let start := min (row.2.offset - batch.start).toNat size
  let stop := min (row.2.offset - batch.start + row.2.bytes).toNat size
  if elementSize row.2.dtype * row.2.shape.prod ≠ stop - start then .error .outside
  else .ok ⟨row.1, row.2.shape, row.2.dtype, some ⟨item.index, start, stop - start, item.event⟩⟩

namespace CoalescedWeights

/-- The outputs that a message or the body refer to. -/
def heldByMessage : Message Item CoalescedError → List Nat
  | .tensor item => [item.index]
  | _ => []

def heldByPump : PumpPoint Item CoalescedError → List Nat
  | .put message => heldByMessage message
  | .offer message => heldByMessage message
  | _ => []

def heldByConsumer : ConsumerPoint Item CoalescedError → List Nat
  | .release message => heldByMessage message
  | .holding item => [item.index]
  | _ => []

def held (state : CoalescedWeights DType) : List Nat :=
  heldByPump state.prefetch.pump ++ ((state.prefetch.ready.map heldByMessage).getD [] ++
    heldByConsumer state.prefetch.consumer)

variable (call : CoalescedCall DType) (disk : Disk) (batches : List (Batch DType))

def start (slots : Fin 2 → Buffer UInt8) (outputs : Nat → Buffer UInt8) : CoalescedWeights DType where
  point := .iterating
  prefetch := .started
  source := .start call.ownedLimit slots outputs
  complete := false
  answers := []
  closeError := none
  yields := []

/-- `produce` is resumed by the `next` of the pump and cancelled by its `close`. -/
def allows (state : CoalescedWeights DType) : SourceAction → Bool
  | .resume =>
      match state.prefetch.pump with
      | .advance => true
      | _ => false
  | .cancel =>
      match state.prefetch.pump with
      | .close _ => true
      | _ => false
  | .expire output => output ∉ state.held
  | _ => true

/-- A step of the pump. At `advance` and `close` the generator answers it. -/
def pump (state : CoalescedWeights DType) : Option (CoalescedWeights DType) :=
  match state.prefetch.pump with
  | .advance => do
      let (next, source) ← state.source.answer
      let prefetch ← Prefetch.pumpStep (answering next none) state.prefetch
      return { state with prefetch := prefetch, source := source, answers := state.answers ++ [next] }
  | .close _ => do
      let (closeError, source) ← state.source.closed
      let prefetch ← Prefetch.pumpStep (answering .stop closeError) state.prefetch
      return { state with prefetch := prefetch, source := source, closeError := closeError }
  | _ => do
      let prefetch ← Prefetch.pumpStep (answering .stop none) state.prefetch
      return { state with prefetch := prefetch }

/-- The generator of `prefetch_weights` runs in the thread of the caller. -/
def consume (state : CoalescedWeights DType) : Option (CoalescedWeights DType) :=
  (Prefetch.consumerStep state.prefetch).map fun prefetch => { state with prefetch := prefetch }

def stuck : CoalescedError := .runtimeError "stream producer failed to stop; abort this worker"

def check (state : CoalescedWeights DType) : CoalescedWeights DType :=
  match call.metadata.stamps.entries.find? fun entry => (disk entry.1).map SourceFile.stamp ≠ some entry.2 with
  | some (path, _) =>
      { state with point := .closing (.raised
          (if (disk path).isNone then .outside else .valueError "checkpoint changed during coalesced streaming")) }
  | none => { state with point := .closing .returned, complete := true }

/-- A step of the body. -/
def main (state : CoalescedWeights DType) : Option (CoalescedWeights DType) :=
  match state.point with
  | .iterating =>
      match state.prefetch.consumer with
      | .holding item => do
          let batch ← batches[item.index]?
          return { state with point := .tensors item batch.tensors }
      | .ended .exhausted => some { state with point := .empties call.metadata.tensors.entries }
      | .ended (.raised error) => some { state with point := .closing (.raised error) }
      | .ended .stuck => some { state with point := .closing (.raised stuck) }
      | .ended .closed => none
      | _ => state.consume
  | .tensors _ [] => do
      let prefetch ← Prefetch.userStep state.prefetch false
      return { state with point := .iterating, prefetch := prefetch }
  | .tensors item (row :: rest) =>
      if call.skip row.1 then some { state with point := .tensors item rest }
      else do
        let batch ← batches[item.index]?
        match viewOf call.elementSize batch item row with
        | .error error => return { state with point := .closing (.raised error) }
        | .ok yielded => return { state with point := .yielded item rest, yields := state.yields ++ [yielded] }
  | .empties [] => some { state with point := .checking }
  | .empties (row :: rest) =>
      if row.2.bytes ≠ 0 ∨ call.skip row.1 then some { state with point := .empties rest }
      else some { state with
        point := .yieldedEmpty rest
        yields := state.yields ++ [⟨row.1, row.2.shape, row.2.dtype, none⟩] }
  | .checking => some (state.check call disk)
  | .closing finish =>
      match state.prefetch.consumer with
      | .holding _ => (Prefetch.userStep state.prefetch true).map fun prefetch => { state with prefetch := prefetch }
      | .ended .stuck => some { state with point := .ended (.raised stuck) }
      | .ended _ => some { state with point := .ended finish }
      | _ => state.consume
  | .yielded _ _ => none
  | .yieldedEmpty _ => none
  | .ended _ => none

/-- The device or the system raises in the body. -/
def fails (state : CoalescedWeights DType) : Option (CoalescedWeights DType) :=
  match state.point with
  | .tensors _ _ | .empties _ | .checking => some { state with point := .closing (.raised .outside) }
  | _ => none

/-- The caller asks for the next tensor. -/
def resumed (state : CoalescedWeights DType) : Option (CoalescedWeights DType) :=
  match state.point with
  | .yielded item rest => some { state with point := .tensors item rest }
  | .yieldedEmpty rest => some { state with point := .empties rest }
  | _ => none

/-- The caller leaves the generator at a `yield`. -/
def leave (state : CoalescedWeights DType) (finish : Finish) : Option (CoalescedWeights DType) :=
  match state.point with
  | .yielded _ _ | .yieldedEmpty _ => some { state with point := .closing finish }
  | _ => none

def step (state : CoalescedWeights DType) : Action → Option (CoalescedWeights DType)
  | .source action =>
      if state.allows action then
        (state.source.step call disk batches action).map fun source => { state with source := source }
      else none
  | .pump => state.pump
  | .pumpTimeout => (Prefetch.pumpTimeout state.prefetch).map fun prefetch => { state with prefetch := prefetch }
  | .joinTimeout => (Prefetch.joinTimeout state.prefetch).map fun prefetch => { state with prefetch := prefetch }
  | .main => state.main call disk batches
  | .fails => state.fails
  | .resumed => state.resumed
  | .closed => state.leave .closed
  | .thrown => state.leave (.raised .outside)

end CoalescedWeights

end DgxSpark.Nvme.Coalesced

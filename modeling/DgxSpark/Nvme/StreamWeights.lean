import DgxSpark.Library.Run
import DgxSpark.Nvme.PlanBatches

/-
This file models `stream_weights` as a machine that the streamer, the consumer and the rest of the process drive. The
streamer may do anything but suppress an exception, and reads of `/proc` succeed.
-/

namespace DgxSpark.Nvme.Streaming

open Library

structure Tensor (DType : Type) where
  shape : List Nat
  dtype : DType
  data : List UInt8

/-- The metadata that `checkpoint_metadata` gives: the byte counts are those of the shapes. -/
structure Checkpoint (DType : Type) extends Metadata DType where
  itemSize : DType → Nat
  sized : ∀ name info, tensors.get? name = some info → info.bytes = itemSize info.dtype * info.shape.prod

/-- `outside` is what the streamer, a copy or the system raises, or what the consumer throws in. -/
inductive Raised where
  | valueError (text : String)
  | memoryError (text : String)
  | outside

inductive Outcome where
  | returned
  | raised (error : Raised)
  | closed

/-- The weak references are those of the storages, by number. -/
structure OwnedStorageBudget where
  limit : Int
  live : Int
  peak : Int
  refs : List (Nat × Int)

namespace OwnedStorageBudget

def collect (budget : OwnedStorageBudget) (expired : List Nat) : OwnedStorageBudget :=
  { budget with
    live := budget.live - ((budget.refs.filter fun ref => ref.1 ∈ expired).map Prod.snd).sum
    refs := budget.refs.filter fun ref => ref.1 ∉ expired }

def reserve (budget : OwnedStorageBudget) (expired : List Nat) (size : Int) : Except Raised OwnedStorageBudget :=
  let collected := budget.collect expired
  if collected.live + size > collected.limit then
    .error (.memoryError "native loader retained streaming tensors beyond owned byte budget")
  else
    .ok collected

def track (budget : OwnedStorageBudget) (storage : Nat) (size : Int) : OwnedStorageBudget :=
  { budget with
    live := budget.live + size
    peak := max budget.peak (budget.live + size)
    refs := budget.refs ++ [(storage, size)] }

def close (budget : OwnedStorageBudget) : OwnedStorageBudget := { budget with refs := [] }

end OwnedStorageBudget

inductive Device where
  | cpu
  | pinned
  | cuda
  | other (name : String)

structure StreamCall (DType : Type) where
  checkpoint : Checkpoint DType
  concurrency : Int
  memoryLimit : Int
  ownedLimit : Int
  device : Device
  skip : String → Bool

abbrev Env := String → Option String

structure Metrics where
  tensors : Nat
  bytes : Int
  emptyTensors : Nat
  skippedTensors : Nat
  peakOwnedBytes : Int
  complete : Bool

/-- Where the generator is. `yielded` is suspended at the `yield` of a copy, whose storage it holds. -/
inductive Point (DType : Type) where
  | start
  | opening
  | entered
  | waiting
  | yielded (storage : Nat)
  | leaving (outcome : Option Outcome)
  | yieldedEmpty (rest : List (Row DType))
  | checking
  | done (outcome : Outcome)

/-- The generator with the environment of the process, and what happened: the environment at the start, what the
streamer delivered, what was yielded, which storages were allocated and have expired, and the stamps at the end. -/
structure StreamWeights (DType : Type) where
  point : Point DType
  budget : OwnedStorageBudget
  metrics : Metrics
  seen : List String
  remaining : String → Int
  previous : List (String × Option String)
  env : Env
  before : Env
  deliveries : List (String × Tensor DType)
  yields : List (String × Tensor DType)
  copies : List (Nat × Int)
  expired : List Nat
  disk : Option (String → Option Stamp)

inductive Event (DType : Type) where
  | begin
  | opened
  | failed
  | delivered (name : String) (tensor : Tensor DType) (advised copied : Bool)
  | exhausted
  | left
  | resumed
  | closed
  | thrown
  | checked (disk : String → Option Stamp)
  | expired (storage : Nat)
  | setenv (key : String) (value : Option String)

variable {DType : Type}

namespace StreamCall

def keys (call : StreamCall DType) : List (String × String) :=
  [("RUNAI_STREAMER_CONCURRENCY", toString call.concurrency), ("RUNAI_STREAMER_MEMORY_LIMIT", toString call.memoryLimit),
    ("RUNAI_STREAMER_DIST", "0")]

/-- What is raised before anything is changed. -/
def refuses (call : StreamCall DType) : Option Raised :=
  if ¬(1 ≤ call.concurrency ∧ call.concurrency ≤ 128) ∨ call.memoryLimit ≤ 0 ∨ call.ownedLimit ≤ 0 then
    some (.valueError "invalid streaming concurrency or memory budget")
  else match call.device with
    | .other _ => some (.valueError "invalid streaming device")
    | _ =>
        match (call.checkpoint.tensors.values.map TensorInfo.bytes).max? with
        | none => some (.valueError "max() iterable argument is empty")
        | some largest =>
            if largest > call.memoryLimit ∨ largest > call.ownedLimit then
              some (.valueError "streaming budgets must accommodate largest checkpoint tensor")
            else none

end StreamCall

/-- `os.environ.pop` or an assignment, key by key. -/
def restoreEnv (previous : List (String × Option String)) (env : Env) : Env :=
  previous.foldl (fun env entry => Function.update env entry.1 entry.2) env

def updateEnv (keys : List (String × String)) (env : Env) : Env :=
  keys.foldl (fun env entry => Function.update env entry.1 (some entry.2)) env

namespace StreamWeights

def init (call : StreamCall DType) (env : Env) : StreamWeights DType where
  point := .start
  budget := ⟨call.ownedLimit, 0, 0, []⟩
  metrics := ⟨0, 0, 0, 0, 0, false⟩
  seen := []
  remaining file := (call.checkpoint.tensors.values.filter fun info => info.bytes ≠ 0 ∧ info.file = file).length
  previous := []
  env := env
  before := env
  deliveries := []
  yields := []
  copies := []
  expired := []
  disk := none

/-- The `finally` block. -/
def finish (state : StreamWeights DType) (outcome : Outcome) : StreamWeights DType :=
  { state with
    point := .done outcome
    metrics := { state.metrics with peakOwnedBytes := state.budget.peak }
    budget := state.budget.close
    env := restoreEnv state.previous state.env }

/-- An exception leaves the `with` block through the streamer's `__exit__`. -/
def raise (state : StreamWeights DType) (error : Raised) : StreamWeights DType :=
  { state with point := .leaving (some (.raised error)) }

def begin (call : StreamCall DType) (state : StreamWeights DType) : StreamWeights DType :=
  match call.refuses with
  | some error => { state with before := state.env, point := .done (.raised error) }
  | none =>
      { state with
        before := state.env
        previous := call.keys.map fun entry => (entry.1, state.env entry.1)
        env := updateEnv call.keys state.env
        point := .opening }

/-- The copy has the shape, the type and the bytes of the delivered tensor on every device. -/
def own (call : StreamCall DType) (state : StreamWeights DType) (info : TensorInfo DType) (tensor : Tensor DType)
    (copied : Bool) : Except Raised (StreamWeights DType × Nat) :=
  (state.budget.reserve state.expired info.bytes).bind fun budget =>
    if copied then
      let storage := state.copies.length
      let nbytes : Int := call.checkpoint.itemSize tensor.dtype * tensor.shape.prod
      .ok ({ state with budget := budget.track storage nbytes, copies := state.copies ++ [(storage, nbytes)] }, storage)
    else
      .error .outside

/-- The tensor is counted in, and the payload of a finished file leaves the page cache. -/
def countIn (state : StreamWeights DType) (name : String) (info : TensorInfo DType) : StreamWeights DType :=
  { state with
    seen := state.seen ++ [name]
    remaining :=
      if info.bytes ≠ 0 then Function.update state.remaining info.file (state.remaining info.file - 1)
      else state.remaining }

def place (call : StreamCall DType) (state : StreamWeights DType) (name : String) (info : TensorInfo DType)
    (tensor : Tensor DType) (copied : Bool) : StreamWeights DType :=
  if call.skip name then
    { state with
      metrics := { state.metrics with skippedTensors := state.metrics.skippedTensors + 1 }
      point := .waiting }
  else match own call state info tensor copied with
    | .error error => state.raise error
    | .ok (owning, storage) =>
        { owning with
          metrics := { owning.metrics with
            bytes := owning.metrics.bytes + info.bytes
            tensors := owning.metrics.tensors + 1 }
          yields := owning.yields ++ [(name, tensor)]
          point := .yielded storage }

/-- The body of the loop over the stream, up to the `yield`. -/
def accept [DecidableEq DType] (call : StreamCall DType) (state : StreamWeights DType) (name : String)
    (tensor : Tensor DType) (advised copied : Bool) : StreamWeights DType :=
  match call.checkpoint.tensors.get? name with
  | none => state.raise (.valueError ("unexpected/duplicate streamed tensor: " ++ name))
  | some info =>
      if name ∈ state.seen then
        state.raise (.valueError ("unexpected/duplicate streamed tensor: " ++ name))
      else if tensor.shape ≠ info.shape ∨ tensor.dtype ≠ info.dtype then
        state.raise (.valueError ("streamed tensor schema mismatch: " ++ name))
      else
        let counted := state.countIn name info
        if info.bytes ≠ 0 ∧ counted.remaining info.file = 0 ∧ ¬advised then counted.raise .outside
        else place call counted name info tensor copied

/-- The loop over the tensors that the streamer left out, up to the next `yield`. -/
def sweep (call : StreamCall DType) (state : StreamWeights DType) : List (Row DType) → StreamWeights DType
  | [] => { state with point := .checking }
  | (name, info) :: rest =>
      if name ∈ state.seen then state.sweep call rest
      else if info.bytes ≠ 0 then state.finish (.raised (.valueError ("missing streamed tensor: " ++ name)))
      else if call.skip name then state.sweep call rest
      else { state with yields := state.yields ++ [(name, ⟨info.shape, info.dtype, []⟩)], point := .yieldedEmpty rest }

def check (call : StreamCall DType) (state : StreamWeights DType) (disk : String → Option Stamp) :
    StreamWeights DType :=
  let found := { state with disk := some disk }
  match call.checkpoint.stamps.entries.find? fun entry => disk entry.1 ≠ some entry.2 with
  | some (path, _) =>
      if disk path = none then found.finish (.raised .outside)
      else found.finish (.raised (.valueError ("checkpoint changed during streaming: " ++ path)))
  | none => { found with metrics := { found.metrics with complete := true } }.finish .returned

/-- One step. A storage expires once nothing refers to it, and the generator does while it is suspended at its yield. -/
def step [DecidableEq DType] (call : StreamCall DType) (state : StreamWeights DType) :
    Event DType → Option (StreamWeights DType)
  | .begin => match state.point with
      | .start => some (state.begin call)
      | _ => none
  | .opened => match state.point with
      | .opening => some { state with point := .entered }
      | .entered => some { state with point := .waiting }
      | _ => none
  | .failed => match state.point with
      | .opening => some (state.finish (.raised .outside))
      | .entered | .waiting => some (state.raise .outside)
      | .leaving _ => some (state.finish (.raised .outside))
      | _ => none
  | .delivered name tensor advised copied => match state.point with
      | .waiting => some (accept call { state with deliveries := state.deliveries ++ [(name, tensor)] } name tensor
          advised copied)
      | _ => none
  | .exhausted => match state.point with
      | .waiting => some { state with point := .leaving none }
      | _ => none
  | .left => match state.point with
      | .leaving none => some (state.sweep call call.checkpoint.tensors.entries)
      | .leaving (some outcome) => some (state.finish outcome)
      | _ => none
  | .resumed => match state.point with
      | .yielded _ => some { state with point := .waiting }
      | .yieldedEmpty rest =>
          some (sweep call { state with
            metrics := { state.metrics with emptyTensors := state.metrics.emptyTensors + 1 } } rest)
      | _ => none
  | .closed => match state.point with
      | .yielded _ => some { state with point := .leaving (some .closed) }
      | .yieldedEmpty _ => some (state.finish .closed)
      | _ => none
  | .thrown => match state.point with
      | .yielded _ => some (state.raise .outside)
      | .yieldedEmpty _ => some (state.finish (.raised .outside))
      | _ => none
  | .checked disk => match state.point with
      | .checking => some (state.check call disk)
      | _ => none
  | .expired storage =>
      let held := match state.point with
        | .yielded other => other == storage
        | _ => false
      if storage < state.copies.length ∧ storage ∉ state.expired ∧ held = false then
        some { state with expired := state.expired ++ [storage] }
      else none
  | .setenv key value => match state.point with
      | .done _ => none
      | _ => some { state with env := Function.update state.env key value }

/-- The bytes of the copies that are still alive. -/
def aliveBytes (state : StreamWeights DType) : Int :=
  ((state.copies.filter fun copy => copy.1 ∉ state.expired).map Prod.snd).sum

end StreamWeights

end DgxSpark.Nvme.Streaming

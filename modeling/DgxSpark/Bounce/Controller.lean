import DgxSpark.Library.Run
import DgxSpark.Slab.Manager

/-
This file embeds `BounceController` and `SlabBounceController` of
`kv_offload/tiering/multinode.py` together with the work of the handlers that they start.
-/

namespace DgxSpark.Bounce

open Slab (SlabLoadStoreSpec)

/-- The GPU side of a copy: the blocks group by group, with the number of blocks of each group. -/
structure GPULoadStoreSpec (groups : Nat) where
  blockIds : List Int
  groupSizes : Fin groups → Nat
  blockIndices : Fin groups → Nat

/-- One page between a bounce slot and a GPU block. -/
structure PageCopy where
  tensor : Nat
  nbytes : Nat
  slot : Nat
  block : Int
deriving DecidableEq

/-- What a controller is built from: the group of a key, the tensors and page sizes of a group, the
file tasks of a chunk to store, and the pages that the copy handler moves for a GPU side and its
bounce slots. -/
structure Setup (Key : Type) (groups : Nat) where
  group : Key → Fin groups
  groupLayout : Fin groups → List (Nat × Nat)
  storeTasks : List (Nat × Key) → List (List (Nat × Key))
  pages : GPULoadStoreSpec groups → List Nat → List PageCopy

inductive Handler where
  | g2b
  | files
  | reader
  | b2g
deriving DecidableEq

/-- One unit of work of a handler. -/
inductive Work (Key : Type) where
  | page (copy : PageCopy)
  | write (slotsKeys : List (Nat × Key))
  | read (key : Key) (slot : Nat)

/-- A sub-job is at one handler until `get_finished` returns it. `owner`, `slots` and `items` record
which job it works for, which bounce slots it uses and which items of a load it moves; `ran` holds the
outcome of each unit that has run. -/
structure SubJob (Key : Type) where
  handler : Handler
  owner : Nat
  slots : List Nat
  items : List (Key × Int)
  work : List (Work Key)
  ran : List (Option Bool)

namespace SubJob

variable {Key : Type}

def started (handler : Handler) (owner : Nat) (slots : List Nat) (items : List (Key × Int))
    (work : List (Work Key)) : SubJob Key :=
  ⟨handler, owner, slots, items, work, work.map fun _ => none⟩

def Finished (sub : SubJob Key) : Prop := none ∉ sub.ran

instance (sub : SubJob Key) : Decidable sub.Finished := inferInstanceAs (Decidable (none ∉ sub.ran))

/-- The pool reports a sub-job as failed when one of its tasks failed. -/
def ok (sub : SubJob Key) : Bool := !sub.ran.contains (some false)

end SubJob

/-- `_DirectJob`, without its start time. -/
structure DirectJob (Key : Type) where
  jobId : Nat
  store : Bool
  items : List (Key × Int)
  nextItem : Nat
  doneItems : Nat
  failed : Bool
  nbytes : Nat
  copies : OrderedDict Nat (List (Nat × Key))
  reads : OrderedDict Nat (List Nat × List Int × List Key)
  slots : OrderedDict Key Int
  epoch : Int
  seq : Nat

/-- A result of a job, without the time that it took. -/
structure TransferResult where
  jobId : Nat
  success : Bool
  transferSize : Option Nat
deriving DecidableEq

/-- The bounce buffer: a byte for each tensor, slot and offset. -/
abbrev Buffer := Nat → Nat → Nat → UInt8

/-- A read task that returned: its job, the key, disk slot and epoch that it asked for, and the bytes. -/
structure Fetched (Key : Type) where
  job : Nat
  key : Key
  diskSlot : Int
  epoch : Int
  bytes : List UInt8

/-- A page written to a GPU block by a copy of a job. -/
structure GpuWrite where
  job : Nat
  tensor : Nat
  block : Int
  data : List UInt8
deriving DecidableEq

/-- Where a `pump` stands: the queue that it asks next. Between the calls this is the first one. -/
inductive Stage where
  | ask (handler : Handler)
  | chunks
deriving DecidableEq

/-- The controller with the sub-jobs at its handlers. The fields from `accepted` on record the run:
the accepted jobs, the chunks put together for each, the jobs with a failed file task, the blocks that
each job invalidated, the results and the failed blocks that were taken, the reads that returned and
the GPU writes. -/
structure BounceController (Key : Type) (groups : Nat) where
  nBounce : Nat
  free : List Nat
  jobs : OrderedDict Nat (DirectJob Key)
  subCounter : Nat
  results : Bool → List TransferResult
  subToJob : OrderedDict Nat Nat
  failedGpuBlocks : Finset Int
  handlers : OrderedDict Nat (SubJob Key)
  bounce : Buffer
  stage : Stage
  accepted : OrderedDict Nat (Bool × List (Key × Int))
  chunks : Nat → List (List (Key × Int))
  taskFailed : Finset Nat
  spoiled : Nat → Finset Int
  handed : List TransferResult
  invalid : Finset Int
  fetched : List (Fetched Key)
  gpuLog : List GpuWrite

variable {Key : Type} [DecidableEq Key] {groups : Nat}

namespace BounceController

variable (setup : Setup Key groups)

def opened (nBounce : Nat) (bounce : Buffer) : BounceController Key groups where
  nBounce := nBounce
  free := List.range nBounce
  jobs := .empty
  subCounter := 0
  results := fun _ => []
  subToJob := .empty
  failedGpuBlocks := ∅
  handlers := .empty
  bounce := bounce
  stage := .ask .g2b
  accepted := .empty
  chunks := fun _ => []
  taskFailed := ∅
  spoiled := fun _ => ∅
  handed := []
  invalid := ∅
  fetched := []
  gpuLog := []

/-- `_gpu_spec`. -/
def gpuSpec (keys : List Key) (gpuIds : List Int) : GPULoadStoreSpec groups where
  blockIds := gpuIds
  groupSizes := fun g => keys.countP fun key => setup.group key == g
  blockIndices := fun _ => 0

/-- `_enqueue_store_tasks` of `BounceController`: one file for each key. -/
def fileStoreTasks (slotsKeys : List (Nat × Key)) : List (List (Nat × Key)) :=
  slotsKeys.map fun pair => [pair]

/-- `_enqueue_store_tasks` of `SlabBounceController`: one task for the chunk. -/
def slabStoreTasks (slotsKeys : List (Nat × Key)) : List (List (Nat × Key)) := [slotsKeys]

/-- Copies block by block: the blocks are split by the group sizes, and each moves the tensors of its
group. -/
def groupPages (groupLayout : Fin groups → List (Nat × Nat)) (spec : GPULoadStoreSpec groups)
    (slots : List Nat) : List PageCopy :=
  let owners := (List.finRange groups).flatMap fun g => List.replicate (spec.groupSizes g) g
  (owners.zip (slots.zip spec.blockIds)).flatMap fun (g, slot, block) =>
    (groupLayout g).map fun (tensor, nbytes) => ⟨tensor, nbytes, slot, block⟩

/-- `block_nbytes`. -/
def blockNbytes (key : Key) : Nat := ((setup.groupLayout (setup.group key)).map Prod.snd).sum

def submit (controller : BounceController Key groups) (jobId : Nat) (store : Bool) (gpuIds : List Int)
    (spec : SlabLoadStoreSpec Key) : Bool × BounceController Key groups :=
  if gpuIds.length ≠ spec.keys.length ∨ spec.keys = [] then (false, controller)
  else
    let job : DirectJob Key := {
      jobId := jobId
      store := store
      items := spec.keys.zip gpuIds
      nextItem := 0
      doneItems := 0
      failed := false
      nbytes := (spec.keys.map (blockNbytes setup)).sum
      copies := .empty
      reads := .empty
      slots := (spec.keys.zip spec.slots).foldl (fun dict pair => dict.set pair.1 pair.2) .empty
      epoch := spec.epoch
      seq := spec.seq }
    (true, { controller with
      jobs := controller.jobs.set jobId job
      accepted := controller.accepted.set jobId (store, job.items) })

/-- `take_results`. -/
def takeResults (controller : BounceController Key groups) (store : Bool) :
    List TransferResult × BounceController Key groups :=
  (controller.results store, { controller with
    results := Function.update controller.results store []
    handed := controller.handed ++ controller.results store })

/-- `take_failed_gpu_blocks`. -/
def takeFailedGpuBlocks (controller : BounceController Key groups) :
    Finset Int × BounceController Key groups :=
  (controller.failedGpuBlocks, { controller with
    failedGpuBlocks := ∅
    invalid := controller.invalid ∪ controller.failedGpuBlocks })

/-- `_finish`. -/
def finish (controller : BounceController Key groups) (job : DirectJob Key) :
    BounceController Key groups :=
  { controller with
    jobs := controller.jobs.erase job.jobId
    results := Function.update controller.results job.store (controller.results job.store ++
      [⟨job.jobId, !job.failed, if job.failed then none else some job.nbytes⟩]) }

/-- The slots of a finished sub-job are freed and its items counted; the last one ends the job. -/
def release (controller : BounceController Key groups) (job : DirectJob Key) (slots : List Nat) :
    BounceController Key groups :=
  let job := { job with doneItems := job.doneItems + slots.length }
  let freed := { controller with
    free := controller.free ++ slots
    jobs := controller.jobs.set job.jobId job }
  if job.doneItems = job.items.length then freed.finish job else freed

/-- A finished sub-job leaves its handler and the global map. -/
def collect (controller : BounceController Key groups) (sid : Nat) : BounceController Key groups :=
  { controller with
    handlers := controller.handlers.erase sid
    subToJob := controller.subToJob.erase sid }

def jobOf (controller : BounceController Key groups) (sid : Nat) : Option (DirectJob Key) :=
  (controller.subToJob.get? sid).bind controller.jobs.get?

/-- A new sub-job at a handler, under the next id. -/
def launch (controller : BounceController Key groups) (job : DirectJob Key) (sub : SubJob Key) :
    BounceController Key groups :=
  { controller with
    subCounter := controller.subCounter + 1
    subToJob := controller.subToJob.set (controller.subCounter + 1) job.jobId
    jobs := controller.jobs.set job.jobId job
    handlers := controller.handlers.set (controller.subCounter + 1) sub }

/-- Stage 1 of `pump`, one copy: the slots go to the file writers. The result is `none` where a
lookup raises. The success of a copy is not looked at. -/
def copyDone (controller : BounceController Key groups) (report : Nat × Bool) :
    Option (BounceController Key groups) :=
  match controller.jobOf report.1 with
  | none => some (controller.collect report.1)
  | some job => (job.copies.get? report.1).map fun slotsKeys =>
      (controller.collect report.1).launch
        { job with copies := (job.copies.erase report.1).set (controller.subCounter + 1) slotsKeys }
        (.started .files job.jobId (slotsKeys.map Prod.fst) [] ((setup.storeTasks slotsKeys).map .write))

/-- Stage 2, one write. -/
def writeDone (controller : BounceController Key groups) (report : Nat × Bool) :
    Option (BounceController Key groups) :=
  match controller.jobOf report.1 with
  | none => some (controller.collect report.1)
  | some job => (job.copies.get? report.1).map fun slotsKeys =>
      (controller.collect report.1).release
        { job with copies := job.copies.erase report.1, failed := job.failed || !report.2 }
        (slotsKeys.map Prod.fst)

/-- Stage 3, one chunk of reads: a failed one invalidates its blocks, the others go on to the GPU. -/
def readDone (controller : BounceController Key groups) (report : Nat × Bool) :
    Option (BounceController Key groups) :=
  match controller.jobOf report.1 with
  | none => some (controller.collect report.1)
  | some job => (job.reads.get? report.1).map fun (slots, gpuIds, keys) =>
      let collected := controller.collect report.1
      if report.2 then
        collected.launch
          { job with reads := (job.reads.erase report.1).set (controller.subCounter + 1) (slots, gpuIds, keys) }
          (.started .b2g job.jobId slots (keys.zip gpuIds) ((setup.pages (gpuSpec setup keys gpuIds) slots).map .page))
      else
        { collected with
          failedGpuBlocks := collected.failedGpuBlocks ∪ gpuIds.toFinset
          spoiled := Function.update collected.spoiled job.jobId
            (collected.spoiled job.jobId ∪ gpuIds.toFinset) }.release
          { job with reads := job.reads.erase report.1, failed := true } slots

/-- Stage 4, one copy. -/
def returnDone (controller : BounceController Key groups) (report : Nat × Bool) :
    Option (BounceController Key groups) :=
  match controller.jobOf report.1 with
  | none => some (controller.collect report.1)
  | some job => (job.reads.get? report.1).map fun (slots, _, _) =>
      (controller.collect report.1).release { job with reads := job.reads.erase report.1 } slots

/-- Stage 5, one job: as many of its next items as there are free slots start as one chunk. -/
def startChunk (store : Bool) (controller : BounceController Key groups) (jobId : Nat) :
    BounceController Key groups :=
  match controller.jobs.get? jobId with
  | none => controller
  | some job =>
      if job.store ≠ store ∨ job.items.length ≤ job.nextItem ∨ controller.free = [] then controller
      else
        let n := min controller.free.length (job.items.length - job.nextItem)
        let chunk := (job.items.drop job.nextItem).take n
        let slots := controller.free.take n
        let keys := chunk.map Prod.fst
        let gpuIds := chunk.map Prod.snd
        let sid := controller.subCounter + 1
        let job := { job with nextItem := job.nextItem + n }
        let rest := { controller with
          free := controller.free.drop n
          chunks := Function.update controller.chunks jobId (controller.chunks jobId ++ [chunk]) }
        if job.store then
          rest.launch { job with copies := job.copies.set sid (slots.zip keys) }
            (.started .g2b job.jobId slots [] ((setup.pages (gpuSpec setup keys gpuIds) slots).map .page))
        else
          rest.launch { job with reads := job.reads.set sid (slots, gpuIds, keys) }
            (.started .reader job.jobId slots chunk ((keys.zip slots).map fun pair => .read pair.1 pair.2))

/-- Stage 5: loads first. -/
def startChunks (controller : BounceController Key groups) : BounceController Key groups :=
  let loads := controller.jobs.keys.foldl (startChunk setup false) controller
  loads.jobs.keys.foldl (startChunk setup true) loads

/-! ### The work of the handlers -/

/-- The first bytes of a row of the buffer. -/
def row (bounce : Buffer) (tensor slot nbytes : Nat) : List UInt8 :=
  (List.range nbytes).map (bounce tensor slot)

def putRow (bounce : Buffer) (tensor slot : Nat) (data : List UInt8) : Buffer :=
  fun otherTensor otherSlot offset =>
    if otherTensor = tensor ∧ otherSlot = slot then data.getD offset (bounce tensor slot offset)
    else bounce otherTensor otherSlot offset

/-- Bytes read into the views of a block, one view after the other. -/
def scatter (bounce : Buffer) (slot : Nat) : List (Nat × Nat) → List UInt8 → Buffer
  | [], _ => bounce
  | (tensor, nbytes) :: rest, bytes =>
      scatter (putRow bounce tensor slot (bytes.take nbytes)) slot rest (bytes.drop nbytes)

/-- `block_views` name the rows of a key's group at the slot; this is what a read leaves there. -/
def fillViews (bounce : Buffer) (key : Key) (slot : Nat) (bytes : List UInt8) : Buffer :=
  scatter bounce slot (setup.groupLayout (setup.group key)) bytes

/-- `_load_one` passes the disk slot and the epoch of the job. -/
def diskSlotOf (controller : BounceController Key groups) (id : Nat) (key : Key) : Option (Int × Int) :=
  (controller.jobs.get? id).bind fun job => (job.slots.get? key).map fun slot => (slot, job.epoch)

/-- The effect of one unit on the memories. A copy moves what its source holds; a read that fails may
leave any bytes behind. The result is `none` where the unit cannot end so. -/
def perform (controller : BounceController Key groups) (sub : SubJob Key) (ok : Bool) (bytes : List UInt8) :
    Work Key → Option (BounceController Key groups)
  | .page copy =>
      if ok then
        if sub.handler = .b2g then
          let data := row controller.bounce copy.tensor copy.slot copy.nbytes
          some { controller with gpuLog := controller.gpuLog ++ [⟨sub.owner, copy.tensor, copy.block, data⟩] }
        else
          let bounce := putRow controller.bounce copy.tensor copy.slot (bytes.take copy.nbytes)
          some { controller with bounce := bounce }
      else none
  | .write _ => some controller
  | .read key slot =>
      let filled := { controller with bounce := fillViews setup controller.bounce key slot bytes }
      if ok then
        if bytes.length = blockNbytes setup key then
          (diskSlotOf controller sub.owner key).map fun (diskSlot, epoch) =>
            { filled with fetched := controller.fetched ++ [⟨sub.owner, key, diskSlot, epoch, bytes⟩] }
        else none
      else some filled

/-- One unit of a sub-job runs, at any time and in any order. -/
def runUnit (controller : BounceController Key groups) (sid index : Nat) (ok : Bool) (bytes : List UInt8) :
    Option (BounceController Key groups) :=
  (controller.handlers.get? sid).bind fun sub =>
    if sub.ran[index]? = some none then
      (sub.work[index]?).bind fun work =>
        (perform setup controller sub ok bytes work).map fun next =>
          { next with
            handlers := next.handlers.set sid { sub with ran := sub.ran.set index (some ok) }
            taskFailed := if ok then next.taskFailed else insert sub.owner next.taskFailed }
    else none

end BounceController

/-- What can happen to a controller. A `pump` is four polls, one for each queue in turn, and then the
new chunks; units of work run before, between and after them. -/
inductive BounceAction (Key : Type) where
  | submit (jobId : Nat) (store : Bool) (gpuIds : List Int) (spec : SlabLoadStoreSpec Key)
  | takeResults (store : Bool)
  | takeFailedGpuBlocks
  | run (sid index : Nat) (ok : Bool) (bytes : List UInt8)
  | poll (done : List (Nat × Bool))
  | chunks

namespace BounceController

variable (setup : Setup Key groups)

/-- What `get_finished` of a handler may return: finished sub-jobs in any order, each once. -/
def Reports (controller : BounceController Key groups) (handler : Handler) (done : List (Nat × Bool)) : Prop :=
  (done.map Prod.fst).Nodup ∧ ∀ report ∈ done, ∃ sub ∈ controller.handlers.get? report.1,
    sub.handler = handler ∧ sub.Finished ∧ report.2 = sub.ok

instance (controller : BounceController Key groups) (handler : Handler) (done : List (Nat × Bool)) :
    Decidable (controller.Reports handler done) :=
  inferInstanceAs (Decidable ((done.map Prod.fst).Nodup ∧ ∀ report ∈ done,
    ∃ sub ∈ controller.handlers.get? report.1, sub.handler = handler ∧ sub.Finished ∧ report.2 = sub.ok))

/-- The loop of one stage. -/
def drain (controller : BounceController Key groups) (handler : Handler) (done : List (Nat × Bool)) :
    Option (BounceController Key groups) :=
  match handler with
  | .g2b => Run.run (copyDone setup) controller done
  | .files => Run.run writeDone controller done
  | .reader => Run.run (readDone setup) controller done
  | .b2g => Run.run returnDone controller done

/-- The stage that follows a queue. -/
def after : Handler → Stage
  | .g2b => .ask .files
  | .files => .ask .reader
  | .reader => .ask .b2g
  | .b2g => .chunks

/-- Calls come between pumps and name new jobs. The result is also `none` where a stage raises. -/
def step (controller : BounceController Key groups) :
    BounceAction Key → Option (BounceController Key groups)
  | .submit jobId store gpuIds spec =>
      if controller.stage = .ask .g2b ∧ controller.accepted.get? jobId = none then
        some (submit setup controller jobId store gpuIds spec).2
      else none
  | .takeResults store =>
      if controller.stage = .ask .g2b then some (controller.takeResults store).2 else none
  | .takeFailedGpuBlocks =>
      if controller.stage = .ask .g2b then some controller.takeFailedGpuBlocks.2 else none
  | .run sid index ok bytes => runUnit setup controller sid index ok bytes
  | .poll done =>
      match controller.stage with
      | .ask handler =>
          if controller.Reports handler done then
            (drain setup controller handler done).map fun next => { next with stage := after handler }
          else none
      | .chunks => none
  | .chunks =>
      if controller.stage = .chunks then some { startChunks setup controller with stage := .ask .g2b }
      else none

end BounceController

end DgxSpark.Bounce

import DgxSpark.Bounce.Units
import DgxSpark.Slab.SlabIo
import DgxSpark.Slab.Reports

/-
This file embeds `MultiNodeSlabConnectorWorker` over a `SlabBounceController`, whose read tasks are
calls of `SlabIO.read`, and shows that every block of a reported load is verified or invalid.
-/

namespace DgxSpark.Bounce

open Slab (SlabIo Disk SlabLoadStoreSpec WorkerMetadata)

namespace BounceController

variable {groups : Nat} (setup : Setup (List UInt8) groups) (io : SlabIo groups)

/-- `block_views`: the rows of the key's group at a slot. -/
def blockViews (bounce : Buffer) (key : List UInt8) (slot : Nat) : List (List UInt8) :=
  (setup.groupLayout (setup.group key)).map fun (tensor, nbytes) => row bounce tensor slot nbytes

/-- `SlabIO.read` with the disk slot of a job; a negative one is refused. -/
def slabRead (disk : Disk groups) (key : List UInt8) (diskSlot epoch : Int) (views : List (List UInt8))
    (replies : List Nat) : Option (List (List UInt8)) :=
  if diskSlot < 0 then none
  else io.read (fun key => some (setup.group key)) disk key diskSlot.toNat views (some epoch) replies

/-- `_load_one`: the bytes that it puts into the views, or nothing where it raises. -/
def loadOne (controller : BounceController (List UInt8) groups) (owner : Nat) (disk : Disk groups)
    (key : List UInt8) (slot : Nat) (replies : List Nat) : Option (List UInt8) :=
  (diskSlotOf controller owner key).bind fun (diskSlot, epoch) =>
    (slabRead setup io disk key diskSlot epoch (blockViews setup controller.bounce key slot) replies).map
      List.flatten

def workAt (controller : BounceController (List UInt8) groups) (sid index : Nat) :
    Option (SubJob (List UInt8) × Work (List UInt8)) :=
  (controller.handlers.get? sid).bind fun sub => (sub.work[index]?).map fun work => (sub, work)

/-- A read task runs on the disk as it stands. Where it raises, any bytes may be left in the views. -/
def runRead (controller : BounceController (List UInt8) groups) (sid index : Nat) (disk : Disk groups)
    (replies : List Nat) (left : List UInt8) : Option (BounceController (List UInt8) groups) :=
  match workAt controller sid index with
  | some (sub, .read key slot) =>
      match loadOne setup io controller sub.owner disk key slot replies with
      | some bytes => runUnit setup controller sid index true bytes
      | none => runUnit setup controller sid index false left
  | _ => none

/-- A copy or a write task runs. -/
def runOther (controller : BounceController (List UInt8) groups) (sid index : Nat) (ok : Bool)
    (bytes : List UInt8) : Option (BounceController (List UInt8) groups) :=
  match workAt controller sid index with
  | some (_, .read _ _) => none
  | _ => runUnit setup controller sid index ok bytes

end BounceController

/-- The worker side of the connector with its metadata and the requests of its loads. `sent` and
`handedOut` record the metadata that was built and the invalid blocks that were taken. -/
structure MultiNodeSlabConnectorWorker (groups : Nat) where
  controller : BounceController (List UInt8) groups
  loadJobs : OrderedDict Nat String
  metadata : WorkerMetadata
  invalidBlockIds : Finset Int
  sent : List WorkerMetadata
  handedOut : Finset Int

/-- What can happen to a worker. `get_finished` comes after the polls and chunks of its pump. -/
inductive WorkerAction (groups : Nat) where
  | store (jobId : Nat) (gpuIds : List Int) (spec : SlabLoadStoreSpec (List UInt8))
  | load (jobId : Nat) (request : String) (gpuIds : List Int) (spec : SlabLoadStoreSpec (List UInt8))
  | read (sid index : Nat) (disk : Disk groups) (replies : List Nat) (left : List UInt8)
  | run (sid index : Nat) (ok : Bool) (bytes : List UInt8)
  | poll (done : List (Nat × Bool))
  | chunks
  | getFinished
  | buildMetadata
  | takeInvalidBlockIds

namespace MultiNodeSlabConnectorWorker

open BounceController

variable {groups : Nat} (setup : Setup (List UInt8) groups) (io : SlabIo groups)

def opened (nBounce : Nat) (bounce : Buffer) : MultiNodeSlabConnectorWorker groups :=
  ⟨.opened nBounce bounce, .empty, .empty, ∅, [], ∅⟩

/-- One result of `get_finished`: its outcome is recorded and the request of a load is done. -/
def finishOne (state : Finset String × MultiNodeSlabConnectorWorker groups) (result : TransferResult) :
    Finset String × MultiNodeSlabConnectorWorker groups :=
  let recving := match state.2.loadJobs.get? result.jobId with
    | some request => insert request state.1
    | none => state.1
  (recving, { state.2 with
    metadata := state.2.metadata.record result.jobId result.success
    loadJobs := state.2.loadJobs.erase result.jobId })

/-- `get_finished` after its pump, with the requests that finished. -/
def getFinished (worker : MultiNodeSlabConnectorWorker groups) :
    Finset String × MultiNodeSlabConnectorWorker groups :=
  let (stores, controller) := worker.controller.takeResults true
  let (loads, controller) := controller.takeResults false
  let (recving, worker) := (stores ++ loads).foldl finishOne (∅, { worker with controller := controller })
  let (failed, controller) := worker.controller.takeFailedGpuBlocks
  (recving, { worker with
    controller := controller
    invalidBlockIds := worker.invalidBlockIds ∪ failed })

/-- `build_connector_worker_meta`: nothing is sent without a completion. -/
def buildConnectorWorkerMeta (worker : MultiNodeSlabConnectorWorker groups) :
    Option WorkerMetadata × MultiNodeSlabConnectorWorker groups :=
  if worker.metadata.completedJobs.entries = [] then (none, worker)
  else (some worker.metadata, { worker with
    metadata := .empty
    sent := worker.metadata :: worker.sent })

/-- `take_invalid_block_ids`. -/
def takeInvalidBlockIds (worker : MultiNodeSlabConnectorWorker groups) :
    Finset Int × MultiNodeSlabConnectorWorker groups :=
  (worker.invalidBlockIds, { worker with
    invalidBlockIds := ∅
    handedOut := worker.handedOut ∪ worker.invalidBlockIds })

/-- The calls of the main thread come between pumps, the tasks run at any time. -/
def step (worker : MultiNodeSlabConnectorWorker groups) :
    WorkerAction groups → Option (MultiNodeSlabConnectorWorker groups)
  | .store jobId gpuIds spec =>
      (worker.controller.step setup (.submit jobId true gpuIds spec)).map fun next =>
        { worker with controller := next }
  | .load jobId request gpuIds spec =>
      (worker.controller.step setup (.submit jobId false gpuIds spec)).map fun next =>
        { worker with controller := next, loadJobs := worker.loadJobs.set jobId request }
  | .read sid index disk replies left =>
      (runRead setup io worker.controller sid index disk replies left).map fun next =>
        { worker with controller := next }
  | .run sid index ok bytes =>
      (runOther setup worker.controller sid index ok bytes).map fun next => { worker with controller := next }
  | .poll done =>
      (worker.controller.step setup (.poll done)).map fun next => { worker with controller := next }
  | .chunks => (worker.controller.step setup .chunks).map fun next => { worker with controller := next }
  | .getFinished => if worker.controller.stage = .ask .g2b then some worker.getFinished.2 else none
  | .buildMetadata => some worker.buildConnectorWorkerMeta.2
  | .takeInvalidBlockIds => some worker.takeInvalidBlockIds.2

end MultiNodeSlabConnectorWorker

namespace BounceController

variable {groups : Nat} {setup : Setup (List UInt8) groups} {io : SlabIo groups}
variable {controller next : BounceController (List UInt8) groups} {sid index : Nat}

variable (setup io) in
/-- The bytes of a read are those of a `SlabIO.read` of its key that returned, on some state of the disk. -/
def ReadBySlab (fetch : Fetched (List UInt8)) : Prop :=
  ∃ disk views replies result,
    slabRead setup io disk fetch.key fetch.diskSlot fetch.epoch views replies = some result ∧
      result.flatten = fetch.bytes

theorem slabRead_length {disk : Disk groups} {key : List UInt8} {diskSlot epoch : Int}
    {views result : List (List UInt8)} {replies : List Nat}
    (returned : slabRead setup io disk key diskSlot epoch views replies = some result) :
    result.flatten.length = views.flatten.length := by
  unfold slabRead at returned
  split at returned
  · cases returned
  · obtain ⟨_, _, -, served⟩ := SlabIo.read_eq_some returned
    rw [List.length_flatten, List.length_flatten, served.sizes]

theorem blockViews_length (bounce : Buffer) (key : List UInt8) (slot : Nat) :
    (blockViews setup bounce key slot).flatten.length = blockNbytes setup key := by
  rw [List.length_flatten, blockViews, List.map_map, blockNbytes]
  refine congrArg List.sum (List.map_congr_left fun view _ => ?_)
  exact (List.length_map _).trans List.length_range

/-- A waiting read task always ends, well or not. -/
theorem runRead_ends {sub : SubJob (List UInt8)} (found : controller.handlers.get? sid = some sub)
    (waiting : sub.ran[index]? = some none) {key : List UInt8} {slot : Nat}
    (listed : sub.work[index]? = some (.read key slot)) (disk : Disk groups) (replies : List Nat)
    (left : List UInt8) : ∃ next, runRead setup io controller sid index disk replies left = some next := by
  simp only [runRead, workAt, found, Option.bind_some, listed, Option.map_some]
  cases loaded : loadOne setup io controller sub.owner disk key slot replies with
  | none =>
      simp only [runUnit, found, Option.bind_some, waiting, if_true, listed, perform, Bool.false_eq_true, if_false,
        Option.map_some]
      exact ⟨_, rfl⟩
  | some bytes =>
      obtain ⟨⟨diskSlot, epoch⟩, placed, read⟩ := Option.bind_eq_some_iff.mp loaded
      obtain ⟨result, returned, rfl⟩ := Option.map_eq_some_iff.mp read
      have fits := (slabRead_length returned).trans (blockViews_length _ _ _)
      simp only [runUnit, found, Option.bind_some, waiting, if_true, listed, perform, fits, placed,
        Option.map_some]
      exact ⟨_, rfl⟩

/-- A unit takes nothing, and what it adds to the reads is the read that it is. -/
theorem runUnit_fetched {ok : Bool} {bytes : List UInt8}
    (done : runUnit setup controller sid index ok bytes = some next) :
    next.handed = controller.handed ∧ next.invalid = controller.invalid ∧ next.spoiled = controller.spoiled ∧
      ∀ fetch ∈ next.fetched, fetch ∈ controller.fetched ∨
        ∃ sub slot, workAt controller sid index = some (sub, .read fetch.key slot) ∧ ok = true ∧
          diskSlotOf controller sub.owner fetch.key = some (fetch.diskSlot, fetch.epoch) ∧ fetch.bytes = bytes := by
  obtain ⟨sub, work, middle, found, -, listed, performed, rfl⟩ := runUnit_eq_some done
  obtain ⟨bounce, fetched, gpuLog, rfl⟩ := perform_frame performed
  refine ⟨rfl, rfl, rfl, fun fetch inside => ?_⟩
  cases work with
  | page copy =>
      simp only [perform] at performed
      split at performed
      · split at performed
        · cases performed
          exact .inl inside
        · cases performed
          exact .inl inside
      · cases performed
  | write slotsKeys =>
      have same : controller.fetched = fetched := congrArg BounceController.fetched (Option.some.inj performed)
      exact .inl (same ▸ inside)
  | read key slot =>
      simp only [perform] at performed
      split at performed
      case isTrue ended =>
        split at performed
        · obtain ⟨⟨diskSlot, epoch⟩, placed, same⟩ := Option.map_eq_some_iff.mp performed
          cases same
          rcases List.mem_append.mp inside with old | new
          · exact .inl old
          · rw [List.mem_singleton.mp new]
            refine .inr ⟨sub, slot, ?_, ended, placed, rfl⟩
            simp only [workAt, found, Option.bind_some, listed, Option.map_some]
        · cases performed
      case isFalse =>
        cases performed
        exact .inl inside

theorem runRead_eq_some {disk : Disk groups} {replies : List Nat} {left : List UInt8}
    (done : runRead setup io controller sid index disk replies left = some next) :
    ∃ ok bytes, runUnit setup controller sid index ok bytes = some next ∧
      ∀ sub key slot, workAt controller sid index = some (sub, .read key slot) → ok = true →
        loadOne setup io controller sub.owner disk key slot replies = some bytes := by
  unfold runRead at done
  split at done
  case h_1 sub key slot here =>
    split at done
    case h_1 bytes loaded =>
      refine ⟨true, bytes, done, fun other otherKey otherSlot there _ => ?_⟩
      rw [here] at there
      cases there
      exact loaded
    case h_2 => exact ⟨false, left, done, fun _ _ _ _ failed => Bool.noConfusion failed⟩
  case h_2 => cases done

/-- The read tasks of a slab controller log only what `SlabIO.read` returned. -/
theorem runRead_served {disk : Disk groups} {replies : List Nat} {left : List UInt8}
    (served : ∀ fetch ∈ controller.fetched, ReadBySlab setup io fetch)
    (done : runRead setup io controller sid index disk replies left = some next) :
    ∀ fetch ∈ next.fetched, ReadBySlab setup io fetch := by
  obtain ⟨ok, bytes, ran, loads⟩ := runRead_eq_some done
  intro fetch inside
  rcases (runUnit_fetched ran).2.2.2 fetch inside with old | ⟨sub, slot, here, ended, placed, same⟩
  · exact served fetch old
  · obtain ⟨⟨diskSlot, epoch⟩, asked, read⟩ := Option.bind_eq_some_iff.mp (loads sub fetch.key slot here ended)
    rw [placed] at asked
    cases asked
    obtain ⟨result, returned, flat⟩ := Option.map_eq_some_iff.mp read
    exact ⟨disk, _, replies, result, returned, flat.trans same.symm⟩

theorem runOther_eq_some {ok : Bool} {bytes : List UInt8}
    (done : runOther setup controller sid index ok bytes = some next) :
    runUnit setup controller sid index ok bytes = some next ∧
      ∀ sub key slot, workAt controller sid index ≠ some (sub, .read key slot) := by
  unfold runOther at done
  split at done
  · cases done
  case h_2 other => exact ⟨done, fun sub key slot here => other sub key slot here⟩

end BounceController

namespace MultiNodeSlabConnectorWorker

open BounceController

variable {groups : Nat} {setup : Setup (List UInt8) groups} {io : SlabIo groups}
variable {worker next : MultiNodeSlabConnectorWorker groups} {handed : List TransferResult}
variable {metadata : WorkerMetadata}

/-- The completions in the metadata have results, and the failed ones are noted. -/
def Recorded (handed : List TransferResult) (metadata : WorkerMetadata) : Prop :=
  ∀ id, metadata.completedJobs.get? id ≠ none →
    ∃ result ∈ handed, result.jobId = id ∧ (result.success = false → id ∈ metadata.failedJobs)

theorem recorded_empty (handed : List TransferResult) : Recorded handed .empty :=
  fun _ present => absurd rfl present

theorem Recorded.later {more : List TransferResult} (recorded : Recorded handed metadata) (grows : handed ⊆ more) :
    Recorded more metadata := by
  intro id present
  obtain ⟨result, inside, rest⟩ := recorded id present
  exact ⟨result, grows inside, rest⟩

theorem Recorded.record (recorded : Recorded handed metadata) {result : TransferResult} (inside : result ∈ handed) :
    Recorded handed (metadata.record result.jobId result.success) := by
  intro id present
  by_cases mine : id = result.jobId
  · refine ⟨result, inside, mine.symm, fun failed => ?_⟩
    simp only [WorkerMetadata.record, failed, WorkerMetadata.markCompleted, mine]
    exact Finset.mem_insert_self _ _
  · have before : metadata.completedJobs.get? id ≠ none := by
      unfold WorkerMetadata.record WorkerMetadata.markCompleted at present
      dsimp only at present
      rw [OrderedDict.get?_set_of_ne _ _ mine] at present
      split at present
      · exact present
      · exact present
    obtain ⟨old, known, same, noted⟩ := recorded id before
    refine ⟨old, known, same, fun failed => ?_⟩
    unfold WorkerMetadata.record WorkerMetadata.markCompleted
    dsimp only
    split
    · exact noted failed
    · exact Finset.mem_insert_of_mem (noted failed)

/-- The loop of `get_finished` changes only the metadata and the requests. -/
theorem finishOne_fold (results : List TransferResult) (state : Finset String × MultiNodeSlabConnectorWorker groups)
    (recorded : Recorded handed state.2.metadata) (inside : results ⊆ handed) :
    ∃ metadata loadJobs, Recorded handed metadata ∧
      (results.foldl finishOne state).2 = { state.2 with metadata := metadata, loadJobs := loadJobs } := by
  induction results generalizing state with
  | nil => exact ⟨_, _, recorded, rfl⟩
  | cons result rest ih =>
      have noted := recorded.record (inside List.mem_cons_self)
      obtain ⟨metadata, loadJobs, kept, same⟩ :=
        ih (finishOne state result) noted fun _ there => inside (List.mem_cons_of_mem _ there)
      exact ⟨metadata, loadJobs, kept, same⟩

variable (setup io) in
/-- What holds of a worker in a run. -/
structure Faithful (worker : MultiNodeSlabConnectorWorker groups) : Prop where
  verified : worker.controller.Verified setup
  served : ∀ fetch ∈ worker.controller.fetched, ReadBySlab setup io fetch
  taken : ∀ result ∈ worker.controller.handed, worker.controller.spoiled result.jobId ⊆ worker.controller.invalid
  invalid : worker.controller.invalid = worker.invalidBlockIds ∪ worker.handedOut
  recorded : ∀ metadata ∈ worker.metadata :: worker.sent, Recorded worker.controller.handed metadata

theorem opened_faithful (nBounce : Nat) (bounce : Buffer) :
    (opened nBounce bounce : MultiNodeSlabConnectorWorker groups).Faithful setup io where
  verified := opened_verified nBounce bounce
  served _ inside := absurd inside List.not_mem_nil
  taken _ inside := absurd inside List.not_mem_nil
  invalid := rfl
  recorded metadata inside := by
    rw [List.mem_singleton.mp inside]
    exact recorded_empty _

/-- The controller may go on as long as it hands out nothing. -/
theorem Faithful.control (faithful : worker.Faithful setup io) {controller : BounceController (List UInt8) groups}
    (verified : controller.Verified setup) (served : ∀ fetch ∈ controller.fetched, ReadBySlab setup io fetch)
    (handed : controller.handed = worker.controller.handed) (invalid : controller.invalid = worker.controller.invalid)
    (spoiled : ∀ result ∈ worker.controller.handed,
      controller.spoiled result.jobId = worker.controller.spoiled result.jobId)
    (loadJobs : OrderedDict Nat String) :
    { worker with controller := controller, loadJobs := loadJobs }.Faithful setup io where
  verified := verified
  served := served
  taken result inside := by
    dsimp only at inside ⊢
    rw [handed] at inside
    rw [spoiled result inside, invalid]
    exact faithful.taken result inside
  invalid := invalid.trans faithful.invalid
  recorded metadata inside := by
    dsimp only
    rw [handed]
    exact faithful.recorded metadata inside

theorem Faithful.pump (faithful : worker.Faithful setup io) (byGroup : PagesByGroup setup)
    {action : BounceAction (List UInt8)}
    (pumping : (∃ jobId store gpuIds spec, action = .submit jobId store gpuIds spec) ∨
      (∃ done, action = .poll done) ∨ action = .chunks)
    {controller : BounceController (List UInt8) groups}
    (taken : worker.controller.step setup action = some controller) (loadJobs : OrderedDict Nat String) :
    { worker with controller := controller, loadJobs := loadJobs }.Faithful setup io := by
  have withholds := step_withholds faithful.verified.sound pumping taken
  refine faithful.control (step_verified byGroup _ _ _ faithful.verified taken) ?_ withholds.handed withholds.invalid
    withholds.spoiled loadJobs
  rw [withholds.fetched]
  exact faithful.served

theorem Faithful.run (faithful : worker.Faithful setup io) (byGroup : PagesByGroup setup) {sid index : Nat}
    {ok : Bool} {bytes : List UInt8} {controller : BounceController (List UInt8) groups}
    (ran : runUnit setup worker.controller sid index ok bytes = some controller)
    (served : ∀ fetch ∈ controller.fetched, ReadBySlab setup io fetch) :
    { worker with controller := controller }.Faithful setup io := by
  obtain ⟨handed, invalid, spoiled, -⟩ := runUnit_fetched ran
  exact faithful.control (runUnit_verified byGroup faithful.verified ran) served handed invalid
    (fun _ _ => by rw [spoiled]) worker.loadJobs

/-- The results and the invalid blocks are taken together. -/
theorem Faithful.getFinished (faithful : worker.Faithful setup io) (byGroup : PagesByGroup setup)
    (idle : worker.controller.stage = .ask .g2b) : worker.getFinished.2.Faithful setup io := by
  have steps : ∃ last, Run.run (BounceController.step setup) worker.controller
      [.takeResults true, .takeResults false, .takeFailedGpuBlocks] = some last ∧
        last = (((worker.controller.takeResults true).2.takeResults false).2.takeFailedGpuBlocks).2 := by
    refine ⟨_, ?_, rfl⟩
    simp only [Run.run, BounceController.step, idle, BounceController.takeResults, if_true, Option.bind_some]
  obtain ⟨last, reached, same⟩ := steps
  have verified := Run.run_invariant (step_verified byGroup) faithful.verified reached
  have loads : (worker.controller.takeResults true).2.results false = worker.controller.results false :=
    Function.update_of_ne Bool.false_ne_true [] worker.controller.results
  have shown : last.handed = worker.controller.handed ++ worker.controller.results true ++
      worker.controller.results false := by
    rw [same]
    exact congrArg (worker.controller.handed ++ worker.controller.results true ++ ·) loads
  have before : ∀ metadata ∈ worker.metadata :: worker.sent, Recorded last.handed metadata := by
    intro metadata inside
    rw [shown, List.append_assoc]
    exact (faithful.recorded metadata inside).later (List.subset_append_left _ _)
  have results : (worker.controller.takeResults true).1 ++
      ((worker.controller.takeResults true).2.takeResults false).1 ⊆ last.handed := by
    have both : (worker.controller.takeResults true).1 ++ ((worker.controller.takeResults true).2.takeResults false).1 =
        worker.controller.results true ++ worker.controller.results false :=
      congrArg (worker.controller.results true ++ ·) loads
    rw [shown, List.append_assoc, both]
    exact List.subset_append_right _ _
  obtain ⟨metadata, loadJobs, recorded, folded⟩ := finishOne_fold _
    (∅, { worker with controller := ((worker.controller.takeResults true).2.takeResults false).2 })
    (before _ List.mem_cons_self) results
  have ends : worker.getFinished.2 = { worker with
      controller := last
      metadata := metadata
      loadJobs := loadJobs
      invalidBlockIds := worker.invalidBlockIds ∪ worker.controller.failedGpuBlocks } := by
    unfold MultiNodeSlabConnectorWorker.getFinished
    dsimp only
    rw [folded, same]
    rfl
  rw [ends]
  refine ⟨verified, ?_, fun result inside => ?_, ?_, fun other inside => ?_⟩
  · rw [same]
    exact faithful.served
  · have within := verified.truthful.invalid result.jobId
    rw [same] at within ⊢
    exact within.trans (Finset.union_subset (Finset.empty_subset _) subset_rfl)
  · rw [same]
    change worker.controller.invalid ∪ worker.controller.failedGpuBlocks = _
    rw [faithful.invalid, Finset.union_right_comm]
  · rcases List.mem_cons.mp inside with rfl | old
    · exact recorded
    · exact before other (List.mem_cons_of_mem _ old)

theorem step_faithful (byGroup : PagesByGroup setup) (worker : MultiNodeSlabConnectorWorker groups)
    (action : WorkerAction groups) (next : MultiNodeSlabConnectorWorker groups)
    (faithful : worker.Faithful setup io) (taken : worker.step setup io action = some next) :
    next.Faithful setup io := by
  cases action with
  | store jobId gpuIds spec =>
      obtain ⟨controller, stepped, rfl⟩ := Option.map_eq_some_iff.mp taken
      exact faithful.pump byGroup (.inl ⟨_, _, _, _, rfl⟩) stepped worker.loadJobs
  | load jobId request gpuIds spec =>
      obtain ⟨controller, stepped, rfl⟩ := Option.map_eq_some_iff.mp taken
      exact faithful.pump byGroup (.inl ⟨_, _, _, _, rfl⟩) stepped _
  | read sid index disk replies left =>
      obtain ⟨controller, done, rfl⟩ := Option.map_eq_some_iff.mp taken
      obtain ⟨_, _, ran, -⟩ := runRead_eq_some done
      exact faithful.run byGroup ran (runRead_served faithful.served done)
  | run sid index ok bytes =>
      obtain ⟨controller, done, rfl⟩ := Option.map_eq_some_iff.mp taken
      obtain ⟨ran, other⟩ := runOther_eq_some done
      refine faithful.run byGroup ran fun fetch inside => ?_
      rcases (runUnit_fetched ran).2.2.2 fetch inside with old | ⟨sub, slot, here, -⟩
      · exact faithful.served fetch old
      · exact absurd here (other sub fetch.key slot)
  | poll done =>
      obtain ⟨controller, stepped, rfl⟩ := Option.map_eq_some_iff.mp taken
      exact faithful.pump byGroup (.inr (.inl ⟨_, rfl⟩)) stepped worker.loadJobs
  | chunks =>
      obtain ⟨controller, stepped, rfl⟩ := Option.map_eq_some_iff.mp taken
      exact faithful.pump byGroup (.inr (.inr rfl)) stepped worker.loadJobs
  | getFinished =>
      simp only [step] at taken
      split at taken
      case isTrue idle =>
        cases taken
        exact faithful.getFinished byGroup idle
      case isFalse => cases taken
  | buildMetadata =>
      cases taken
      unfold buildConnectorWorkerMeta
      split
      · exact faithful
      · refine ⟨faithful.verified, faithful.served, faithful.taken, faithful.invalid, fun metadata inside => ?_⟩
        rcases List.mem_cons.mp inside with rfl | old
        · exact recorded_empty _
        · exact faithful.recorded metadata old
  | takeInvalidBlockIds =>
      cases taken
      refine ⟨faithful.verified, faithful.served, faithful.taken, ?_, faithful.recorded⟩
      change worker.controller.invalid = ∅ ∪ (worker.handedOut ∪ worker.invalidBlockIds)
      rw [faithful.invalid, Finset.empty_union, Finset.union_comm]

variable (setup io) in
/-- What a worker promises of the blocks of its loads. -/
structure Honest (worker : MultiNodeSlabConnectorWorker groups) : Prop where
  blocks : ∀ metadata ∈ worker.metadata :: worker.sent, ∀ id items, metadata.completedJobs.get? id ≠ none →
    worker.controller.accepted.get? id = some (false, items) → ByGroup setup items → ∀ item ∈ items,
      Delivered setup worker.controller id item ∨
        (item.2 ∈ worker.invalidBlockIds ∪ worker.handedOut ∧ id ∈ metadata.failedJobs)
  spoiled : ∀ metadata ∈ worker.metadata :: worker.sent, ∀ id, metadata.completedJobs.get? id ≠ none →
    (worker.controller.spoiled id).Nonempty →
      worker.controller.spoiled id ⊆ worker.invalidBlockIds ∪ worker.handedOut ∧ id ∈ metadata.failedJobs
  writes : ∀ write ∈ worker.controller.gpuLog, Genuine setup worker.controller write
  reads : ∀ fetch ∈ worker.controller.fetched, ReadBySlab setup io fetch

theorem Faithful.honest (faithful : worker.Faithful setup io) : worker.Honest setup io := by
  have spoiled : ∀ metadata ∈ worker.metadata :: worker.sent, ∀ id, metadata.completedJobs.get? id ≠ none →
      (worker.controller.spoiled id).Nonempty →
        worker.controller.spoiled id ⊆ worker.invalidBlockIds ∪ worker.handedOut ∧ id ∈ metadata.failedJobs := by
    intro metadata there id completed some
    obtain ⟨result, inside, rfl, noted⟩ := faithful.recorded metadata there id completed
    refine ⟨faithful.invalid ▸ faithful.taken result inside, noted ?_⟩
    have failed := faithful.verified.truthful.failed _ some
    have success := faithful.verified.sound.balanced.success result (List.mem_append_left _ inside)
    exact Bool.eq_false_iff.mpr fun good => success.mp good failed
  refine ⟨?_, spoiled, faithful.verified.truthful.genuine, faithful.served⟩
  intro metadata there id items completed known sorted item listed
  obtain ⟨result, inside, rfl, -⟩ := faithful.recorded metadata there id completed
  rcases faithful.verified.settled (List.mem_append_left _ inside) known sorted listed with lost | delivered
  · obtain ⟨within, failed⟩ := spoiled metadata there _ completed ⟨_, lost⟩
    exact .inr ⟨within lost, failed⟩
  · exact .inl delivered

/-- In every run of jobs, pumps, reads, copies and calls of the connector in any order: each block of
a load that the worker reported completed either got the pages that a `SlabIO.read` of its own key
returned, or is among the invalid blocks with the job among the failed ones; and each block that was
written at all got such pages. -/
theorem blocks_verified_or_invalid (setup : Setup (List UInt8) groups) (byGroup : PagesByGroup setup)
    (io : SlabIo groups) (nBounce : Nat) (bounce : Buffer) (actions : List (WorkerAction groups))
    (worker : MultiNodeSlabConnectorWorker groups)
    (reached : Run.run (step setup io) (opened nBounce bounce) actions = some worker) : worker.Honest setup io :=
  (Run.run_invariant (step_faithful byGroup) (opened_faithful nBounce bounce) reached).honest

/-- One group with a page of one byte, and copies block by block. -/
def oneByte : Setup (List UInt8) 1 where
  group := fun _ => Fin.last 0
  groupLayout := fun _ => [(0, 1)]
  storeTasks := slabStoreTasks
  pages := groupPages fun _ => [(0, 1)]

theorem oneByte_pages : PagesByGroup oneByte := fun _ _ _ _ => .refl _

def twoSlots : SlabIo 1 := ⟨fun _ => 4096, fun _ => 2, 0⟩

def firstKey : List UInt8 := List.replicate 36 1

/-- The first of the two slots holds a block of the first key. -/
def firstStored : Disk 1 :=
  (twoSlots.write (fun _ => some (Fin.last 0)) (fun _ => .empty) firstKey 0 [[9]] 1 (some 0) [128, 1, 128]).1

/-- A load of two blocks through one bounce slot, of which only the first one is on the disk. -/
def secondMissing : List (WorkerAction 1) :=
  [.load 5 "request" [40, 41] ⟨[firstKey, List.replicate 36 2], [0, 1], 0, 0⟩, .poll [], .poll [], .poll [], .poll [],
    .chunks, .poll [], .read 1 0 firstStored [128, 1] [], .poll [], .poll [(1, true)], .run 2 0 true [],
    .poll [(2, true)], .chunks, .poll [], .read 3 0 firstStored [128, 1] [7], .poll [], .poll [(3, false)], .poll [],
    .chunks, .getFinished, .buildMetadata, .takeInvalidBlockIds]

set_option maxRecDepth 100000 in
theorem blocks_verified_or_invalid_secondMissing :
    ∃ worker, Run.run (step oneByte twoSlots) (opened 1 fun _ _ _ => 0) secondMissing = some worker ∧
      worker.Honest oneByte twoSlots ∧ worker.controller.gpuLog = [⟨5, 0, 40, [9]⟩] ∧ worker.handedOut = {41} ∧
        worker.sent.map WorkerMetadata.failedJobs = [{5}] := by
  have ends : (Run.run (step oneByte twoSlots) (opened 1 fun _ _ _ => 0) secondMissing).map (fun worker =>
      (worker.controller.gpuLog, worker.handedOut, worker.sent.map WorkerMetadata.failedJobs)) =
        some ([⟨5, 0, 40, [9]⟩], {41}, [{5}]) := by decide +kernel
  obtain ⟨worker, reached, same⟩ := Option.map_eq_some_iff.mp ends
  obtain ⟨log, taken⟩ := Prod.mk.inj same
  obtain ⟨invalid, failed⟩ := Prod.mk.inj taken
  exact ⟨worker, reached,
    blocks_verified_or_invalid oneByte oneByte_pages twoSlots 1 (fun _ _ _ => 0) secondMissing worker reached,
    log, invalid, failed⟩

end MultiNodeSlabConnectorWorker

end DgxSpark.Bounce

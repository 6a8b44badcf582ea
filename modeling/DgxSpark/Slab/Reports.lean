import DgxSpark.Slab.Capacity

/-
This file embeds how the completion reports of the workers reach the scheduler: the metadata and
its `aggregate`, and `_FailureAwareScheduler.update_connector_output` over the completion loop of
`OffloadingConnectorScheduler`.
-/

namespace DgxSpark.Slab

open SlabOffloadingManager

/-- `MultiNodeWorkerMetadata`: completions by job, and the jobs that failed. -/
structure WorkerMetadata where
  completedJobs : OrderedDict Nat Nat
  failedJobs : Finset Nat

namespace WorkerMetadata

def empty : WorkerMetadata := ⟨.empty, ∅⟩

/-- The completions that the metadata reports for a job. -/
def count (report : WorkerMetadata) (job : Nat) : Nat := (report.completedJobs.get? job).getD 0

def markCompleted (report : WorkerMetadata) (job : Nat) : WorkerMetadata :=
  { report with completedJobs := report.completedJobs.set job (report.count job + 1) }

/-- One result of `get_finished`: a failure is noted before the completion is counted. -/
def record (report : WorkerMetadata) (job : Nat) (success : Bool) : WorkerMetadata :=
  let noted := if success then report else { report with failedJobs := insert job report.failedJobs }
  noted.markCompleted job

variable (merge : OrderedDict Nat Nat → OrderedDict Nat Nat → OrderedDict Nat Nat)

/-- `aggregate`: the base class merges the completions, the failures are united. -/
def aggregate (self other : WorkerMetadata) : WorkerMetadata where
  completedJobs := merge self.completedJobs other.completedJobs
  failedJobs := self.failedJobs ∪ other.failedJobs

/-- The base `aggregate` adds up the completions of each job. -/
def AddsCounts : Prop := ∀ first second job, (merge first second).get? job =
  Option.merge (fun here there => here + there) (first.get? job) (second.get? job)

end WorkerMetadata

structure TransferJobStatus (Key : Type) where
  pendingCount : Int
  keys : List Key
  isStore : Bool

/-- The scheduler side of the connector: the manager and the jobs in flight. -/
structure FailureAwareScheduler (Key : Type) (groups : Nat) where
  manager : SlabOffloadingManager Key groups
  jobs : OrderedDict Nat (TransferJobStatus Key)
  jobCounter : Nat
  staleJobThreshold : Nat

variable {Key : Type} [DecidableEq Key] {groups workers : Nat}

namespace FailureAwareScheduler

variable (group : Key → Fin groups)

/-- A failed job that is still in flight marks its keys. -/
def markFailed (scheduler : FailureAwareScheduler Key groups) (job : Nat) :
    FailureAwareScheduler Key groups :=
  match scheduler.jobs.get? job with
  | none => scheduler
  | some status =>
      if status.isStore then
        { scheduler with manager := scheduler.manager.markStoreFailed status.keys }
      else { scheduler with manager := scheduler.manager.markLoadFailed group status.keys }

/-- One entry of `completed_jobs`; the result is `none` where an assert or the job lookup raises. -/
def completeJob (scheduler : FailureAwareScheduler Key groups) (entry : Nat × Nat) :
    Option (FailureAwareScheduler Key groups) :=
  if entry.2 = 0 then none
  else if entry.1 < scheduler.staleJobThreshold then some scheduler
  else
    (scheduler.jobs.get? entry.1).bind fun status =>
      let pending := status.pendingCount - entry.2
      if 0 < pending then
        some { scheduler with jobs := scheduler.jobs.set entry.1 { status with pendingCount := pending } }
      else if pending = 0 then
        some { scheduler with
          manager :=
            if status.isStore then scheduler.manager.completeStore group status.keys true
            else scheduler.manager.completeLoad group status.keys
          jobs := scheduler.jobs.erase entry.1 }
      else none

/-- The completion loop of the base scheduler. -/
def completeJobs (scheduler : FailureAwareScheduler Key groups) (entries : List (Nat × Nat)) :
    Option (FailureAwareScheduler Key groups) := Run.run (completeJob group) scheduler entries

/-- `update_connector_output`: the failures, in any order of their set, come before the base loop. -/
def updateConnectorOutput (scheduler : FailureAwareScheduler Key groups) (report : WorkerMetadata)
    (failed : List Nat) : Option (FailureAwareScheduler Key groups) :=
  completeJobs group (failed.foldl (markFailed group) scheduler) report.completedJobs.entries

/-- A new job takes the next id and waits for every worker. -/
def addJob (scheduler : FailureAwareScheduler Key groups) (workers : Nat) (keys : List Key)
    (isStore : Bool) : FailureAwareScheduler Key groups :=
  { scheduler with
    jobs := scheduler.jobs.set scheduler.jobCounter ⟨workers, keys, isStore⟩
    jobCounter := scheduler.jobCounter + 1 }

end FailureAwareScheduler

/-- The scheduler, the workers with the metadata they gather, and the metadata on its way. What
follows records the run: which jobs each worker has reported, which jobs any worker reported
failed, what each load was told to read, and the keys that a failed load took out and no completed
store brought back. -/
structure Fleet (Key : Type) (groups workers : Nat) where
  scheduler : FailureAwareScheduler Key groups
  gathered : Fin workers → WorkerMetadata
  outbox : List WorkerMetadata
  reported : Fin workers → Finset Nat
  failed : Finset Nat
  specs : Nat → List (Key × Int)
  dropped : List Key

inductive FleetAction (Key : Type) (workers : Nat) where
  | lookup (key : Key)
  | touch (keys : List Key)
  | issueStore (keys listing : List Key)
  | issueLoad (keys listing : List Key)
  | finish (worker : Fin workers) (job : Nat) (success : Bool)
  | build (worker : Fin workers)
  | merge (first second : Nat)
  | deliver (place : Nat) (failed : List Nat)

namespace Fleet

variable (group : Key → Fin groups)
variable (merge : OrderedDict Nat Nat → OrderedDict Nat Nat → OrderedDict Nat Nat)

/-- An attached manager, no job, and workers that have nothing to report. -/
def opened (counts : Fin groups → Nat) (epoch : Int) (header : Fin groups → Nat → Option (Nat × Key)) :
    Fleet Key groups workers where
  scheduler := ⟨.attach counts epoch header, .empty, 0, 0⟩
  gathered := fun _ => .empty
  outbox := []
  reported := fun _ => ∅
  failed := ∅
  specs := fun _ => []
  dropped := []

/-- The keys that a failed job takes out of the index: those of a load. -/
def takenBy (scheduler : FailureAwareScheduler Key groups) (job : Nat) : List Key :=
  match scheduler.jobs.get? job with
  | none => []
  | some status => if status.isStore then [] else status.keys

def taken (scheduler : FailureAwareScheduler Key groups) (failed : List Nat) : List Key :=
  failed.flatMap (takenBy scheduler)

/-- The store of the key completed in a call, and no worker had failed it. -/
def Restored (fleet : Fleet Key groups workers) (after : FailureAwareScheduler Key groups) (key : Key) :
    Prop :=
  ∃ entry ∈ fleet.scheduler.jobs.entries, entry.2.isStore = true ∧ entry.1 ∉ fleet.failed ∧
    entry.1 ∉ after.jobs.keys ∧ key ∈ entry.2.keys

instance (fleet : Fleet Key groups workers) (after : FailureAwareScheduler Key groups) (key : Key) :
    Decidable (fleet.Restored after key) :=
  inferInstanceAs (Decidable (∃ entry ∈ fleet.scheduler.jobs.entries, entry.2.isStore = true ∧
    entry.1 ∉ fleet.failed ∧ entry.1 ∉ after.jobs.keys ∧ key ∈ entry.2.keys))

/-- A job is created with a listing of its key set. A worker finishes a job once. -/
def step (fleet : Fleet Key groups workers) : FleetAction Key workers → Option (Fleet Key groups workers)
  | .lookup key => some { fleet with
      scheduler := { fleet.scheduler with manager := (fleet.scheduler.manager.lookup group key).2 } }
  | .touch keys => some { fleet with
      scheduler := { fleet.scheduler with manager := fleet.scheduler.manager.touch group keys } }
  | .issueStore keys listing =>
      let (answer, manager) := fleet.scheduler.manager.prepareStore group keys
      let scheduler := { fleet.scheduler with manager := manager }
      match answer with
      | .store output =>
          if output.keysToStore = [] then some { fleet with scheduler := scheduler }
          else if listing.Perm output.keysToStore then
            some { fleet with scheduler := scheduler.addJob workers listing true }
          else none
      | _ => some { fleet with scheduler := scheduler }
  | .issueLoad keys listing =>
      let (spec, manager) := fleet.scheduler.manager.prepareLoad group keys
      let scheduler := { fleet.scheduler with manager := manager }
      if listing.Nodup ∧ listing.toFinset = keys.toFinset then
        some { fleet with
          scheduler := scheduler.addJob workers listing false
          specs := Function.update fleet.specs scheduler.jobCounter (spec.keys.zip spec.slots) }
      else none
  | .finish worker job success =>
      if job < fleet.scheduler.jobCounter ∧ job ∉ fleet.reported worker then
        some { fleet with
          gathered := Function.update fleet.gathered worker
            ((fleet.gathered worker).record job success)
          reported := Function.update fleet.reported worker (insert job (fleet.reported worker))
          failed := if success then fleet.failed else insert job fleet.failed }
      else none
  | .build worker =>
      if (fleet.gathered worker).completedJobs.entries = [] then some fleet
      else some { fleet with
        gathered := Function.update fleet.gathered worker .empty
        outbox := fleet.gathered worker :: fleet.outbox }
  | .merge first second =>
      (fleet.outbox[first]?).bind fun one =>
        ((fleet.outbox.eraseIdx first)[second]?).map fun other =>
          { fleet with outbox :=
              one.aggregate merge other :: (fleet.outbox.eraseIdx first).eraseIdx second }
  | .deliver place failed =>
      (fleet.outbox[place]?).bind fun report =>
        if failed.Nodup ∧ failed.toFinset = report.failedJobs then
          (fleet.scheduler.updateConnectorOutput group report failed).map fun scheduler =>
            { fleet with
              scheduler := scheduler
              outbox := fleet.outbox.eraseIdx place
              dropped := (taken fleet.scheduler failed ++ fleet.dropped).filter fun key =>
                ¬fleet.Restored scheduler key }
        else none

end Fleet

end DgxSpark.Slab

import DgxSpark.Offload.ConnectorJobs

/-
This file splits the calls of the connector into moves of its tables, each with what it adds to the history, and shows
that the tables agree after every move.
-/

namespace DgxSpark.Offload
open DgxSpark.Library

variable {config : SchedulerOffloadConfig} {ReqId Key Hash Source : Type}

/-- The tables of the connector, with the requests that have finished. -/
structure Books (config : SchedulerOffloadConfig) (ReqId Key : Type) where
  scheduler : OffloadingConnectorScheduler config ReqId Key
  finished : ReqId → Bool
  stale : Nat

def Connector.books (connector : Connector config ReqId Key Hash Source) : Books config ReqId Key :=
  ⟨connector.scheduler, fun reqId => (connector.view reqId).isFinished, connector.staleJobThreshold⟩

/-- What has happened, oldest first: the jobs as they were issued, the reports of the workers that counted, and the calls
to the manager. -/
structure History (ReqId Key : Type) where
  issued : List (Nat × TransferJobStatus ReqId Key)
  reports : List (Nat × Nat)
  calls : List (ManagerCall ReqId Key)

namespace History

def empty : History ReqId Key := ⟨[], [], []⟩

def append (first second : History ReqId Key) : History ReqId Key :=
  ⟨first.issued ++ second.issued, first.reports ++ second.reports, first.calls ++ second.calls⟩

@[simp] theorem append_empty (history : History ReqId Key) : history.append empty = history := by
  simp [append, empty]

@[simp] theorem empty_append (history : History ReqId Key) : empty.append history = history := by
  simp [append, empty]

theorem append_assoc (first second third : History ReqId Key) :
    (first.append second).append third = first.append (second.append third) := by
  simp [append]

end History

/-- The call that ends a job. -/
def ManagerCall.ending (jobId : Nat) (job : TransferJobStatus ReqId Key) : ManagerCall ReqId Key :=
  if job.isStore then .completeStore jobId job.reqId job.keys else .completeLoad jobId job.reqId job.keys

variable [DecidableEq ReqId]

/-- A move of the tables. -/
inductive Move : Books config ReqId Key → History ReqId Key → Books config ReqId Key → Prop where
  | kept {scheduler next : OffloadingConnectorScheduler config ReqId Key} {finished : ReqId → Bool} {stale : Nat}
      (transfers : ∀ reqId, next.transfers reqId = scheduler.transfers reqId) (jobs : next.jobs = scheduler.jobs)
      (pending : next.blockIdToPendingJobs = scheduler.blockIdToPendingJobs)
      (counter : next.jobCounter = scheduler.jobCounter) :
      Move ⟨scheduler, finished, stale⟩ .empty ⟨next, finished, stale⟩
  | added {scheduler : OffloadingConnectorScheduler config ReqId Key} {finished : ReqId → Bool} {stale : Nat}
      {reqId : ReqId} {status : RequestOffloadState config Key} (untracked : scheduler.transfers reqId = none)
      (running : finished reqId = false) (fresh : status.transferJobs = []) :
      Move ⟨scheduler, finished, stale⟩ .empty
        ⟨{ scheduler with reqStatus := scheduler.reqStatus.set reqId status }, finished, stale⟩
  | issued {scheduler next : OffloadingConnectorScheduler config ReqId Key} {finished : ReqId → Bool} {stale : Nat}
      {reqId : ReqId} {ids : List Nat} {job : TransferJobStatus ReqId Key} (named : scheduler.transfers reqId = some ids)
      (unfinished : finished reqId = false) (mine : job.reqId = reqId) (whole : job.pendingCount = config.numWorkers)
      (beside : ∀ jobId ∈ ids, job.isStore = true ∧
        ∃ other, scheduler.jobs.get? jobId = some other ∧ other.isStore = true)
      (transfers : ∀ other, next.transfers other =
        if other = reqId then some (ids.insert scheduler.jobCounter) else scheduler.transfers other)
      (jobs : next.jobs = scheduler.jobs.set scheduler.jobCounter job)
      (pending : next.blockIdToPendingJobs = (job.slidingWindowBlockIds.getD []).foldl
        (fun pending blockId => pending.enter blockId scheduler.jobCounter) scheduler.blockIdToPendingJobs)
      (counter : next.jobCounter = scheduler.jobCounter + 1) :
      Move ⟨scheduler, finished, stale⟩ ⟨[(scheduler.jobCounter, job)], [], []⟩ ⟨next, finished, stale⟩
  | counted {scheduler : OffloadingConnectorScheduler config ReqId Key} {finished : ReqId → Bool} {stale jobId count : Nat}
      {job : TransferJobStatus ReqId Key} (found : scheduler.jobs.get? jobId = some job) (part : count < job.pendingCount) :
      Move ⟨scheduler, finished, stale⟩ ⟨[], [(jobId, count)], []⟩
        ⟨{ scheduler with jobs := scheduler.jobs.set jobId { job with pendingCount := job.pendingCount - count } },
          finished, stale⟩
  | ended {scheduler next : OffloadingConnectorScheduler config ReqId Key} {finished : ReqId → Bool} {stale jobId : Nat}
      {job : TransferJobStatus ReqId Key} {ids : List Nat} (found : scheduler.jobs.get? jobId = some job)
      (named : scheduler.transfers job.reqId = some ids)
      (transfers : ∀ other, next.transfers other =
        if other = job.reqId then leftOver (finished job.reqId) (ids.erase jobId) else scheduler.transfers other)
      (jobs : next.jobs = scheduler.jobs.erase jobId) (counter : next.jobCounter = scheduler.jobCounter)
      (sets : next.blockIdToPendingJobs.Sets)
      (holds : ∀ blockId other, next.blockIdToPendingJobs.Holds blockId other ↔
        scheduler.blockIdToPendingJobs.Holds blockId other ∧
          ¬(other = jobId ∧ job.Watches (finished job.reqId) blockId)) :
      Move ⟨scheduler, finished, stale⟩
        ⟨[], [(jobId, job.pendingCount)],
          .ending jobId job :: if ids.erase jobId = [] ∧ finished job.reqId = true then [.onRequestFinished job.reqId] else []⟩
        ⟨next, finished, stale⟩
  | finished {scheduler next : OffloadingConnectorScheduler config ReqId Key} {finished : ReqId → Bool} {stale : Nat}
      {reqId : ReqId} {calls : List (ManagerCall ReqId Key)} (running : finished reqId = false)
      (waits : ∀ ids, next.transfers reqId = some ids →
        calls = [] ∧ ids ≠ [] ∧ ∀ jobId ∈ ids, stale ≤ jobId)
      (called : next.transfers reqId = none → calls = [.onRequestFinished reqId])
      (transfers : ∀ other, next.transfers other = scheduler.transfers other ∨
        (other = reqId ∧ scheduler.transfers reqId = some [] ∧ next.transfers other = none))
      (jobs : next.jobs = scheduler.jobs) (counter : next.jobCounter = scheduler.jobCounter)
      (sets : next.blockIdToPendingJobs.Sets)
      (holds : ∀ blockId jobId, next.blockIdToPendingJobs.Holds blockId jobId ↔
        scheduler.blockIdToPendingJobs.Holds blockId jobId ∨
          ∃ job, scheduler.jobs.get? jobId = some job ∧ job.reqId = reqId ∧
            blockId ∈ job.nonSlidingWindowBlockIds.getD []) :
      Move ⟨scheduler, finished, stale⟩ ⟨[], [], calls⟩ ⟨next, Function.update finished reqId true, stale⟩
  | reset {scheduler next : OffloadingConnectorScheduler config ReqId Key} {finished : ReqId → Bool} {stale : Nat}
      {ended : List ReqId} (once : ended.Nodup)
      (all : ∀ reqId, reqId ∈ ended ↔ finished reqId = true ∧ scheduler.transfers reqId ≠ none)
      (transfers : ∀ other, next.transfers other = if finished other = true then none else scheduler.transfers other)
      (jobs : next.jobs = .empty) (pending : next.blockIdToPendingJobs = .empty)
      (counter : next.jobCounter = scheduler.jobCounter) :
      Move ⟨scheduler, finished, stale⟩ ⟨[], [], ended.map .onRequestFinished ++ [.resetCache]⟩
        ⟨next, finished, scheduler.jobCounter⟩

/-- Moves one after another. -/
inductive Moves : Books config ReqId Key → History ReqId Key → Books config ReqId Key → Prop where
  | none (books : Books config ReqId Key) : Moves books .empty books
  | step {first middle last : Books config ReqId Key} {earlier later : History ReqId Key}
      (moves : Moves first earlier middle) (move : Move middle later last) : Moves first (earlier.append later) last

theorem Move.one {first last : Books config ReqId Key} {history : History ReqId Key} (move : Move first history last) :
    Moves first history last := by
  have moves := Moves.step (.none first) move
  rwa [History.empty_append] at moves

theorem Moves.trans {first middle last : Books config ReqId Key} {earlier later : History ReqId Key}
    (moves : Moves first earlier middle) (more : Moves middle later last) : Moves first (earlier.append later) last := by
  induction more with
  | none => rwa [History.append_empty]
  | step _ move ih =>
      rw [← History.append_assoc]
      exact .step ih move

/-- The tables of the books agree. -/
def Books.Tracked (books : Books config ReqId Key) : Prop :=
  DgxSpark.Offload.Tracked books.scheduler books.finished books.stale

theorem Move.tracked {first last : Books config ReqId Key} {history : History ReqId Key} (move : Move first history last)
    (tracked : first.Tracked) : last.Tracked := by
  cases move with
  | kept transfers jobs pending counter => exact tracked.congr transfers jobs pending counter
  | added untracked running fresh => exact tracked.add untracked running fresh
  | issued named unfinished mine _ beside transfers jobs pending counter =>
      exact tracked.issue named unfinished mine beside transfers jobs pending counter
  | counted found => exact tracked.count found _
  | ended found named transfers jobs counter sets holds =>
      exact tracked.ended found named transfers jobs counter sets holds
  | finished _ waits _ transfers jobs counter sets holds =>
      exact tracked.finish (fun ids named => (waits ids named).2) transfers jobs counter sets holds
  | reset _ _ transfers jobs pending counter => exact tracked.reset transfers jobs pending counter

theorem Moves.tracked {first last : Books config ReqId Key} {history : History ReqId Key} (moves : Moves first history last)
    (tracked : first.Tracked) : last.Tracked := by
  induction moves with
  | none => exact tracked
  | step _ move ih => exact move.tracked ih

/-- Each job that is issued takes a number. -/
theorem Move.counter {first last : Books config ReqId Key} {history : History ReqId Key} (move : Move first history last) :
    last.scheduler.jobCounter = first.scheduler.jobCounter + history.issued.length := by
  cases move with
  | kept _ _ _ counter => exact counter
  | added => rfl
  | issued _ _ _ _ _ _ _ _ counter => exact counter
  | counted => rfl
  | ended _ _ _ _ counter => exact counter
  | finished _ _ _ _ _ counter => exact counter
  | reset _ _ _ _ _ counter => exact counter

theorem Moves.counter {first last : Books config ReqId Key} {history : History ReqId Key}
    (moves : Moves first history last) :
    last.scheduler.jobCounter = first.scheduler.jobCounter + history.issued.length := by
  induction moves with
  | none => rfl
  | step _ move ih => rw [move.counter, ih, History.append, List.length_append, Nat.add_assoc]

end DgxSpark.Offload

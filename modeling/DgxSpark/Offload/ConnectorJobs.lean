import DgxSpark.Library.Fallible
import DgxSpark.Library.SetDict
import DgxSpark.Offload.Connector

/-
This file states what the connector's tables say of each other, and that issuing, counting and ending a job keep it.
-/

namespace DgxSpark.Offload
open DgxSpark.Library

variable {config : SchedulerOffloadConfig} {ReqId Key Hash Source Target : Type}

/-- The blocks that a job has watched: the windows' always, the others once its request has finished. -/
def TransferJobStatus.Watches (job : TransferJobStatus ReqId Key) (finished : Bool) (blockId : Nat) : Prop :=
  blockId ∈ job.slidingWindowBlockIds.getD [] ∨ (finished = true ∧ blockId ∈ job.nonSlidingWindowBlockIds.getD [])

/-- The jobs that a tracked request names. -/
def OffloadingConnectorScheduler.transfers [DecidableEq ReqId] (scheduler : OffloadingConnectorScheduler config ReqId Key)
    (reqId : ReqId) : Option (List Nat) :=
  (scheduler.reqStatus.get? reqId).map RequestOffloadState.transferJobs

variable [DecidableEq ReqId]

/-- The jobs, the requests that name them and the blocks that are watched for them agree. The jobs from before a reset are
named, but are not there. -/
structure Tracked (scheduler : OffloadingConnectorScheduler config ReqId Key) (finished : ReqId → Bool) (stale : Nat) :
    Prop where
  old : stale ≤ scheduler.jobCounter
  range : ∀ jobId job, scheduler.jobs.get? jobId = some job → stale ≤ jobId ∧ jobId < scheduler.jobCounter
  owned : ∀ jobId job, scheduler.jobs.get? jobId = some job →
    ∃ ids, scheduler.transfers job.reqId = some ids ∧ jobId ∈ ids
  known : ∀ reqId ids, scheduler.transfers reqId = some ids → ∀ jobId ∈ ids, stale ≤ jobId →
    ∃ job, scheduler.jobs.get? jobId = some job ∧ job.reqId = reqId
  past : ∀ reqId ids, scheduler.transfers reqId = some ids → ∀ jobId ∈ ids, jobId < scheduler.jobCounter
  once : ∀ reqId ids, scheduler.transfers reqId = some ids → ids.Nodup
  uniform : ∀ reqId ids, scheduler.transfers reqId = some ids →
    (∀ jobId ∈ ids, stale ≤ jobId) ∨ ∀ jobId ∈ ids, jobId < stale
  alone : ∀ jobId job, scheduler.jobs.get? jobId = some job → job.isStore = false →
    scheduler.transfers job.reqId = some [jobId]
  waits : ∀ reqId ids, scheduler.transfers reqId = some ids → finished reqId = true →
    ids ≠ [] ∧ ∀ jobId ∈ ids, stale ≤ jobId
  sets : scheduler.blockIdToPendingJobs.Sets
  watched : ∀ blockId jobId, scheduler.blockIdToPendingJobs.Holds blockId jobId ↔
    ∃ job, scheduler.jobs.get? jobId = some job ∧ job.Watches (finished job.reqId) blockId

variable {scheduler next : OffloadingConnectorScheduler config ReqId Key} {finished : ReqId → Bool} {stale : Nat}

/-- What leaves the jobs and the names of the requests alone keeps the tables. -/
theorem Tracked.congr (tracked : Tracked scheduler finished stale)
    (transfers : ∀ reqId, next.transfers reqId = scheduler.transfers reqId) (jobs : next.jobs = scheduler.jobs)
    (pending : next.blockIdToPendingJobs = scheduler.blockIdToPendingJobs)
    (counter : next.jobCounter = scheduler.jobCounter) : Tracked next finished stale := by
  obtain ⟨old, range, owned, known, past, once, uniform, alone, waits, sets, watched⟩ := tracked
  constructor
  · rw [counter]
    exact old
  · rw [jobs, counter]
    exact range
  · simpa only [jobs, transfers] using owned
  · simpa only [jobs, transfers] using known
  · simpa only [counter, transfers] using past
  · simpa only [transfers] using once
  · simpa only [transfers] using uniform
  · simpa only [jobs, transfers] using alone
  · simpa only [transfers] using waits
  · rw [pending]
    exact sets
  · simpa only [jobs, pending] using watched

theorem tracked_empty : Tracked (⟨.empty, .empty, .empty, 0⟩ : OffloadingConnectorScheduler config ReqId Key) finished 0 where
  old := Nat.le_refl _
  range _ _ found := by cases found
  owned _ _ found := by cases found
  known _ _ found := by cases found
  past _ _ found := by cases found
  once _ _ found := by cases found
  uniform _ _ found := by cases found
  alone _ _ found := by cases found
  waits _ _ found := by cases found
  sets := OrderedDict.sets_empty
  watched blockId jobId := by
    constructor
    · intro held
      exact absurd held (OrderedDict.holds_empty blockId jobId)
    · rintro ⟨job, found, _⟩
      cases found

theorem transfers_set {reqId other : ReqId} {status : RequestOffloadState config Key} :
    OffloadingConnectorScheduler.transfers { scheduler with reqStatus := scheduler.reqStatus.set reqId status } other =
      if other = reqId then some status.transferJobs else scheduler.transfers other := by
  unfold OffloadingConnectorScheduler.transfers
  simp only [OrderedDict.get?_set]
  split <;> rfl

theorem transfers_erase {reqId other : ReqId} :
    OffloadingConnectorScheduler.transfers { scheduler with reqStatus := scheduler.reqStatus.erase reqId } other =
      if other = reqId then none else scheduler.transfers other := by
  unfold OffloadingConnectorScheduler.transfers
  simp only [OrderedDict.get?_erase]
  split <;> rfl

/-- A status that names the same jobs may be replaced. -/
theorem Tracked.setStatus (tracked : Tracked scheduler finished stale) {reqId : ReqId}
    {status new : RequestOffloadState config Key} (found : scheduler.reqStatus.get? reqId = some status)
    (same : new.transferJobs = status.transferJobs) :
    Tracked { scheduler with reqStatus := scheduler.reqStatus.set reqId new } finished stale := by
  refine tracked.congr (fun other => ?_) rfl rfl rfl
  rw [transfers_set]
  split
  case isTrue equal =>
    rw [equal, OffloadingConnectorScheduler.transfers, found, same]
    rfl
  case isFalse => rfl

/-- A request that is not tracked has no jobs. -/
theorem Tracked.unnamed (tracked : Tracked scheduler finished stale) {reqId : ReqId}
    (untracked : scheduler.transfers reqId = none) {jobId : Nat} {job : TransferJobStatus ReqId Key}
    (found : scheduler.jobs.get? jobId = some job) : job.reqId ≠ reqId := by
  rintro rfl
  obtain ⟨ids, named, _⟩ := tracked.owned jobId job found
  rw [untracked] at named
  cases named

/-- A new request names no jobs. -/
theorem Tracked.add (tracked : Tracked scheduler finished stale) {reqId : ReqId}
    {status : RequestOffloadState config Key} (untracked : scheduler.transfers reqId = none)
    (running : finished reqId = false) (fresh : status.transferJobs = []) :
    Tracked { scheduler with reqStatus := scheduler.reqStatus.set reqId status } finished stale := by
  have apart : ∀ jobId job, scheduler.jobs.get? jobId = some job → job.reqId ≠ reqId :=
    fun jobId job found => tracked.unnamed untracked found
  have named : ∀ other ids, OffloadingConnectorScheduler.transfers
      { scheduler with reqStatus := scheduler.reqStatus.set reqId status } other = some ids →
        (other = reqId ∧ ids = []) ∨ (other ≠ reqId ∧ scheduler.transfers other = some ids) := by
    intro other ids named
    rw [transfers_set] at named
    split at named
    case isTrue same => exact .inl ⟨same, (Option.some.inj named).symm.trans fresh⟩
    case isFalse different => exact .inr ⟨different, named⟩
  have kept : ∀ jobId job, scheduler.jobs.get? jobId = some job → OffloadingConnectorScheduler.transfers
      { scheduler with reqStatus := scheduler.reqStatus.set reqId status } job.reqId = scheduler.transfers job.reqId := by
    intro jobId job found
    rw [transfers_set, if_neg (apart jobId job found)]
  obtain ⟨old, range, owned, known, past, once, uniform, alone, waits, sets, watched⟩ := tracked
  constructor
  · exact old
  · exact range
  · intro jobId job found
    rw [kept jobId job found]
    exact owned jobId job found
  · intro other ids given jobId member
    rcases named other ids given with ⟨_, rfl⟩ | ⟨_, given⟩
    · cases member
    · exact known other ids given jobId member
  · intro other ids given jobId member
    rcases named other ids given with ⟨_, rfl⟩ | ⟨_, given⟩
    · cases member
    · exact past other ids given jobId member
  · intro other ids given
    rcases named other ids given with ⟨_, rfl⟩ | ⟨_, given⟩
    · exact List.nodup_nil
    · exact once other ids given
  · intro other ids given
    rcases named other ids given with ⟨_, rfl⟩ | ⟨_, given⟩
    · exact .inl fun jobId member => by cases member
    · exact uniform other ids given
  · intro jobId job found load
    rw [kept jobId job found]
    exact alone jobId job found load
  · intro other ids given ended
    rcases named other ids given with ⟨rfl, _⟩ | ⟨_, given⟩
    · rw [running] at ended
      cases ended
    · exact waits other ids given ended
  · exact sets
  · exact watched

/-- The check of the pending jobs reads one of them. The others are of its kind. -/
theorem Tracked.pendingStores (tracked : Tracked scheduler finished stale) {reqId : ReqId}
    {status : RequestOffloadState config Key} (found : scheduler.reqStatus.get? reqId = some status)
    (checked : checkPending scheduler status = .ok ()) :
    ∀ jobId ∈ status.transferJobs, ∃ job, scheduler.jobs.get? jobId = some job ∧ job.isStore = true := by
  have named : scheduler.transfers reqId = some status.transferJobs := by
    rw [OffloadingConnectorScheduler.transfers, found]
    rfl
  intro jobId member
  unfold checkPending at checked
  cases first : status.transferJobs.head? with
  | none =>
      rw [List.head?_eq_none_iff.mp first] at member
      cases member
  | some anyJid =>
      simp only [first] at checked
      have among := List.mem_of_mem_head? first
      cases anyFound : scheduler.jobs.get? anyJid with
      | none =>
          simp only [anyFound] at checked
          cases checked
      | some any =>
          simp only [anyFound] at checked
          have store : any.isStore = true := by
            cases kind : any.isStore with
            | true => rfl
            | false =>
                rw [kind] at checked
                cases checked
          have fresh : stale ≤ jobId := by
            rcases tracked.uniform reqId _ named with live | dead
            · exact live jobId member
            · exact absurd (tracked.range anyJid any anyFound).1 (Nat.not_le.mpr (dead anyJid among))
          obtain ⟨job, jobFound, own⟩ := tracked.known reqId _ named jobId member fresh
          refine ⟨job, jobFound, ?_⟩
          by_contra load
          have load : job.isStore = false := by simpa using load
          -- A load is the only job of its request, and the head is a store.
          have single := tracked.alone jobId job jobFound load
          rw [own, named, Option.some.injEq] at single
          rw [single, List.mem_singleton] at among
          rw [among, jobFound] at anyFound
          cases anyFound
          rw [load] at store
          cases store

/-- A new job of a request: a store beside stores, or a load on its own. -/
theorem Tracked.issue (tracked : Tracked scheduler finished stale) {reqId : ReqId} {ids : List Nat}
    {job : TransferJobStatus ReqId Key} (named : scheduler.transfers reqId = some ids)
    (unfinished : finished reqId = false) (mine : job.reqId = reqId)
    (beside : ∀ jobId ∈ ids, job.isStore = true ∧ ∃ other, scheduler.jobs.get? jobId = some other ∧ other.isStore = true)
    (transfers : ∀ other, next.transfers other =
      if other = reqId then some (ids.insert scheduler.jobCounter) else scheduler.transfers other)
    (jobs : next.jobs = scheduler.jobs.set scheduler.jobCounter job)
    (pending : next.blockIdToPendingJobs = (job.slidingWindowBlockIds.getD []).foldl
      (fun pending blockId => pending.enter blockId scheduler.jobCounter) scheduler.blockIdToPendingJobs)
    (counter : next.jobCounter = scheduler.jobCounter + 1) : Tracked next finished stale := by
  have fresh : scheduler.jobs.get? scheduler.jobCounter = none := by
    cases found : scheduler.jobs.get? scheduler.jobCounter with
    | none => rfl
    | some other => exact absurd (tracked.range _ other found).2 (Nat.lt_irrefl _)
  have unlisted : scheduler.jobCounter ∉ ids := fun member =>
    absurd (tracked.past reqId ids named _ member) (Nat.lt_irrefl _)
  have added : ids.insert scheduler.jobCounter = scheduler.jobCounter :: ids := List.insert_of_not_mem unlisted
  have own : next.transfers reqId = some (scheduler.jobCounter :: ids) := by rw [transfers, if_pos rfl, added]
  have others : ∀ other, other ≠ reqId → next.transfers other = scheduler.transfers other :=
    fun other different => by rw [transfers, if_neg different]
  have held : ∀ jobId found, next.jobs.get? jobId = some found →
      (jobId = scheduler.jobCounter ∧ found = job) ∨
        (jobId ≠ scheduler.jobCounter ∧ scheduler.jobs.get? jobId = some found) := by
    intro jobId found present
    rw [jobs] at present
    exact OrderedDict.get?_set_cases present
  have kept : ∀ jobId found, scheduler.jobs.get? jobId = some found → next.jobs.get? jobId = some found := by
    intro jobId found present
    rw [jobs, OrderedDict.get?_set_of_ne _ _ (fun same => by rw [same, fresh] at present; cases present)]
    exact present
  have newest : next.jobs.get? scheduler.jobCounter = some job := by rw [jobs, OrderedDict.get?_set_self]
  have named' : ∀ other given, next.transfers other = some given →
      (other = reqId ∧ given = scheduler.jobCounter :: ids) ∨ (other ≠ reqId ∧ scheduler.transfers other = some given) := by
    intro other given there
    by_cases same : other = reqId
    · rw [same, own] at there
      exact .inl ⟨same, (Option.some.inj there).symm⟩
    · exact .inr ⟨same, by rwa [others other same] at there⟩
  have live : ∀ jobId ∈ ids, stale ≤ jobId := by
    intro jobId member
    obtain ⟨_, other, found, _⟩ := beside jobId member
    exact (tracked.range jobId other found).1
  constructor
  · rw [counter]
    exact tracked.old.trans (Nat.le_succ _)
  · intro jobId found present
    rw [counter]
    rcases held jobId found present with ⟨rfl, _⟩ | ⟨_, present⟩
    · exact ⟨tracked.old, Nat.lt_succ_self _⟩
    · obtain ⟨low, high⟩ := tracked.range jobId found present
      exact ⟨low, Nat.lt_succ_of_lt high⟩
  · intro jobId found present
    rcases held jobId found present with ⟨rfl, rfl⟩ | ⟨_, present⟩
    · exact ⟨_, by rw [mine, own], List.mem_cons_self⟩
    · obtain ⟨given, there, member⟩ := tracked.owned jobId found present
      by_cases same : found.reqId = reqId
      · rw [same, named, Option.some.injEq] at there
        exact ⟨_, by rw [same, own], List.mem_cons_of_mem _ (there ▸ member)⟩
      · exact ⟨given, by rw [others _ same, there], member⟩
  · intro other given there jobId member fresh'
    rcases named' other given there with ⟨rfl, rfl⟩ | ⟨_, there⟩
    · rcases List.mem_cons.mp member with rfl | member
      · exact ⟨job, newest, mine⟩
      · obtain ⟨found, present, own'⟩ := tracked.known other ids named jobId member fresh'
        exact ⟨found, kept jobId found present, own'⟩
    · obtain ⟨found, present, own'⟩ := tracked.known other given there jobId member fresh'
      exact ⟨found, kept jobId found present, own'⟩
  · intro other given there jobId member
    rw [counter]
    rcases named' other given there with ⟨rfl, rfl⟩ | ⟨_, there⟩
    · rcases List.mem_cons.mp member with rfl | member
      · exact Nat.lt_succ_self _
      · exact Nat.lt_succ_of_lt (tracked.past other ids named jobId member)
    · exact Nat.lt_succ_of_lt (tracked.past other given there jobId member)
  · intro other given there
    rcases named' other given there with ⟨rfl, rfl⟩ | ⟨_, there⟩
    · exact List.nodup_cons.mpr ⟨unlisted, tracked.once other ids named⟩
    · exact tracked.once other given there
  · intro other given there
    rcases named' other given there with ⟨rfl, rfl⟩ | ⟨_, there⟩
    · refine .inl fun jobId member => ?_
      rcases List.mem_cons.mp member with rfl | member
      · exact tracked.old
      · exact live jobId member
    · exact tracked.uniform other given there
  · intro jobId found present load
    rcases held jobId found present with ⟨rfl, rfl⟩ | ⟨_, present⟩
    · have none : ids = [] := by
        rw [List.eq_nil_iff_forall_not_mem]
        intro jobId member
        rw [(beside jobId member).1] at load
        cases load
      rw [mine, own, none]
    · have single := tracked.alone jobId found present load
      by_cases same : found.reqId = reqId
      · -- It would stand beside the new job, which is not beside loads.
        rw [same, named, Option.some.injEq] at single
        obtain ⟨_, other, there, store⟩ := beside jobId (by rw [single]; exact List.mem_singleton_self _)
        rw [there, Option.some.injEq] at present
        rw [present, load] at store
        cases store
      · rw [others _ same]
        exact single
  · intro other given there ended
    rcases named' other given there with ⟨rfl, rfl⟩ | ⟨_, there⟩
    · rw [unfinished] at ended
      cases ended
    · exact tracked.waits other given there ended
  · rw [pending]
    exact tracked.sets.enters _ _
  · intro blockId jobId
    rw [pending, OrderedDict.holds_enters, tracked.watched]
    constructor
    · rintro (⟨found, present, watches⟩ | ⟨member, rfl⟩)
      · exact ⟨found, kept jobId found present, watches⟩
      · exact ⟨job, newest, .inl member⟩
    · rintro ⟨found, present, watches⟩
      rcases held jobId found present with ⟨rfl, rfl⟩ | ⟨_, present⟩
      · rcases watches with member | ⟨ended, _⟩
        · exact .inr ⟨member, rfl⟩
        · rw [mine, unfinished] at ended
          cases ended
      · exact .inl ⟨found, present, watches⟩

/-- The count of a job may change. -/
theorem Tracked.count (tracked : Tracked scheduler finished stale) {jobId : Nat} {job : TransferJobStatus ReqId Key}
    (found : scheduler.jobs.get? jobId = some job) (pendingCount : Nat) :
    Tracked { scheduler with jobs := scheduler.jobs.set jobId { job with pendingCount := pendingCount } } finished stale := by
  have back : ∀ other here, (scheduler.jobs.set jobId { job with pendingCount := pendingCount }).get? other = some here →
      ∃ before, scheduler.jobs.get? other = some before ∧ here.reqId = before.reqId ∧ here.isStore = before.isStore ∧
        here.slidingWindowBlockIds = before.slidingWindowBlockIds ∧
          here.nonSlidingWindowBlockIds = before.nonSlidingWindowBlockIds := by
    intro other here present
    rcases OrderedDict.get?_set_cases present with ⟨rfl, rfl⟩ | ⟨_, present⟩
    · exact ⟨job, found, rfl, rfl, rfl, rfl⟩
    · exact ⟨here, present, rfl, rfl, rfl, rfl⟩
  have forth : ∀ other before, scheduler.jobs.get? other = some before →
      ∃ here, (scheduler.jobs.set jobId { job with pendingCount := pendingCount }).get? other = some here ∧
        here.reqId = before.reqId ∧ here.slidingWindowBlockIds = before.slidingWindowBlockIds ∧
          here.nonSlidingWindowBlockIds = before.nonSlidingWindowBlockIds := by
    intro other before present
    by_cases same : other = jobId
    · subst same
      rw [found] at present
      cases present
      exact ⟨_, OrderedDict.get?_set_self _ _ _, rfl, rfl, rfl⟩
    · exact ⟨before, by rw [OrderedDict.get?_set_of_ne _ _ same, present], rfl, rfl, rfl⟩
  obtain ⟨old, range, owned, known, past, once, uniform, alone, waits, sets, watched⟩ := tracked
  refine ⟨old, ?_, ?_, ?_, past, once, uniform, ?_, waits, sets, ?_⟩
  · intro other here present
    obtain ⟨before, present, _⟩ := back other here present
    exact range other before present
  · intro other here present
    obtain ⟨before, present, own, _⟩ := back other here present
    rw [own]
    exact owned other before present
  · intro reqId ids named other member fresh
    obtain ⟨before, present, own⟩ := known reqId ids named other member fresh
    obtain ⟨here, present, same, _⟩ := forth other before present
    exact ⟨here, present, same.trans own⟩
  · intro other here present load
    obtain ⟨before, present, own, kind, _⟩ := back other here present
    rw [own]
    exact alone other before present (kind ▸ load)
  · intro blockId other
    rw [watched]
    constructor
    · rintro ⟨before, present, watches⟩
      obtain ⟨here, present, own, windows, others⟩ := forth other before present
      refine ⟨here, present, ?_⟩
      rw [TransferJobStatus.Watches, own, windows, others]
      exact watches
    · rintro ⟨here, present, watches⟩
      obtain ⟨before, present, own, _, windows, others⟩ := back other here present
      refine ⟨before, present, ?_⟩
      rw [TransferJobStatus.Watches, ← own, ← windows, ← others]
      exact watches

namespace Connector

omit [DecidableEq ReqId]

/-- A job is removed where it is watched for a block. -/
theorem removePending_ok {jobId blockId : Nat} {pending after : OrderedDict Nat (List Nat)} :
    removePending jobId pending blockId = .ok after ↔ pending.Holds blockId jobId ∧ after = pending.leave blockId jobId := by
  unfold removePending OrderedDict.Holds OrderedDict.leave
  cases found : pending.get? blockId with
  | none => simp
  | some jobs =>
      simp only [Option.getD_some]
      by_cases member : jobId ∈ jobs
      · rw [if_pos member]
        split <;> simp [member, eq_comm]
      · rw [if_neg member]
        simp [member]

/-- A job that has been removed is watched for none of the blocks, and no other job is touched. -/
theorem removePendingJob_ok {jobId : Nat} {blockIds : Option (List Nat)} {pending after : OrderedDict Nat (List Nat)}
    (sets : pending.Sets) (removed : removePendingJob pending jobId blockIds = .ok after) :
    after.Sets ∧ ∀ blockId other, after.Holds blockId other ↔
      pending.Holds blockId other ∧ ¬(blockId ∈ blockIds.getD [] ∧ other = jobId) := by
  unfold removePendingJob at removed
  generalize blockIds.getD [] = blocks at removed
  induction blocks generalizing pending with
  | nil =>
      cases removed
      exact ⟨sets, fun blockId other => by simp⟩
  | cons first rest ih =>
      rw [List.foldlM_cons, Library.bind_ok] at removed
      obtain ⟨middle, taken, removed⟩ := removed
      obtain ⟨_, rfl⟩ := removePending_ok.mp taken
      obtain ⟨kept, holds⟩ := ih (sets.leave first jobId) removed
      refine ⟨kept, fun blockId other => ?_⟩
      rw [holds, OrderedDict.holds_leave sets, List.mem_cons]
      tauto

/-- A job that ends is watched for no block, and no other job is touched. -/
theorem unwatch_ok {jobId : Nat} {job : TransferJobStatus ReqId Key} {finished : Bool}
    {pending after : OrderedDict Nat (List Nat)} (sets : pending.Sets)
    (removed : unwatch pending jobId job finished = .ok after) :
    after.Sets ∧ ∀ blockId other, after.Holds blockId other ↔
      pending.Holds blockId other ∧ ¬(other = jobId ∧ job.Watches finished blockId) := by
  unfold unwatch at removed
  split at removed
  case isTrue none =>
    cases removed
    refine ⟨sets, fun blockId other => ⟨fun held => absurd held ?_, fun held => held.1⟩⟩
    rw [OrderedDict.Holds, OrderedDict.get?, none]
    exact List.not_mem_nil
  case isFalse =>
    obtain ⟨middle, windows, removed⟩ := Library.bind_ok.mp removed
    obtain ⟨sets, holds⟩ := removePendingJob_ok sets windows
    cases finished with
    | false =>
        cases removed
        refine ⟨sets, fun blockId other => ?_⟩
        rw [holds, TransferJobStatus.Watches]
        simp only [Bool.false_eq_true, false_and, or_false]
        tauto
    | true =>
        obtain ⟨sets, later⟩ := removePendingJob_ok sets removed
        refine ⟨sets, fun blockId other => ?_⟩
        rw [later, holds, TransferJobStatus.Watches]
        simp only [true_and]
        tauto

end Connector

/-- A request is given up once it has finished and names no job. -/
def leftOver (finished : Bool) (ids : List Nat) : Option (List Nat) := if ids = [] ∧ finished = true then none else some ids

/-- The end of a job takes it out of all tables. -/
theorem Tracked.ended (tracked : Tracked scheduler finished stale) {jobId : Nat} {job : TransferJobStatus ReqId Key}
    {ids : List Nat} (found : scheduler.jobs.get? jobId = some job) (named : scheduler.transfers job.reqId = some ids)
    (transfers : ∀ other, next.transfers other =
      if other = job.reqId then leftOver (finished job.reqId) (ids.erase jobId) else scheduler.transfers other)
    (jobs : next.jobs = scheduler.jobs.erase jobId) (counter : next.jobCounter = scheduler.jobCounter)
    (sets : next.blockIdToPendingJobs.Sets)
    (holds : ∀ blockId other, next.blockIdToPendingJobs.Holds blockId other ↔
      scheduler.blockIdToPendingJobs.Holds blockId other ∧
        ¬(other = jobId ∧ job.Watches (finished job.reqId) blockId)) : Tracked next finished stale := by
  have held : ∀ other found, next.jobs.get? other = some found → other ≠ jobId ∧ scheduler.jobs.get? other = some found := by
    intro other found present
    rw [jobs, OrderedDict.get?_erase] at present
    split at present
    · cases present
    · exact ⟨‹_›, present⟩
  have kept : ∀ other found, other ≠ jobId → scheduler.jobs.get? other = some found → next.jobs.get? other = some found := by
    intro other found different present
    rw [jobs, OrderedDict.get?_erase_of_ne _ different, present]
  have once := tracked.once job.reqId ids named
  have erased : ∀ other, other ∈ ids.erase jobId ↔ other ≠ jobId ∧ other ∈ ids := fun other => once.mem_erase_iff
  have back : ∀ other given, next.transfers other = some given →
      (other = job.reqId ∧ given = ids.erase jobId ∧ (finished job.reqId = true → given ≠ [])) ∨
        (other ≠ job.reqId ∧ scheduler.transfers other = some given) := by
    intro other given there
    rw [transfers] at there
    split at there
    case isTrue same =>
      unfold leftOver at there
      split at there
      · cases there
      · rename_i more
        cases there
        exact .inl ⟨same, rfl, fun ended none => more ⟨none, ended⟩⟩
    case isFalse different => exact .inr ⟨different, there⟩
  -- What is named after the end was named before.
  have subset : ∀ other given, next.transfers other = some given →
      ∃ before, scheduler.transfers other = some before ∧ given.Sublist before := by
    intro other given there
    rcases back other given there with ⟨rfl, rfl, _⟩ | ⟨_, there⟩
    · exact ⟨ids, named, List.erase_sublist⟩
    · exact ⟨given, there, .refl _⟩
  constructor
  · rw [counter]
    exact tracked.old
  · intro other found present
    rw [counter]
    exact tracked.range other found (held other found present).2
  · intro other here present
    obtain ⟨different, present⟩ := held other here present
    obtain ⟨given, there, member⟩ := tracked.owned other here present
    by_cases same : here.reqId = job.reqId
    · rw [same, named, Option.some.injEq] at there
      have left : other ∈ ids.erase jobId := (erased other).mpr ⟨different, there ▸ member⟩
      refine ⟨ids.erase jobId, ?_, left⟩
      rw [transfers, if_pos same, leftOver, if_neg (fun none => List.ne_nil_of_mem left none.1)]
    · exact ⟨given, by rw [transfers, if_neg same, there], member⟩
  · intro reqId given there other member fresh
    have different : other ≠ jobId := by
      rintro rfl
      rcases back reqId given there with ⟨_, rfl, _⟩ | ⟨apart, there⟩
      · exact ((erased other).mp member).1 rfl
      · obtain ⟨here, present, own⟩ := tracked.known reqId given there other member fresh
        rw [found, Option.some.injEq] at present
        exact apart (by rw [← own, present])
    obtain ⟨before, there, sub⟩ := subset reqId given there
    obtain ⟨here, present, own⟩ := tracked.known reqId before there other (sub.subset member) fresh
    exact ⟨here, kept other here different present, own⟩
  · intro reqId given there other member
    obtain ⟨before, there, sub⟩ := subset reqId given there
    rw [counter]
    exact tracked.past reqId before there other (sub.subset member)
  · intro reqId given there
    obtain ⟨before, there, sub⟩ := subset reqId given there
    exact (tracked.once reqId before there).sublist sub
  · intro reqId given there
    obtain ⟨before, there, sub⟩ := subset reqId given there
    rcases tracked.uniform reqId before there with live | dead
    · exact .inl fun other member => live other (sub.subset member)
    · exact .inr fun other member => dead other (sub.subset member)
  · intro other here present load
    obtain ⟨different, present⟩ := held other here present
    have single := tracked.alone other here present load
    by_cases same : here.reqId = job.reqId
    · -- The job that ends stands beside no load.
      rw [same, named, Option.some.injEq] at single
      obtain ⟨given, there, member⟩ := tracked.owned jobId job found
      rw [named, Option.some.injEq] at there
      rw [← there, single, List.mem_singleton] at member
      exact absurd member.symm different
    · rw [transfers, if_neg same, single]
  · intro reqId given there ended
    rcases back reqId given there with ⟨rfl, rfl, more⟩ | ⟨_, there⟩
    · exact ⟨more ended, fun other member =>
        (tracked.waits job.reqId ids named ended).2 other ((erased other).mp member).2⟩
    · exact tracked.waits reqId given there ended
  · exact sets
  · intro blockId other
    rw [holds, tracked.watched]
    constructor
    · rintro ⟨⟨here, present, watches⟩, apart⟩
      have different : other ≠ jobId := by
        rintro rfl
        rw [found, Option.some.injEq] at present
        exact apart ⟨rfl, present ▸ watches⟩
      exact ⟨here, kept other here different present, watches⟩
    · rintro ⟨here, present, watches⟩
      obtain ⟨different, present⟩ := held other here present
      exact ⟨⟨here, present, watches⟩, fun same => different same.1⟩

/-- A request that has finished is given up, or the blocks of its jobs are watched. -/
theorem Tracked.finish (tracked : Tracked scheduler finished stale) {reqId : ReqId}
    (waits : ∀ ids, next.transfers reqId = some ids → ids ≠ [] ∧ ∀ jobId ∈ ids, stale ≤ jobId)
    (transfers : ∀ other, next.transfers other = scheduler.transfers other ∨
      (other = reqId ∧ scheduler.transfers reqId = some [] ∧ next.transfers other = none))
    (jobs : next.jobs = scheduler.jobs) (counter : next.jobCounter = scheduler.jobCounter)
    (sets : next.blockIdToPendingJobs.Sets)
    (holds : ∀ blockId jobId, next.blockIdToPendingJobs.Holds blockId jobId ↔
      scheduler.blockIdToPendingJobs.Holds blockId jobId ∨
        ∃ job, scheduler.jobs.get? jobId = some job ∧ job.reqId = reqId ∧
          blockId ∈ job.nonSlidingWindowBlockIds.getD []) :
    Tracked next (Function.update finished reqId true) stale := by
  have back : ∀ other ids, next.transfers other = some ids → scheduler.transfers other = some ids := by
    intro other ids there
    rcases transfers other with same | ⟨_, _, none⟩
    · exact same.symm.trans there
    · rw [none] at there
      cases there
  have forth : ∀ other ids, scheduler.transfers other = some ids → ids ≠ [] → next.transfers other = some ids := by
    intro other ids there some
    rcases transfers other with same | ⟨rfl, empty, _⟩
    · exact same.trans there
    · rw [empty, Option.some.injEq] at there
      exact absurd there.symm some
  constructor
  · rw [counter]
    exact tracked.old
  · rw [jobs, counter]
    exact tracked.range
  · rw [jobs]
    intro jobId job found
    obtain ⟨ids, there, member⟩ := tracked.owned jobId job found
    exact ⟨ids, forth _ ids there (List.ne_nil_of_mem member), member⟩
  · rw [jobs]
    exact fun other ids there => tracked.known other ids (back other ids there)
  · rw [counter]
    exact fun other ids there => tracked.past other ids (back other ids there)
  · exact fun other ids there => tracked.once other ids (back other ids there)
  · exact fun other ids there => tracked.uniform other ids (back other ids there)
  · rw [jobs]
    exact fun jobId job found load => forth _ _ (tracked.alone jobId job found load) (List.cons_ne_nil _ _)
  · intro other ids there ended
    by_cases same : other = reqId
    · subst same
      exact waits ids there
    · rw [Function.update_of_ne same] at ended
      exact tracked.waits other ids (back other ids there) ended
  · exact sets
  · intro blockId jobId
    rw [jobs, holds, tracked.watched]
    constructor
    · rintro (⟨job, found, watches⟩ | ⟨job, found, rfl, member⟩)
      · refine ⟨job, found, ?_⟩
        rcases watches with window | ⟨ended, member⟩
        · exact .inl window
        · refine .inr ⟨?_, member⟩
          by_cases same : job.reqId = reqId
          · rw [same, Function.update_self]
          · rw [Function.update_of_ne same, ended]
      · exact ⟨job, found, .inr ⟨Function.update_self _ _ _, member⟩⟩
    · rintro ⟨job, found, window | ⟨ended, member⟩⟩
      · exact .inl ⟨job, found, .inl window⟩
      · by_cases same : job.reqId = reqId
        · exact .inr ⟨job, found, same, member⟩
        · rw [Function.update_of_ne same] at ended
          exact .inl ⟨job, found, .inr ⟨ended, member⟩⟩

/-- A reset leaves the names of the jobs of the requests that go on. -/
theorem Tracked.reset (tracked : Tracked scheduler finished stale)
    (transfers : ∀ other, next.transfers other = if finished other = true then none else scheduler.transfers other)
    (jobs : next.jobs = .empty) (pending : next.blockIdToPendingJobs = .empty)
    (counter : next.jobCounter = scheduler.jobCounter) : Tracked next finished scheduler.jobCounter := by
  have back : ∀ other ids, next.transfers other = some ids →
      finished other ≠ true ∧ scheduler.transfers other = some ids := by
    intro other ids there
    rw [transfers] at there
    split at there
    · cases there
    · exact ⟨‹_›, there⟩
  have gone : ∀ jobId job, next.jobs.get? jobId ≠ some job := by
    intro jobId job found
    rw [jobs] at found
    cases found
  constructor
  · rw [counter]
  · exact fun jobId job found => absurd found (gone jobId job)
  · exact fun jobId job found => absurd found (gone jobId job)
  · intro other ids there jobId member fresh
    exact absurd (tracked.past other ids (back other ids there).2 jobId member) (Nat.not_lt.mpr fresh)
  · rw [counter]
    exact fun other ids there => tracked.past other ids (back other ids there).2
  · exact fun other ids there => tracked.once other ids (back other ids there).2
  · exact fun other ids there => .inr (tracked.past other ids (back other ids there).2)
  · exact fun jobId job found => absurd found (gone jobId job)
  · exact fun other ids there ended => absurd ended (back other ids there).1
  · rw [pending]
    exact OrderedDict.sets_empty
  · intro blockId jobId
    rw [pending]
    constructor
    · exact fun held => absurd held (OrderedDict.holds_empty blockId jobId)
    · rintro ⟨job, found, _⟩
      exact absurd found (gone jobId job)

end DgxSpark.Offload

import DgxSpark.Offload.ConnectorHeld

/-
This file shows that no store reads a block that was handed out again, unless the workers were told to flush it.
-/

namespace DgxSpark.Offload
open DgxSpark.Library

variable {config : SchedulerOffloadConfig} {ReqId Key Hash Source Target : Type} [DecidableEq ReqId]

namespace Connector

variable {connector after : Connector config ReqId Key Hash Source}

section Update

variable {makeOffloadKey : Hash → Nat → Key} {hashBlockSize : Nat}

/-- The blocks that a step hands out. -/
def handedOut (connector : Connector config ReqId Key Hash Source) (output : SchedulerOutput ReqId) (blockId : Nat) : Prop :=
  blockId ∈ connector.currentBatchAllocatedBlockIds ∨
    (blockId ≠ 0 ∧ ∃ data ∈ output.reqData, ∃ groups ∈ data.2.1, ∃ newBlocks ∈ groups, blockId ∈ newBlocks)

/-- A request's turn keeps the blocks that requests hold, unless it resumes. -/
theorem extendRequest_held {view : ReqId → RequestView Hash} {extended next : Extended config ReqId Key}
    {data : ReqId × Option (List (List Nat)) × Bool}
    (taken : extendRequest makeOffloadKey hashBlockSize view extended data = .ok next) {reqId : ReqId}
    (stays : data.2.2 = true → reqId ≠ data.1) :
    ((extended.reqStatus.get? reqId).map RequestOffloadState.heldBlockIds).getD [] ⊆
      ((next.reqStatus.get? reqId).map RequestOffloadState.heldBlockIds).getD [] := by
  obtain ⟨status, found, left, set, turn⟩ := extendRequest_ok taken
  have replaced : ∀ new : RequestOffloadState config Key, (data.2.2 = false → status.heldBlockIds ⊆ new.heldBlockIds) →
      ((extended.reqStatus.get? reqId).map RequestOffloadState.heldBlockIds).getD [] ⊆
        (((extended.reqStatus.set data.1 new).get? reqId).map RequestOffloadState.heldBlockIds).getD [] := by
    intro new grows
    rw [OrderedDict.get?_set]
    split
    case isTrue equal =>
      have fresh : data.2.2 = false := by
        cases resumes : data.2.2 with
        | false => rfl
        | true => exact absurd equal (stays resumes)
      rw [equal, found]
      exact grows fresh
    case isFalse => exact fun _ member => member
  have keyed : data.2.2 = false → status.heldBlockIds ⊆ left.heldBlockIds := by
    intro fresh
    rw [set, fresh, if_neg Bool.false_ne_true]
    exact RequestOffloadState.heldBlockIds_mapGroups fun _ _ _ _ _ member => member
  rcases turn with ⟨_, rfl⟩ | rfl
  · exact replaced left keyed
  · refine replaced _ fun fresh => List.Subset.trans (keyed fresh) (RequestOffloadState.heldBlockIds_mapGroups ?_)
    intro _ _ _ _ blockId member
    exact List.mem_append_left _ member

/-- The blocks of a window that are handed out again are given up. No other block is. -/
theorem updateReqStates_held {output : SchedulerOutput ReqId}
    (updated : connector.updateReqStates makeOffloadKey hashBlockSize output = .ok after) {reqId : ReqId}
    (stays : reqId ∉ ConnectorAction.resumed output) : connector.scheduler.held reqId ⊆ after.scheduler.held reqId := by
  obtain ⟨extended, folded, updated⟩ := Library.bind_ok.mp updated
  cases updated
  have grown : connector.scheduler.held reqId ⊆
      ((extended.reqStatus.get? reqId).map RequestOffloadState.heldBlockIds).getD [] := by
    have begun : connector.scheduler.held reqId ⊆
        ((connector.scheduler.reqStatus.get? reqId).map RequestOffloadState.heldBlockIds).getD [] := fun _ member => member
    refine foldlM_carries (fun _ (state : Extended config ReqId Key) => connector.scheduler.held reqId ⊆
      ((state.reqStatus.get? reqId).map RequestOffloadState.heldBlockIds).getD []) ?_ begun folded
    intro before data rest state next split grown taken
    refine List.Subset.trans grown (extendRequest_held taken fun resumes same => stays ?_)
    have member : data ∈ output.reqData := by rw [split]; simp
    exact List.mem_map.mpr ⟨data, List.mem_filter.mpr ⟨member, resumes⟩, same.symm⟩
  refine List.Subset.trans grown ?_
  simp only [OffloadingConnectorScheduler.held, OrderedDict.get?_filterMap]
  cases extended.reqStatus.get? reqId with
  | none => exact fun _ member => member
  | some status =>
      refine RequestOffloadState.heldBlockIds_mapGroups fun _ groupConfig _ full => ?_
      rw [full]
      exact fun _ member => member

theorem mem_union_fold {Item : Type} [DecidableEq Item] {items : List (List Item)} {start : List Item} {item : Item} :
    item ∈ items.foldl (fun all more => all ∪ more) start ↔ item ∈ start ∨ ∃ more ∈ items, item ∈ more := by
  induction items generalizing start with
  | nil => simp
  | cons first rest ih =>
      rw [List.foldl_cons, ih, List.mem_union_iff]
      simp [or_assoc]

theorem extendRequest_allocated {view : ReqId → RequestView Hash} {extended next : Extended config ReqId Key}
    {data : ReqId × Option (List (List Nat)) × Bool}
    (taken : extendRequest makeOffloadKey hashBlockSize view extended data = .ok next) {blockId : Nat} :
    blockId ∈ next.allocated ↔ blockId ∈ extended.allocated ∨
      (blockId ≠ 0 ∧ ∃ groups ∈ data.2.1, ∃ newBlocks ∈ groups, blockId ∈ newBlocks) := by
  have inside : (∃ newBlocks ∈ data.2.1.getD [], blockId ∈ newBlocks) ↔
      ∃ groups ∈ data.2.1, ∃ newBlocks ∈ groups, blockId ∈ newBlocks := by
    cases data.2.1 <;> simp
  obtain ⟨status, found, left, set, turn⟩ := extendRequest_ok taken
  rcases turn with ⟨none, rfl⟩ | rfl
  · rw [← inside, none]
    simp
  · have mapped := @mem_union_fold Nat _ ((data.2.1.getD []).map nonzero) extended.allocated blockId
    rw [List.foldl_map] at mapped
    rw [mapped, ← inside]
    simp [nonzero]
    tauto

/-- All blocks that the step hands out count. -/
theorem updateReqStates_allocated {output : SchedulerOutput ReqId}
    (updated : connector.updateReqStates makeOffloadKey hashBlockSize output = .ok after) {blockId : Nat} :
    blockId ∈ after.currentBatchAllocatedBlockIds ↔ connector.handedOut output blockId := by
  obtain ⟨extended, folded, updated⟩ := Library.bind_ok.mp updated
  cases updated
  have counted := foldlM_carries (fun done (state : Extended config ReqId Key) => blockId ∈ state.allocated ↔
    blockId ∈ connector.currentBatchAllocatedBlockIds ∨
      (blockId ≠ 0 ∧ ∃ data ∈ done, ∃ groups ∈ data.2.1, ∃ newBlocks ∈ groups, blockId ∈ newBlocks)) ?_ (by simp) folded
  · exact counted
  · intro before data rest state next _ counted taken
    rw [extendRequest_allocated taken, counted]
    constructor
    · rintro ((held | ⟨positive, other, member, new⟩) | ⟨positive, new⟩)
      · exact .inl held
      · exact .inr ⟨positive, other, List.mem_append_left _ member, new⟩
      · exact .inr ⟨positive, data, List.mem_append_right _ (List.mem_singleton_self _), new⟩
    · rintro (held | ⟨positive, other, member, new⟩)
      · exact .inl (.inl held)
      · rcases List.mem_append.mp member with member | member
        · exact .inl (.inr ⟨positive, other, member, new⟩)
        · exact .inr ⟨positive, List.mem_singleton.mp member ▸ new⟩

end Update

/-- The preempted requests add their jobs to those that are flushed. -/
theorem flushPreempted_ok {reqIds : List ReqId} {start flush : List Nat}
    (flushed : reqIds.foldlM connector.flushPreempted start = .ok flush) :
    start ⊆ flush ∧ ∀ reqId ∈ reqIds, ∀ ids, connector.scheduler.transfers reqId = some ids → ids ⊆ flush := by
  induction reqIds generalizing start with
  | nil =>
      cases flushed
      refine ⟨fun _ member => member, fun reqId member => ?_⟩
      cases member
  | cons first rest ih =>
      rw [List.foldlM_cons, Library.bind_ok] at flushed
      obtain ⟨middle, taken, flushed⟩ := flushed
      obtain ⟨grows, others⟩ := ih flushed
      unfold flushPreempted at taken
      have step : start ⊆ middle ∧ ∀ ids, connector.scheduler.transfers first = some ids → ids ⊆ middle := by
        split at taken
        case h_1 unknown =>
          cases taken
          refine ⟨fun _ member => member, fun ids named => ?_⟩
          rw [transfers_none.mpr unknown] at named
          cases named
        case h_2 status found =>
          split at taken
          case h_1 => cases taken
          case h_2 =>
            cases taken
            refine ⟨fun _ member => List.mem_union_iff.mpr (.inl member), fun ids named => ?_⟩
            rw [transfers_some found, Option.some.injEq] at named
            exact fun _ member => List.mem_union_iff.mpr (.inr (named ▸ member))
      refine ⟨List.Subset.trans step.1 grows, fun reqId member ids named => ?_⟩
      rcases List.mem_cons.mp member with rfl | member
      · exact List.Subset.trans (step.2 ids named) grows
      · exact others reqId member ids named

omit [DecidableEq ReqId] in
theorem mem_flushReallocated {start : List Nat} {jobId : Nat} : jobId ∈ connector.flushReallocated start ↔
    jobId ∈ start ∨ ∃ blockId ∈ connector.currentBatchAllocatedBlockIds,
      connector.scheduler.blockIdToPendingJobs.Holds blockId jobId := by
  have mapped := @mem_union_fold Nat _ (connector.currentBatchAllocatedBlockIds.map fun blockId =>
    (connector.scheduler.blockIdToPendingJobs.get? blockId).getD []) start jobId
  rw [List.foldl_map] at mapped
  unfold flushReallocated
  rw [mapped]
  simp [OrderedDict.Holds]

/-- What a step flushes, and what it leaves. -/
structure Flushed (connector next : Connector config ReqId Key Hash Source) (output : SchedulerOutput ReqId)
    (flush : List Nat) : Prop where
  carried : connector.currentBatchJobsToFlush ⊆ flush
  preempted : ∀ reqId ∈ output.preemptedReqIds, ∀ ids, connector.scheduler.transfers reqId = some ids → ids ⊆ flush
  handed : ∀ blockId, connector.handedOut output blockId →
    ∀ jobId, connector.scheduler.blockIdToPendingJobs.Holds blockId jobId → jobId ∈ flush
  held : ∀ reqId, reqId ∉ ConnectorAction.resumed output → connector.scheduler.held reqId ⊆ next.scheduler.held reqId
  jobs : ∀ jobId job, next.scheduler.jobs.get? jobId = some job → connector.scheduler.jobs.get? jobId = some job ∨
    (job.reqId ∈ output.numScheduledTokens.keys ∧ job.isStore = true ∧
      ∀ blockId ∈ job.nonSlidingWindowBlockIds.getD [], blockId ∈ next.scheduler.held job.reqId)
  view : next.view = connector.view
  stale : next.staleJobThreshold = connector.staleJobThreshold

theorem buildConnectorMeta_flushed [DecidableEq Key] {makeOffloadKey : Hash → Nat → Key} {hashBlockSize : Nat}
    {prepareStore : ReqId → List Key → Option (PrepareStoreOutput Key Target)} {output : SchedulerOutput ReqId}
    {metadata : ConnectorMetadata ReqId Source Target}
    (built : connector.buildConnectorMeta makeOffloadKey hashBlockSize prepareStore output = .ok (after, metadata)) :
    Flushed connector after output metadata.jobsToFlush := by
  obtain ⟨updated, refreshed, built⟩ := Library.bind_ok.mp built
  obtain ⟨preempted, flushed, built⟩ := Library.bind_ok.mp built
  obtain ⟨jobs, counter, pending, view, stale, flush, transfers⟩ := updateReqStates_ok refreshed
  obtain ⟨carried, named⟩ := flushPreempted_ok flushed
  simp only at built
  split at built
  case h_1 => cases built
  case h_2 scheduler storeJobs stored =>
    cases built
    have left := buildStoreJobs_stored stored
    refine ⟨?_, ?_, ?_, ?_, ?_, view, stale⟩
    · rw [← flush]
      exact fun jobId member => mem_flushReallocated.mpr (.inl (carried member))
    · intro reqId member ids there jobId inside
      exact mem_flushReallocated.mpr (.inl (named reqId member ids ((transfers reqId).trans there) inside))
    · intro blockId handed jobId watched
      refine mem_flushReallocated.mpr (.inr ⟨blockId, (updateReqStates_allocated refreshed).mpr handed, ?_⟩)
      rw [pending]
      exact watched
    · intro reqId stays
      rw [left.held]
      exact updateReqStates_held refreshed stays
    · intro jobId job found
      rcases left.jobs jobId job found with before | ⟨due, store, reads⟩
      · exact .inl (jobs ▸ before)
      · refine .inr ⟨due, store, fun blockId member => ?_⟩
        rw [left.held]
        exact reads blockId member

end Connector

section Custody

variable [DecidableEq Key] {makeOffloadKey : Hash → Nat → Key} {hashBlockSize : Nat} {mambaAlignSize : Option Nat}
  {connector next : Connector config ReqId Key Hash Source} {past : Past ReqId Key}

/-- The core scheduler looks up and resumes only requests that are preempted or have no job, and schedules none that is
preempted. -/
def Yielding (connector : Connector config ReqId Key Hash Source) (past : Past ReqId Key)
    (action : ConnectorAction ReqId Key Hash Source Target) : Prop :=
  Orderly connector action ∧
    match action with
    | .matched _ reqId _ => reqId ∈ past.preempted ∨ connector.scheduler.transfers reqId = some []
    | .built _ output =>
        (∀ reqId ∈ ConnectorAction.resumed output,
          reqId ∈ past.preempted ∨ connector.scheduler.transfers reqId = some []) ∧
          ∀ reqId ∈ output.numScheduledTokens.keys, reqId ∉ output.preemptedReqIds ∧
            (reqId ∈ past.preempted → reqId ∈ ConnectorAction.resumed output)
    | _ => True

/-- A job that was issued and has not ended, of requests that go on, that no one was told to flush. -/
structure Unflushed (connector : Connector config ReqId Key Hash Source) (past : Past ReqId Key)
    (entry : Nat × TransferJobStatus ReqId Key) : Prop where
  issued : entry ∈ past.history.issued
  open' : entry.1 ∉ past.history.ended
  fresh : connector.staleJobThreshold ≤ entry.1
  store : entry.2.isStore = true
  quiet : entry.1 ∉ past.flushed

/-- The blocks of a running store are held by its request. The stores of a preempted request, and the jobs from before a
reset, are flushed. -/
structure Custodial (connector : Connector config ReqId Key Hash Source) (past : Past ReqId Key) : Prop where
  held : ∀ entry, Unflushed connector past entry → (connector.view entry.2.reqId).isFinished = false →
    ∀ blockId ∈ entry.2.nonSlidingWindowBlockIds.getD [], blockId ∈ connector.scheduler.held entry.2.reqId
  parked : ∀ entry, Unflushed connector past entry → entry.2.reqId ∉ past.preempted
  dropped : ∀ entry ∈ past.history.issued, entry.1 ∉ past.history.ended → entry.1 < connector.staleJobThreshold →
    entry.1 ∈ past.flushed ∨ entry.1 ∈ connector.currentBatchJobsToFlush

omit [DecidableEq ReqId] [DecidableEq Key] in
theorem mem_numbered {before after : OffloadingConnectorScheduler config ReqId Key}
    {entry : Nat × TransferJobStatus ReqId Key} (member : entry ∈ numbered before after) :
    before.jobCounter ≤ entry.1 ∧ after.jobs.get? entry.1 = some entry.2 := by
  obtain ⟨jobId, inside, found⟩ := List.mem_filterMap.mp member
  obtain ⟨job, there, rfl⟩ := Option.map_eq_some_iff.mp found
  exact ⟨(List.mem_range'_1.mp inside).1, there⟩

omit [DecidableEq ReqId] [DecidableEq Key] in
theorem numberless {before after : OffloadingConnectorScheduler config ReqId Key}
    (same : after.jobCounter = before.jobCounter) : ∀ entry ∈ numbered before after, entry.2.isStore = false := by
  intro entry member
  rw [numbered_none same] at member
  cases member

/-- A call that flushes nothing leaves the blocks of the requests that have jobs, those set apart excepted, and issues no
store. -/
structure Still (connector next : Connector config ReqId Key Hash Source) (apart : ReqId → Prop) : Prop where
  held : ∀ reqId ids, ¬apart reqId → next.scheduler.transfers reqId = some ids → ids ≠ [] →
    connector.scheduler.held reqId ⊆ next.scheduler.held reqId
  loads : ∀ entry ∈ numbered connector.scheduler next.scheduler, entry.2.isStore = false
  finished : ∀ reqId, (next.view reqId).isFinished = false → (connector.view reqId).isFinished = false
  stale : next.staleJobThreshold = connector.staleJobThreshold
  batch : next.currentBatchJobsToFlush = connector.currentBatchJobsToFlush

variable {action : ConnectorAction ReqId Key Hash Source Target} {calls : List (ManagerCall ReqId Key)}
  {flush : List Nat}

omit [DecidableEq Key] in
/-- A live job is named by its request. -/
theorem Unflushed.named (kept : Kept connector past) {entry : Nat × TransferJobStatus ReqId Key}
    (unflushed : Unflushed connector past entry) :
    ∃ ids, connector.scheduler.transfers entry.2.reqId = some ids ∧ entry.1 ∈ ids := by
  rcases kept.accounts.settled entry unflushed.issued with ended | old | ⟨job, found⟩
  · exact absurd ended unflushed.open'
  · exact absurd unflushed.fresh (Nat.not_le.mpr old)
  · obtain ⟨first, issued, same, _⟩ := kept.accounts.live entry.1 job found
    have equal : first = entry.2 := by
      have nodup := kept.accounts.ids
      exact congrArg Prod.snd (List.inj_on_of_nodup_map nodup issued unflushed.issued rfl)
    obtain ⟨ids, named, member⟩ := kept.tracked.owned entry.1 job found
    rw [same, equal] at named
    exact ⟨ids, named, member⟩

omit [DecidableEq Key] in
theorem Custodial.still (custodial : Custodial connector past) (kept : Kept connector past)
    (kept' : Kept next (past.after connector next action calls [])) (still : Still connector next (· ∈ past.preempted))
    (quiet : action.preempted past.preempted = past.preempted) :
    Custodial next (past.after connector next action calls []) := by
  have ended : past.history.ended ⊆ (past.after connector next action calls []).history.ended := by
    rw [Past.after, History.ended_append]
    exact fun _ member => List.mem_append_left _ member
  have flushed : (past.after connector next action calls []).flushed = past.flushed := List.append_nil _
  have before : ∀ entry ∈ (past.after connector next action calls []).history.issued,
      entry ∈ past.history.issued ∨ (entry.2.isStore = false ∧ connector.scheduler.jobCounter ≤ entry.1) := by
    intro entry member
    rcases List.mem_append.mp member with member | member
    · exact .inl member
    · exact .inr ⟨still.loads entry member, (mem_numbered member).1⟩
  have earlier : ∀ entry, Unflushed next (past.after connector next action calls []) entry →
      Unflushed connector past entry := by
    intro entry unflushed
    refine ⟨?_, fun member => unflushed.open' (ended member), still.stale ▸ unflushed.fresh, unflushed.store,
      flushed ▸ unflushed.quiet⟩
    rcases before entry unflushed.issued with member | ⟨load, _⟩
    · exact member
    · rw [unflushed.store] at load
      cases load
  constructor
  · intro entry unflushed running blockId member
    have old := earlier entry unflushed
    obtain ⟨ids, named, inside⟩ := unflushed.named kept'
    exact still.held _ ids (custodial.parked entry old) named (List.ne_nil_of_mem inside)
      (custodial.held entry old (still.finished _ running) blockId member)
  · intro entry unflushed parked
    refine custodial.parked entry (earlier entry unflushed) ?_
    rw [← quiet]
    exact parked
  · intro entry member out below
    rw [still.stale] at below
    rw [flushed, still.batch]
    rcases before entry member with member | ⟨_, above⟩
    · exact custodial.dropped entry member (fun inside => out (ended inside)) below
    · have old : connector.staleJobThreshold ≤ connector.scheduler.jobCounter := kept.tracked.old
      exact absurd below (Nat.not_lt.mpr (old.trans above))

omit [DecidableEq ReqId] [DecidableEq Key] in
theorem resetCache_left (taken : connector.resetCache = .ok (next, calls)) :
    connector.currentBatchJobsToFlush = [] ∧ next.currentBatchJobsToFlush = connector.scheduler.jobs.keys ∧
      next.staleJobThreshold = connector.scheduler.jobCounter ∧
        next.scheduler.jobCounter = connector.scheduler.jobCounter := by
  unfold Connector.resetCache at taken
  split at taken
  case isTrue => cases taken
  case isFalse idle =>
    simp only [not_or, not_not] at idle
    cases taken
    exact ⟨idle.2.1, rfl, rfl, rfl⟩

omit [DecidableEq Key] in
/-- A reset has all jobs flushed. -/
theorem Custodial.reset (custodial : Custodial connector past) (kept : Kept connector past)
    (taken : connector.resetCache = .ok (next, calls)) :
    Custodial next (past.after connector next (.reset : ConnectorAction ReqId Key Hash Source Target) calls []) := by
  obtain ⟨idle, batch, stale, counter⟩ := resetCache_left taken
  have issued : (past.after connector next (.reset : ConnectorAction ReqId Key Hash Source Target) calls []).history.issued =
      past.history.issued := by
    rw [Past.after, History.append, numbered_none counter, List.append_nil]
  have ended : past.history.ended ⊆
      (past.after connector next (.reset : ConnectorAction ReqId Key Hash Source Target) calls []).history.ended := by
    rw [Past.after, History.ended_append]
    exact fun _ member => List.mem_append_left _ member
  have none : ∀ entry, ¬Unflushed next
      (past.after connector next (.reset : ConnectorAction ReqId Key Hash Source Target) calls []) entry := by
    intro entry unflushed
    have below := kept.accounts.range entry (issued ▸ unflushed.issued)
    exact absurd (stale ▸ unflushed.fresh) (Nat.not_le.mpr below)
  refine ⟨fun entry unflushed => absurd unflushed (none entry), fun entry unflushed => absurd unflushed (none entry), ?_⟩
  intro entry member out _
  rw [issued] at member
  rw [batch]
  rcases kept.accounts.settled entry member with inside | old | ⟨job, found⟩
  · exact absurd (ended inside) out
  · rcases custodial.dropped entry member (fun inside => out (ended inside)) old with flushed | waiting
    · exact .inl (List.mem_append_left _ flushed)
    · rw [idle] at waiting
      cases waiting
  · exact .inr (OrderedDict.mem_keys_iff.mpr ⟨job, found⟩)

omit [DecidableEq Key] in
/-- A step flushes what it must. -/
theorem Custodial.built (custodial : Custodial connector past) (kept : Kept connector past)
    {prepareStore : ReqId → List Key → Option (PrepareStoreOutput Key Target)} {output : SchedulerOutput ReqId}
    (yielding : Yielding connector past
      (.built prepareStore output : ConnectorAction ReqId Key Hash Source Target))
    (flushed : Connector.Flushed connector next output flush) :
    Custodial next (past.after connector next
      (.built prepareStore output : ConnectorAction ReqId Key Hash Source Target) [] flush) := by
  obtain ⟨_, resumes, schedules⟩ := yielding
  have ended : (past.after connector next
      (.built prepareStore output : ConnectorAction ReqId Key Hash Source Target) [] flush).history.ended =
        past.history.ended := by
    rw [Past.after, History.ended_append]
    exact List.append_nil _
  have quiet : ∀ jobId, jobId ∉ (past.after connector next
      (.built prepareStore output : ConnectorAction ReqId Key Hash Source Target) [] flush).flushed →
        jobId ∉ past.flushed ∧ jobId ∉ flush := by
    intro jobId out
    rw [Past.after, List.mem_append, not_or] at out
    exact out
  -- What is unflushed after the step was so before, or is a store of the step.
  have before : ∀ entry, Unflushed next (past.after connector next
      (.built prepareStore output : ConnectorAction ReqId Key Hash Source Target) [] flush) entry →
        Unflushed connector past entry ∨
          (entry.2.reqId ∈ output.numScheduledTokens.keys ∧
            ∀ blockId ∈ entry.2.nonSlidingWindowBlockIds.getD [], blockId ∈ next.scheduler.held entry.2.reqId) := by
    intro entry unflushed
    rcases List.mem_append.mp unflushed.issued with member | member
    · exact .inl ⟨member, ended ▸ unflushed.open', flushed.stale ▸ unflushed.fresh, unflushed.store,
        (quiet _ unflushed.quiet).1⟩
    · obtain ⟨above, found⟩ := mem_numbered member
      rcases flushed.jobs entry.1 entry.2 found with there | ⟨due, _, reads⟩
      · exact absurd (kept.tracked.range entry.1 entry.2 there).2 (Nat.not_lt.mpr above)
      · exact .inr ⟨due, reads⟩
  constructor
  · intro entry unflushed running blockId member
    rcases before entry unflushed with old | ⟨_, reads⟩
    · rw [flushed.view] at running
      refine flushed.held _ (fun resumed => ?_) (custodial.held entry old running blockId member)
      rcases resumes _ resumed with parked | idle
      · exact custodial.parked entry old parked
      · obtain ⟨ids, named, inside⟩ := old.named kept
        rw [idle, Option.some.injEq] at named
        rw [← named] at inside
        cases inside
    · exact reads blockId member
  · intro entry unflushed parked
    obtain ⟨among, fresh⟩ := List.mem_filter.mp parked
    have fresh : entry.2.reqId ∉ ConnectorAction.resumed output := by simpa using fresh
    rcases before entry unflushed with old | ⟨due, _⟩
    · rcases List.mem_append.mp among with early | now
      · exact custodial.parked entry old early
      · obtain ⟨ids, named, inside⟩ := old.named kept
        exact (quiet _ unflushed.quiet).2 (flushed.preempted _ now ids named inside)
    · obtain ⟨stays, again⟩ := schedules _ due
      rcases List.mem_append.mp among with early | now
      · exact fresh (again early)
      · exact stays now
  · intro entry member out below
    rw [ended] at out
    rw [flushed.stale] at below
    have old : connector.staleJobThreshold ≤ connector.scheduler.jobCounter := kept.tracked.old
    rcases List.mem_append.mp member with member | member
    · rcases custodial.dropped entry member out below with done | waiting
      · exact .inl (List.mem_append_left _ done)
      · exact .inl (List.mem_append_right _ (flushed.carried waiting))
    · exact absurd below (Nat.not_lt.mpr (old.trans (mem_numbered member).1))

omit [DecidableEq Key] in
/-- A status that is set leaves the other requests' blocks, and its own if it holds them still. -/
theorem still_set {reqId : ReqId} {status new : RequestOffloadState config Key} {apart : ReqId → Prop}
    {view : ReqId → RequestView Hash} (found : connector.scheduler.reqStatus.get? reqId = some status)
    (named : new.transferJobs = status.transferJobs)
    (held : apart reqId ∨ status.transferJobs = [] ∨ status.heldBlockIds ⊆ new.heldBlockIds)
    (finished : ∀ other, (view other).isFinished = false → (connector.view other).isFinished = false) :
    Still connector { connector.setStatus reqId new with view := view } apart where
  held other ids out there some := by
    have left : (connector.setStatus reqId new).scheduler.reqStatus = connector.scheduler.reqStatus.set reqId new := rfl
    have blocks := held_of left other
    change _ ⊆ (connector.setStatus reqId new).scheduler.held other
    rw [blocks]
    split
    case isFalse => exact fun _ member => member
    case isTrue same =>
      rw [same, held_some found]
      rcases held with excepted | idle | grows
      · exact absurd (same ▸ excepted) out
      · have names := transfers_of left other
        change (connector.setStatus reqId new).scheduler.transfers other = Option.some ids at there
        rw [names, if_pos same, named, idle, Option.some.injEq] at there
        exact absurd there.symm some
      · exact grows
  loads := numberless rfl
  finished := finished
  stale := rfl
  batch := rfl

omit [DecidableEq Key] in
/-- A request that goes on after its view changed did so before. -/
theorem running_update {view : ReqId → RequestView Hash} {reqId : ReqId} {changed : RequestView Hash}
    (goes : changed.isFinished = false → (view reqId).isFinished = false) (other : ReqId)
    (running : (Function.update view reqId changed other).isFinished = false) : (view other).isFinished = false := by
  by_cases same : other = reqId
  · subst same
    rw [Function.update_self] at running
    exact goes running
  · rw [Function.update_of_ne same] at running
    exact running

theorem getNumNewMatchedTokens_still {manager : Key → Option Bool} {reqId : ReqId} {numComputedTokens : Nat}
    {numHitTokens : Option Nat} {apart : ReqId → Prop}
    (waiting : apart reqId ∨ connector.scheduler.transfers reqId = some [])
    (matched : connector.getNumNewMatchedTokens makeOffloadKey hashBlockSize mambaAlignSize manager reqId
      numComputedTokens = .ok (next, numHitTokens)) : Still connector next apart := by
  unfold Connector.getNumNewMatchedTokens at matched
  split at matched
  case h_1 => cases matched
  case h_2 status found =>
    have still : Still connector { connector.setStatus reqId
        ((status.clearBlockIds).updateOffloadKeys makeOffloadKey hashBlockSize (connector.view reqId).blockHashes) with
          view := Function.update connector.view reqId
            { connector.view reqId with numLocallyComputedTokens := numComputedTokens } } apart := by
      refine still_set found rfl ?_ (running_update fun goes => goes)
      rcases waiting with excepted | idle
      · exact .inl excepted
      · rw [transfers_some found, Option.some.injEq] at idle
        exact .inr (.inl idle)
    simp only at matched
    split at matched
    · cases matched
      exact still
    · split at matched
      · cases matched
        exact still
      · cases matched

theorem updateStateAfterAlloc_still {prepareLoad : List Key → Source} {reqId : ReqId}
    {blocks : List (List KVCacheBlock)} {numExternalTokens : Nat} {apart : ReqId → Prop}
    (loaded : connector.updateStateAfterAlloc prepareLoad reqId blocks numExternalTokens = .ok next) :
    Still connector next apart := by
  unfold Connector.updateStateAfterAlloc at loaded
  split at loaded
  case isTrue =>
    cases loaded
    exact ⟨fun _ _ _ _ _ _ member => member, numberless rfl, fun _ running => running, rfl, rfl⟩
  case isFalse =>
    split at loaded
    case h_1 => cases loaded
    case h_2 status found =>
      obtain ⟨parts, _, loaded⟩ := Library.bind_ok.mp loaded
      simp only at loaded
      split at loaded
      case isTrue => cases loaded
      case isFalse =>
        cases loaded
        refine ⟨fun other ids _ _ _ => ?_, fun entry member => ?_, fun _ running => running, rfl, rfl⟩
        · simp only [OffloadingConnectorScheduler.held, OrderedDict.get?_set]
          split
          case isFalse => exact fun _ member => member
          case isTrue same =>
            rw [same, found]
            have grows : status.heldBlockIds ⊆
                (status.mapGroups (skipLoaded parts (connector.view reqId).policy)).heldBlockIds := by
              refine RequestOffloadState.heldBlockIds_mapGroups fun groupIdx groupConfig groupState _ => ?_
              unfold skipLoaded
              split <;> exact fun _ member => member
            exact grows
        · rw [numbered_one rfl rfl] at member
          rw [List.mem_singleton.mp member]

/-- What reports leave of the requests that are still tracked. -/
structure Reported (connector next : Connector config ReqId Key Hash Source) : Prop where
  held : ∀ reqId, next.scheduler.reqStatus.get? reqId ≠ none → connector.scheduler.reqStatus.get? reqId ≠ none ∧
    next.scheduler.held reqId = connector.scheduler.held reqId
  view : next.view = connector.view
  batch : next.currentBatchJobsToFlush = connector.currentBatchJobsToFlush

theorem reportJob_left {jobId count : Nat} (taken : connector.reportJob jobId count = .ok (next, calls)) :
    Reported connector next := by
  unfold Connector.reportJob at taken
  split at taken
  · cases taken
  split at taken
  · cases taken
    exact ⟨fun _ there => ⟨there, rfl⟩, rfl, rfl⟩
  split at taken
  case h_1 => cases taken
  case h_2 job _ =>
    split at taken
    · cases taken
      exact ⟨fun _ there => ⟨there, rfl⟩, rfl, rfl⟩
    split at taken
    · cases taken
    unfold Connector.endJob at taken
    split at taken
    case h_1 => cases taken
    case h_2 status found =>
      obtain ⟨_, _, taken⟩ := Library.bind_ok.mp taken
      split at taken
      · cases taken
      · cases taken
        refine ⟨fun reqId => ?_, rfl, rfl⟩
        simp only [OffloadingConnectorScheduler.held]
        split
        case isTrue =>
          rw [OrderedDict.get?_erase]
          split
          · exact fun there => absurd rfl there
          · exact fun there => ⟨there, rfl⟩
        case isFalse =>
          rw [OrderedDict.get?_set]
          split
          · rename_i same
            rw [same, found]
            exact fun _ => ⟨Option.some_ne_none _, rfl⟩
          · exact fun there => ⟨there, rfl⟩

theorem updateConnectorOutput_still {completedJobs : OrderedDict Nat Nat} {apart : ReqId → Prop}
    (tracked : connector.books.Tracked) (taken : connector.updateConnectorOutput completedJobs = .ok (next, calls)) :
    Still connector next apart := by
  have left : Reported connector next := by
    refine foldlM_carries (fun _ (state : Connector config ReqId Key Hash Source × List (ManagerCall ReqId Key)) =>
      Reported connector state.1) ?_ ⟨fun _ there => ⟨there, rfl⟩, rfl, rfl⟩ taken
    rintro before report rest ⟨state, made⟩ ⟨after, more⟩ _ left taken
    obtain ⟨⟨last, called⟩, reported, taken⟩ := Library.bind_ok.mp taken
    cases taken
    have turn := reportJob_left reported
    refine ⟨fun reqId there => ?_, turn.view.trans left.view, turn.batch.trans left.batch⟩
    obtain ⟨earlier, same⟩ := turn.held reqId there
    obtain ⟨first, equal⟩ := left.held reqId earlier
    exact ⟨first, same.trans equal⟩
  obtain ⟨moves, stale⟩ := Connector.updateConnectorOutput_moves tracked taken
  refine ⟨fun reqId ids _ named _ => ?_, numberless moves.counter, fun _ running => left.view ▸ running, stale, left.batch⟩
  have there : next.scheduler.reqStatus.get? reqId ≠ none := by
    intro gone
    rw [transfers_none.mpr gone] at named
    cases named
  rw [(left.held reqId there).2]
  exact fun _ member => member

omit [DecidableEq Key] in
theorem requestFinished_still {reqId : ReqId} {apart : ReqId → Prop}
    (taken : connector.requestFinished reqId = .ok (next, calls)) : Still connector next apart := by
  have running : ∀ other, (Function.update connector.view reqId { connector.view reqId with isFinished := true }
      other).isFinished = false → (connector.view other).isFinished = false :=
    running_update fun goes => by cases goes
  unfold Connector.requestFinished at taken
  simp only at taken
  split at taken
  case h_1 =>
    cases taken
    exact ⟨fun _ _ _ _ _ _ member => member, numberless rfl, running, rfl, rfl⟩
  case h_2 status found =>
    split at taken
    case isTrue =>
      cases taken
      refine ⟨fun other ids _ named _ => ?_, numberless rfl, running, rfl, rfl⟩
      simp only [OffloadingConnectorScheduler.held, OffloadingConnectorScheduler.transfers] at named ⊢
      rw [OrderedDict.get?_erase] at named ⊢
      split at named
      · cases named
      · rename_i different
        rw [if_neg different]
        exact fun _ member => member
    case isFalse =>
      obtain ⟨pending, _, taken⟩ := Library.bind_ok.mp taken
      cases taken
      exact ⟨fun _ _ _ _ _ _ member => member, numberless rfl, running, rfl, rfl⟩

omit [DecidableEq Key] in
theorem onNewRequest_still {reqId : ReqId} {apart : ReqId → Prop} (running : (connector.view reqId).isFinished = false)
    (req : Request) (view : RequestView Hash) (maxOffloadTokens : Option Nat) :
    Still connector (connector.onNewRequest reqId req view maxOffloadTokens) apart where
  held other ids _ named some := by
    simp only [OffloadingConnectorScheduler.held, OffloadingConnectorScheduler.transfers, Connector.onNewRequest,
      OrderedDict.get?_set] at named ⊢
    split at named
    · cases named
      exact absurd rfl some
    · rename_i different
      rw [if_neg different]
      exact fun _ member => member
  loads := numberless rfl
  finished := running_update fun _ => running
  stale := rfl
  batch := rfl

omit [DecidableEq Key] in
theorem refresh_still {reqId : ReqId} {apart : ReqId → Prop} (req : Request) (blockHashes : List Hash) :
    Still connector (connector.refresh reqId req blockHashes) apart := by
  have running : ∀ other, (Function.update connector.view reqId { connector.view reqId with blockHashes := blockHashes }
      other).isFinished = false → (connector.view other).isFinished = false :=
    running_update fun goes => goes
  unfold Connector.refresh
  cases found : connector.scheduler.reqStatus.get? reqId with
  | none => exact ⟨fun _ _ _ _ _ _ member => member, numberless rfl, running, rfl, rfl⟩
  | some status =>
      have same : ({ status with req := req } : RequestOffloadState config Key).heldBlockIds = status.heldBlockIds := rfl
      exact still_set found rfl (.inr (.inr (same ▸ fun _ member => member))) running

/-- Every call keeps the custody. -/
theorem Custodial.step (custodial : Custodial connector past) (kept : Kept connector past)
    (yielding : Yielding connector past action)
    (taken : connector.step makeOffloadKey hashBlockSize mambaAlignSize action = .ok (next, calls, flush)) :
    Custodial next (past.after connector next action calls flush) := by
  have kept' := kept.step yielding.1 taken
  cases action with
  | newRequest reqId req view maxOffloadTokens =>
      cases taken
      exact custodial.still kept kept' (onNewRequest_still yielding.1.2 req view maxOffloadTokens) rfl
  | refresh reqId req blockHashes =>
      cases taken
      exact custodial.still kept kept' (refresh_still req blockHashes) rfl
  | matched manager reqId numComputedTokens =>
      obtain ⟨⟨after, numHitTokens⟩, matched, taken⟩ := Library.bind_ok.mp taken
      cases taken
      exact custodial.still kept kept' (getNumNewMatchedTokens_still yielding.2 matched) rfl
  | allocated prepareLoad reqId blocks numExternalTokens =>
      obtain ⟨after, loaded, taken⟩ := Library.bind_ok.mp taken
      cases taken
      exact custodial.still kept kept' (updateStateAfterAlloc_still loaded) rfl
  | built prepareStore output =>
      obtain ⟨⟨after, metadata⟩, made, taken⟩ := Library.bind_ok.mp taken
      cases taken
      exact custodial.built kept yielding (Connector.buildConnectorMeta_flushed made)
  | completed completedJobs =>
      obtain ⟨⟨after, made⟩, reported, taken⟩ := Library.bind_ok.mp taken
      cases taken
      exact custodial.still kept kept' (updateConnectorOutput_still kept.tracked reported) rfl
  | finished reqId =>
      obtain ⟨⟨after, made⟩, ended, taken⟩ := Library.bind_ok.mp taken
      cases taken
      exact custodial.still kept kept' (requestFinished_still ended) rfl
  | reset =>
      obtain ⟨⟨after, made⟩, cleared, taken⟩ := Library.bind_ok.mp taken
      cases taken
      exact custodial.reset kept cleared

omit [DecidableEq Key] in
theorem custodial_start {view : ReqId → RequestView Hash} (blocksBeingLoaded : Option (List Key)) :
    Custodial (Connector.start view blocksBeingLoaded : Connector config ReqId Key Hash Source) ⟨.empty, [], []⟩ where
  held _ unflushed := by cases unflushed.issued
  parked _ unflushed := by cases unflushed.issued
  dropped _ member := by cases member

theorem Reach.custodial (reached : Reach makeOffloadKey hashBlockSize mambaAlignSize
    (Yielding : _ → _ → ConnectorAction ReqId Key Hash Source Target → Prop) connector past) :
    Kept connector past ∧ Custodial connector past := by
  induction reached with
  | start fresh blocksBeingLoaded => exact ⟨kept_start fresh blocksBeingLoaded, custodial_start blocksBeingLoaded⟩
  | step _ yielding taken ih => exact ⟨ih.1.step yielding.1 taken, ih.2.step ih.1 yielding taken⟩

/-- When a step hands out a block that no running request holds, the workers have been told to flush every store that reads
it and has not ended: in this step or before. -/
theorem stores_flushed (reached : Reach makeOffloadKey hashBlockSize mambaAlignSize
    (Yielding : _ → _ → ConnectorAction ReqId Key Hash Source Target → Prop) connector past)
    {prepareStore : ReqId → List Key → Option (PrepareStoreOutput Key Target)} {output : SchedulerOutput ReqId}
    {metadata : ConnectorMetadata ReqId Source Target}
    (built : connector.buildConnectorMeta makeOffloadKey hashBlockSize prepareStore output = .ok (next, metadata))
    {blockId : Nat} (handed : connector.handedOut output blockId)
    (free : ∀ reqId, (connector.view reqId).isFinished = false → reqId ∉ past.preempted → reqId ∉ output.preemptedReqIds →
      blockId ∉ connector.scheduler.held reqId) :
    ∀ entry ∈ past.history.issued, entry.2.isStore = true → entry.1 ∉ past.history.ended →
      (blockId ∈ entry.2.slidingWindowBlockIds.getD [] ∨ blockId ∈ entry.2.nonSlidingWindowBlockIds.getD []) →
        entry.1 ∈ past.flushed ∨ entry.1 ∈ metadata.jobsToFlush := by
  obtain ⟨kept, custodial⟩ := reached.custodial
  have flushed := Connector.buildConnectorMeta_flushed built
  intro entry issued store out reads
  by_cases done : entry.1 ∈ past.flushed
  · exact .inl done
  refine .inr ?_
  rcases kept.accounts.settled entry issued with ended | old | ⟨job, found⟩
  · exact absurd ended out
  · exact flushed.carried ((custodial.dropped entry issued out old).resolve_left done)
  · obtain ⟨first, member, same, _⟩ := kept.accounts.live entry.1 job found
    have equal : first = entry.2 := congrArg Prod.snd (List.inj_on_of_nodup_map kept.accounts.ids member issued rfl)
    rw [equal] at same
    have own : job.reqId = entry.2.reqId := by rw [same]
    have unflushed : Unflushed connector past entry :=
      ⟨issued, out, (kept.tracked.range entry.1 job found).1, store, done⟩
    have watched : job.Watches (connector.view job.reqId).isFinished blockId → entry.1 ∈ metadata.jobsToFlush :=
      fun watches => flushed.handed blockId handed entry.1 ((kept.tracked.watched blockId entry.1).mpr ⟨job, found, watches⟩)
    rcases reads with window | block
    · refine watched (.inl ?_)
      rw [same]
      exact window
    · cases running : (connector.view entry.2.reqId).isFinished with
      | true =>
          refine watched (.inr ⟨by rw [own, running], ?_⟩)
          rw [same]
          exact block
      | false =>
          -- The request runs, so that it holds the block, unless it is preempted in this step.
          have holds := custodial.held entry unflushed running blockId block
          have now : entry.2.reqId ∈ output.preemptedReqIds := by
            by_contra stays
            exact free _ running (custodial.parked entry unflushed) stays holds
          obtain ⟨ids, named, inside⟩ := unflushed.named kept
          exact flushed.preempted _ now ids named inside

end Custody

end DgxSpark.Offload

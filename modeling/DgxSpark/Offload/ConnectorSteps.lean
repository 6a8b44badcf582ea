import DgxSpark.Offload.ConnectorMoves

/-
This file shows that each call of the connector is a sequence of moves of its tables.
-/

namespace DgxSpark.Offload
open DgxSpark.Library

variable {config : SchedulerOffloadConfig} {ReqId Key Hash Source Target : Type} [DecidableEq ReqId]
  {scheduler next : OffloadingConnectorScheduler config ReqId Key} {finished : ReqId → Bool} {stale : Nat}

/-- The jobs that the tables number between two states, as they are there. -/
def numbered (before after : OffloadingConnectorScheduler config ReqId Key) : List (Nat × TransferJobStatus ReqId Key) :=
  (List.range' before.jobCounter (after.jobCounter - before.jobCounter)).filterMap fun jobId =>
    (after.jobs.get? jobId).map fun job => (jobId, job)

omit [DecidableEq ReqId] in
theorem numbered_none (same : next.jobCounter = scheduler.jobCounter) : numbered scheduler next = [] := by
  simp [numbered, same]

omit [DecidableEq ReqId] in
theorem numbered_one {job : TransferJobStatus ReqId Key} (jobs : next.jobs = scheduler.jobs.set scheduler.jobCounter job)
    (counter : next.jobCounter = scheduler.jobCounter + 1) : numbered scheduler next = [(scheduler.jobCounter, job)] := by
  rw [numbered, counter, Nat.add_sub_cancel_left, List.range'_one, List.filterMap_cons, jobs, OrderedDict.get?_set_self]
  rfl

/-- The later numbers leave the jobs of the earlier ones alone. -/
structure Later (scheduler next : OffloadingConnectorScheduler config ReqId Key) : Prop where
  grows : scheduler.jobCounter ≤ next.jobCounter
  same : ∀ jobId < scheduler.jobCounter, next.jobs.get? jobId = scheduler.jobs.get? jobId

omit [DecidableEq ReqId] in
theorem Later.trans {last : OffloadingConnectorScheduler config ReqId Key} (later : Later scheduler next)
    (more : Later next last) : Later scheduler last where
  grows := later.grows.trans more.grows
  same jobId below := (more.same jobId (below.trans_le later.grows)).trans (later.same jobId below)

omit [DecidableEq ReqId] in
theorem numbered_trans {last : OffloadingConnectorScheduler config ReqId Key} (later : Later scheduler next)
    (more : Later next last) : numbered scheduler last = numbered scheduler next ++ numbered next last := by
  have first := later.grows
  have second := more.grows
  have count : last.jobCounter - scheduler.jobCounter =
      next.jobCounter - scheduler.jobCounter + (last.jobCounter - next.jobCounter) := by omega
  have place : scheduler.jobCounter + (next.jobCounter - scheduler.jobCounter) = next.jobCounter := by omega
  unfold numbered
  rw [count, ← List.range'_append_1, List.filterMap_append, place]
  refine congrArg₂ _ (List.filterMap_congr fun jobId member => ?_) rfl
  have below := (List.mem_range'_1.mp member).2
  rw [more.same jobId (by omega)]

theorem transfers_of {reqId : ReqId} {status : RequestOffloadState config Key}
    (left : next.reqStatus = scheduler.reqStatus.set reqId status) (other : ReqId) :
    next.transfers other = if other = reqId then some status.transferJobs else scheduler.transfers other := by
  rw [OffloadingConnectorScheduler.transfers, left]
  exact transfers_set

theorem transfers_some {reqId : ReqId} {status : RequestOffloadState config Key}
    (found : scheduler.reqStatus.get? reqId = some status) : scheduler.transfers reqId = some status.transferJobs := by
  rw [OffloadingConnectorScheduler.transfers, found]
  rfl

theorem transfers_none {reqId : ReqId} : scheduler.transfers reqId = none ↔ scheduler.reqStatus.get? reqId = none :=
  Option.map_eq_none_iff

/-- A status that names the same jobs names them for the request. -/
theorem transfers_kept {reqId : ReqId} {status new : RequestOffloadState config Key}
    (found : scheduler.reqStatus.get? reqId = some status) (same : new.transferJobs = status.transferJobs)
    (left : next.reqStatus = scheduler.reqStatus.set reqId new) (other : ReqId) :
    next.transfers other = scheduler.transfers other := by
  rw [transfers_of left]
  split
  case isTrue equal => rw [equal, transfers_some found, same]
  case isFalse => rfl

/-- A view that changes for one request says of it alone whether it has finished. -/
theorem finished_update (view : ReqId → RequestView Hash) (reqId : ReqId) (new : RequestView Hash) :
    (fun other => (Function.update view reqId new other).isFinished) =
      Function.update (fun other => (view other).isFinished) reqId new.isFinished := by
  funext other
  by_cases same : other = reqId
  · subst same
    simp
  · simp [same]

theorem windows_getD (blockIds : List Nat) : (if blockIds = [] then none else some blockIds).getD [] = blockIds := by
  split
  case isTrue none => rw [none]; rfl
  case isFalse => rfl

section Stores

variable [DecidableEq Key]

/-- A store turn keeps the tables, or issues a job. -/
theorem storeTurn_moves {prepareStore : ReqId → List Key → Option (PrepareStoreOutput Key Target)}
    {state after : OffloadingConnectorScheduler config ReqId Key × OrderedDict Nat (TransferJob ReqId Target)}
    {entry : ReqId × Nat} (tracked : Tracked state.1 finished stale) (unfinished : finished entry.1 = false)
    (turned : storeTurn prepareStore state entry = .ok after) :
    Later state.1 after.1 ∧
      Moves ⟨state.1, finished, stale⟩ ⟨numbered state.1 after.1, [], []⟩ ⟨after.1, finished, stale⟩ := by
  have still : ∀ other : OffloadingConnectorScheduler config ReqId Key, other.jobCounter = state.1.jobCounter →
      other.jobs = state.1.jobs → other.blockIdToPendingJobs = state.1.blockIdToPendingJobs →
        (∀ reqId, other.transfers reqId = state.1.transfers reqId) → Later state.1 other ∧
          Moves ⟨state.1, finished, stale⟩ ⟨numbered state.1 other, [], []⟩ ⟨other, finished, stale⟩ := by
    intro other counter jobs pending transfers
    rw [numbered_none counter]
    exact ⟨⟨counter.ge, fun _ _ => by rw [jobs]⟩, (Move.kept transfers jobs pending counter).one⟩
  unfold storeTurn at turned
  cases found : state.1.reqStatus.get? entry.1 with
  | none =>
      simp only [found] at turned
      cases turned
      exact still _ rfl rfl rfl fun _ => rfl
  | some status =>
      simp only [found] at turned
      obtain ⟨⟨scheduler, job⟩, built, turned⟩ := Library.bind_ok.mp turned
      have left : after.1 = scheduler := by
        cases job <;> cases turned <;> rfl
      rw [left]
      have advanced : scheduler = state.1.advance entry.1 status (status.numOffloadableTokens entry.2) →
          Later state.1 scheduler ∧
            Moves ⟨state.1, finished, stale⟩ ⟨numbered state.1 scheduler, [], []⟩ ⟨scheduler, finished, stale⟩ := by
        rintro rfl
        have same : (status.advanceStoredIdx (status.numOffloadableTokens entry.2)).transferJobs = status.transferJobs := rfl
        exact still _ rfl rfl rfl (transfers_kept found same rfl)
      unfold buildStoreJob at built
      obtain ⟨keys, _, built⟩ := Library.bind_ok.mp built
      split at built
      case isTrue =>
        cases built
        exact advanced rfl
      case isFalse =>
        split at built
        case h_1 =>
          cases built
          exact still _ rfl rfl rfl fun _ => rfl
        case h_2 output _ =>
          split at built
          case isTrue =>
            cases built
            exact advanced rfl
          case isFalse =>
            obtain ⟨⟨⟩, checked, built⟩ := Library.bind_ok.mp built
            cases built
            have pending := tracked.pendingStores found checked
            refine ⟨⟨Nat.le_succ _, fun jobId below => OrderedDict.get?_set_of_ne _ _ (Nat.ne_of_lt below)⟩, ?_⟩
            rw [numbered_one rfl rfl]
            refine (Move.issued (transfers_some found) unfinished rfl rfl (fun jobId member => ⟨rfl, pending jobId member⟩)
              (fun other => ?_) rfl ?_ rfl).one
            · rw [@transfers_of _ _ _ _ state.1 _ entry.1 { status.advanceStoredIdx _ with
                transferJobs := status.transferJobs.insert state.1.jobCounter } rfl other]
            · simp only [windows_getD]
              rfl

/-- The stores of a step are issued one after another. -/
theorem buildStoreJobs_moves {numScheduledTokens : OrderedDict ReqId Nat}
    {prepareStore : ReqId → List Key → Option (PrepareStoreOutput Key Target)}
    {storeJobs : OrderedDict Nat (TransferJob ReqId Target)} (tracked : Tracked scheduler finished stale)
    (unfinished : ∀ reqId ∈ numScheduledTokens.keys, finished reqId = false)
    (built : buildStoreJobs scheduler numScheduledTokens prepareStore = .ok (next, storeJobs)) :
    Moves ⟨scheduler, finished, stale⟩ ⟨numbered scheduler next, [], []⟩ ⟨next, finished, stale⟩ := by
  have folded : Tracked next finished stale ∧ Later scheduler next ∧
      Moves ⟨scheduler, finished, stale⟩ ⟨numbered scheduler next, [], []⟩ ⟨next, finished, stale⟩ := by
    refine foldlM_carries (fun _ state => Tracked state.1 finished stale ∧ Later scheduler state.1 ∧
      Moves ⟨scheduler, finished, stale⟩ ⟨numbered scheduler state.1, [], []⟩ ⟨state.1, finished, stale⟩) ?_
      ⟨tracked, ⟨Nat.le_refl _, fun _ _ => rfl⟩, by rw [numbered_none rfl]; exact .none _⟩ built
    intro before entry rest state after split ⟨tracked, grows, moves⟩ turned
    have member : entry.1 ∈ numScheduledTokens.keys := List.mem_map.mpr ⟨entry, by rw [split]; simp, rfl⟩
    obtain ⟨more, turn⟩ := storeTurn_moves tracked (unfinished _ member) turned
    refine ⟨turn.tracked tracked, grows.trans more, ?_⟩
    rw [numbered_trans grows more]
    exact moves.trans turn
  exact folded.2.2

end Stores

namespace Connector

variable {connector after : Connector config ReqId Key Hash Source}

theorem onNewRequest_moves {reqId : ReqId} (untracked : connector.scheduler.reqStatus.get? reqId = none)
    (running : (connector.view reqId).isFinished = false) (req : Request) (view : RequestView Hash)
    (maxOffloadTokens : Option Nat) :
    Moves connector.books .empty (connector.onNewRequest reqId req view maxOffloadTokens).books := by
  have unchanged : (fun other => (Function.update connector.view reqId
      { view with isFinished := false, numLocallyComputedTokens := 0 } other).isFinished) =
        fun other => (connector.view other).isFinished := by
    rw [finished_update]
    exact Function.update_eq_self_iff.mpr running.symm
  rw [books, books, onNewRequest, unchanged]
  exact (Move.added (transfers_none.mpr untracked) running rfl).one

/-- The books stay when a status that names the same jobs is set, and a view that is as finished as before. -/
theorem keeps_books {reqId : ReqId} {status new : RequestOffloadState config Key} {view : RequestView Hash}
    (found : connector.scheduler.reqStatus.get? reqId = some status) (same : new.transferJobs = status.transferJobs)
    (kept : view.isFinished = (connector.view reqId).isFinished) :
    Moves connector.books .empty
      { connector.setStatus reqId new with view := Function.update connector.view reqId view }.books := by
  have unchanged : (fun other => (Function.update connector.view reqId view other).isFinished) =
      fun other => (connector.view other).isFinished := by
    rw [finished_update, kept]
    exact Function.update_eq_self reqId _
  have left : (connector.setStatus reqId new).scheduler.reqStatus = connector.scheduler.reqStatus.set reqId new := rfl
  rw [books, books, unchanged]
  exact (Move.kept (transfers_kept found same left) rfl rfl rfl).one

theorem refresh_moves (reqId : ReqId) (req : Request) (blockHashes : List Hash) :
    Moves connector.books .empty (connector.refresh reqId req blockHashes).books := by
  unfold refresh
  cases found : connector.scheduler.reqStatus.get? reqId with
  | some status => exact keeps_books found rfl rfl
  | none =>
      have unchanged : (fun other => (Function.update connector.view reqId
          { connector.view reqId with blockHashes := blockHashes } other).isFinished) =
            fun other => (connector.view other).isFinished := by
        rw [finished_update]
        exact Function.update_eq_self reqId _
      simp only [books, unchanged]
      exact .none _

theorem getNumNewMatchedTokens_moves [DecidableEq Key] {makeOffloadKey : Hash → Nat → Key} {hashBlockSize : Nat}
    {mambaAlignSize : Option Nat} {manager : Key → Option Bool} {reqId : ReqId} {numComputedTokens : Nat}
    {numHitTokens : Option Nat} (matched : connector.getNumNewMatchedTokens makeOffloadKey hashBlockSize mambaAlignSize
      manager reqId numComputedTokens = .ok (after, numHitTokens)) : Moves connector.books .empty after.books := by
  unfold getNumNewMatchedTokens at matched
  split at matched
  case h_1 => cases matched
  case h_2 status found =>
    have moves := @keeps_books _ _ _ _ _ _ connector reqId status
      ((status.clearBlockIds).updateOffloadKeys makeOffloadKey hashBlockSize (connector.view reqId).blockHashes)
      { connector.view reqId with numLocallyComputedTokens := numComputedTokens } found rfl rfl
    simp only at matched
    split at matched
    · cases matched
      exact moves
    · split at matched
      · cases matched
        exact moves
      · cases matched

/-- A load is issued for a request that names no job. -/
theorem updateStateAfterAlloc_moves [DecidableEq Key] {prepareLoad : List Key → Source} {reqId : ReqId}
    {blocks : List (List KVCacheBlock)} {numExternalTokens : Nat} (unfinished : (connector.view reqId).isFinished = false)
    (loaded : connector.updateStateAfterAlloc prepareLoad reqId blocks numExternalTokens = .ok after) :
    Moves connector.books ⟨numbered connector.scheduler after.scheduler, [], []⟩ after.books := by
  unfold updateStateAfterAlloc at loaded
  split at loaded
  case isTrue =>
    cases loaded
    rw [numbered_none rfl]
    exact .none _
  case isFalse =>
    split at loaded
    case h_1 => cases loaded
    case h_2 status found =>
      obtain ⟨parts, _, loaded⟩ := Library.bind_ok.mp loaded
      simp only at loaded
      split at loaded
      case isTrue => cases loaded
      case isFalse idle =>
        have idle : status.transferJobs = [] := not_not.mp idle
        cases loaded
        rw [numbered_one rfl rfl]
        refine (Move.issued (transfers_some found) unfinished rfl rfl (fun jobId member => ?_) (fun other => ?_) rfl rfl
          rfl).one
        · rw [idle] at member
          cases member
        · rw [idle]
          exact transfers_set

/-- A request's turn sets its status: the keys grow, the blocks of a preempted request go, and new blocks come to the groups. -/
theorem extendRequest_ok {makeOffloadKey : Hash → Nat → Key} {hashBlockSize : Nat} {view : ReqId → RequestView Hash}
    {extended next : Extended config ReqId Key} {data : ReqId × Option (List (List Nat)) × Bool}
    (taken : extendRequest makeOffloadKey hashBlockSize view extended data = .ok next) :
    ∃ status, extended.reqStatus.get? data.1 = some status ∧
      ∃ left, left = (if data.2.2 = true then
          (status.updateOffloadKeys makeOffloadKey hashBlockSize (view data.1).blockHashes).clearBlockIds
            else status.updateOffloadKeys makeOffloadKey hashBlockSize (view data.1).blockHashes) ∧
        ((data.2.1.getD [] = [] ∧ next = { extended with reqStatus := extended.reqStatus.set data.1 left }) ∨
          next =
            { reqStatus := extended.reqStatus.set data.1 (left.updateBlockIdGroups (data.2.1.getD []))
              newBlockIdsEnd :=
                extended.newBlockIdsEnd.set data.1 (left.groupStates.map fun groupState => groupState.blockIds.length)
              allocated := (data.2.1.getD []).foldl (fun allocated newBlocks => allocated ∪ nonzero newBlocks)
                extended.allocated }) := by
  unfold extendRequest at taken
  simp only at taken
  split at taken
  case h_1 => cases taken
  case h_2 status found =>
    refine ⟨status, found, _, rfl, ?_⟩
    generalize (if data.2.2 = true then
      (status.updateOffloadKeys makeOffloadKey hashBlockSize (view data.1).blockHashes).clearBlockIds
        else status.updateOffloadKeys makeOffloadKey hashBlockSize (view data.1).blockHashes) = left at taken ⊢
    split at taken
    case isTrue none =>
      cases taken
      exact .inl ⟨none, rfl⟩
    case isFalse =>
      split at taken
      case isTrue => cases taken
      case isFalse =>
        cases taken
        exact .inr rfl

/-- A request's new blocks leave the jobs that the requests name. -/
theorem extendRequest_transfers {makeOffloadKey : Hash → Nat → Key} {hashBlockSize : Nat} {view : ReqId → RequestView Hash}
    {extended next : Extended config ReqId Key} {data : ReqId × Option (List (List Nat)) × Bool}
    (taken : extendRequest makeOffloadKey hashBlockSize view extended data = .ok next) (reqId : ReqId) :
    (next.reqStatus.get? reqId).map RequestOffloadState.transferJobs =
      (extended.reqStatus.get? reqId).map RequestOffloadState.transferJobs := by
  obtain ⟨status, found, left, set, turn⟩ := extendRequest_ok taken
  have same : left.transferJobs = status.transferJobs := by
    rw [set]
    split <;> rfl
  have replaced : ∀ new : RequestOffloadState config Key, new.transferJobs = status.transferJobs →
      ((extended.reqStatus.set data.1 new).get? reqId).map RequestOffloadState.transferJobs =
        (extended.reqStatus.get? reqId).map RequestOffloadState.transferJobs := by
    intro new same
    rw [OrderedDict.get?_set]
    split
    case isTrue equal => rw [equal, found, Option.map_some, Option.map_some, same]
    case isFalse => rfl
  rcases turn with ⟨_, rfl⟩ | rfl
  · exact replaced left same
  · exact replaced _ same

/-- The other tables stay as well. -/
theorem updateReqStates_ok {makeOffloadKey : Hash → Nat → Key} {hashBlockSize : Nat} {output : SchedulerOutput ReqId}
    (updated : connector.updateReqStates makeOffloadKey hashBlockSize output = .ok after) :
    after.scheduler.jobs = connector.scheduler.jobs ∧ after.scheduler.jobCounter = connector.scheduler.jobCounter ∧
      after.scheduler.blockIdToPendingJobs = connector.scheduler.blockIdToPendingJobs ∧ after.view = connector.view ∧
        after.staleJobThreshold = connector.staleJobThreshold ∧
          after.currentBatchJobsToFlush = connector.currentBatchJobsToFlush ∧
            ∀ reqId, after.scheduler.transfers reqId = connector.scheduler.transfers reqId := by
  obtain ⟨extended, folded, updated⟩ := Library.bind_ok.mp updated
  cases updated
  refine ⟨rfl, rfl, rfl, rfl, rfl, rfl, fun reqId => ?_⟩
  have kept := foldlM_carries (fun _ (state : Extended config ReqId Key) =>
    (state.reqStatus.get? reqId).map RequestOffloadState.transferJobs = connector.scheduler.transfers reqId)
      (fun _ _ _ _ _ _ before taken => (extendRequest_transfers taken reqId).trans before) rfl folded
  refine Eq.trans ?_ kept
  simp only [OffloadingConnectorScheduler.transfers, OrderedDict.get?_filterMap]
  cases extended.reqStatus.get? reqId <;> rfl

variable [DecidableEq Key]

/-- The metadata of a step takes the stores of the step. -/
theorem buildConnectorMeta_moves {makeOffloadKey : Hash → Nat → Key} {hashBlockSize : Nat}
    {prepareStore : ReqId → List Key → Option (PrepareStoreOutput Key Target)} {output : SchedulerOutput ReqId}
    {metadata : ConnectorMetadata ReqId Source Target} (tracked : connector.books.Tracked)
    (unfinished : ∀ reqId ∈ output.numScheduledTokens.keys, (connector.view reqId).isFinished = false)
    (built : connector.buildConnectorMeta makeOffloadKey hashBlockSize prepareStore output = .ok (after, metadata)) :
    Moves connector.books ⟨numbered connector.scheduler after.scheduler, [], []⟩ after.books := by
  obtain ⟨updated, refreshed, built⟩ := Library.bind_ok.mp built
  obtain ⟨preempted, _, built⟩ := Library.bind_ok.mp built
  obtain ⟨jobs, counter, pending, view, stale, _, transfers⟩ := updateReqStates_ok refreshed
  simp only at built
  split at built
  case h_1 => cases built
  case h_2 scheduler storeJobs stored =>
    cases built
    have kept : Moves connector.books .empty
        ⟨updated.scheduler, fun reqId => (connector.view reqId).isFinished, connector.staleJobThreshold⟩ :=
      (Move.kept transfers jobs pending counter).one
    have issued := buildStoreJobs_moves (kept.tracked tracked) unfinished stored
    have same : numbered updated.scheduler scheduler = numbered connector.scheduler scheduler := by
      rw [numbered, numbered, counter]
    have whole := kept.trans issued
    rw [History.empty_append, same] at whole
    rw [books, books, view, stale]
    exact whole

/-- A report counts against its job, or ends it, unless the job is older than the last reset. -/
theorem reportJob_moves {jobId count : Nat} {calls : List (ManagerCall ReqId Key)} (tracked : connector.books.Tracked)
    (taken : connector.reportJob jobId count = .ok (after, calls)) :
    Moves connector.books
      ⟨[], if connector.staleJobThreshold ≤ jobId then [(jobId, count)] else [], calls⟩ after.books := by
  unfold reportJob at taken
  split at taken
  · cases taken
  split at taken
  case isTrue stale =>
    cases taken
    rw [if_neg (Nat.not_le.mpr stale)]
    exact .none _
  case isFalse fresh =>
    rw [if_pos (Nat.le_of_not_lt fresh)]
    split at taken
    case h_1 => cases taken
    case h_2 job found =>
      split at taken
      case isTrue part =>
        cases taken
        exact (Move.counted found part).one
      case isFalse whole =>
        split at taken
        case isTrue => cases taken
        case isFalse enough =>
          have equal : count = job.pendingCount := Nat.le_antisymm (Nat.le_of_not_lt enough) (Nat.le_of_not_lt whole)
          unfold endJob at taken
          split at taken
          case h_1 => cases taken
          case h_2 status known =>
            obtain ⟨pending, removed, taken⟩ := Library.bind_ok.mp taken
            obtain ⟨sets, holds⟩ := unwatch_ok tracked.sets removed
            split at taken
            case isTrue => cases taken
            case isFalse =>
              cases taken
              rw [equal]
              refine Move.one (Move.ended found (transfers_some known) ?_ ?_ ?_ sets holds)
              · intro other
                unfold leftOver OffloadingConnectorScheduler.transfers
                simp only
                split
                case isTrue last =>
                  rw [OrderedDict.get?_erase]
                  split <;> rfl
                case isFalse more =>
                  rw [OrderedDict.get?_set]
                  split <;> rfl
              · rfl
              · rfl

omit [DecidableEq Key] in
theorem reportJob_threshold [DecidableEq Key] {jobId count : Nat} {calls : List (ManagerCall ReqId Key)}
    (taken : connector.reportJob jobId count = .ok (after, calls)) :
    after.staleJobThreshold = connector.staleJobThreshold := by
  unfold reportJob at taken
  split at taken
  · cases taken
  split at taken
  · cases taken
    rfl
  split at taken
  case h_1 => cases taken
  case h_2 job _ =>
    split at taken
    · cases taken
      rfl
    split at taken
    · cases taken
    unfold endJob at taken
    split at taken
    case h_1 => cases taken
    case h_2 =>
      obtain ⟨_, _, taken⟩ := Library.bind_ok.mp taken
      split at taken
      · cases taken
      · cases taken
        rfl

theorem updateConnectorOutput_moves {completedJobs : OrderedDict Nat Nat} {calls : List (ManagerCall ReqId Key)}
    (tracked : connector.books.Tracked) (taken : connector.updateConnectorOutput completedJobs = .ok (after, calls)) :
    Moves connector.books
      ⟨[], completedJobs.entries.filter fun report => connector.staleJobThreshold ≤ report.1, calls⟩ after.books ∧
        after.staleJobThreshold = connector.staleJobThreshold := by
  have folded : after.books.Tracked ∧ Moves connector.books
      ⟨[], completedJobs.entries.filter fun report => connector.staleJobThreshold ≤ report.1, calls⟩ after.books ∧
        after.staleJobThreshold = connector.staleJobThreshold := by
    refine foldlM_carries (fun done (state : Connector config ReqId Key Hash Source × List (ManagerCall ReqId Key)) =>
      state.1.books.Tracked ∧ Moves connector.books
        ⟨[], done.filter fun report => connector.staleJobThreshold ≤ report.1, state.2⟩ state.1.books ∧
          state.1.staleJobThreshold = connector.staleJobThreshold) ?_ ⟨tracked, .none _, rfl⟩ taken
    rintro before report rest ⟨state, made⟩ ⟨next, more⟩ _ ⟨tracked, moves, same⟩ taken
    obtain ⟨⟨last, called⟩, reported, taken⟩ := Library.bind_ok.mp taken
    cases taken
    have turn := reportJob_moves tracked reported
    have same : state.staleJobThreshold = connector.staleJobThreshold := same
    rw [same] at turn
    refine ⟨turn.tracked tracked, ?_, (reportJob_threshold reported).trans same⟩
    have added : [report].filter (fun report => connector.staleJobThreshold ≤ report.1) =
        if connector.staleJobThreshold ≤ report.1 then [report] else [] := by
      simp only [List.filter_cons, List.filter_nil, decide_eq_true_eq]
    rw [List.filter_append, added]
    exact moves.trans turn
  exact folded.2

omit [DecidableEq ReqId] [DecidableEq Key] in
/-- The blocks of the jobs of a request are watched for these. -/
theorem watchJobs_ok {ids : List Nat} {pending after : OrderedDict Nat (List Nat)} (sets : pending.Sets)
    (watched : ids.foldlM (watchJob scheduler) pending = .ok after) :
    after.Sets ∧ (∀ jobId ∈ ids, ∃ job, scheduler.jobs.get? jobId = some job) ∧
      ∀ blockId other, after.Holds blockId other ↔ pending.Holds blockId other ∨
        ∃ job, scheduler.jobs.get? other = some job ∧ other ∈ ids ∧ blockId ∈ job.nonSlidingWindowBlockIds.getD [] := by
  induction ids generalizing pending with
  | nil =>
      cases watched
      refine ⟨sets, fun jobId member => ?_, fun blockId other => by simp⟩
      cases member
  | cons first rest ih =>
      rw [List.foldlM_cons, Library.bind_ok] at watched
      obtain ⟨middle, taken, watched⟩ := watched
      unfold watchJob at taken
      cases found : scheduler.jobs.get? first with
      | none =>
          simp only [found] at taken
          cases taken
      | some job =>
          simp only [found] at taken
          cases taken
          obtain ⟨kept, there, holds⟩ := ih (sets.enters _ _) watched
          refine ⟨kept, ?_, fun blockId other => ?_⟩
          · intro jobId member
            rcases List.mem_cons.mp member with rfl | member
            · exact ⟨job, found⟩
            · exact there jobId member
          · rw [holds, OrderedDict.holds_enters]
            constructor
            · rintro ((before | ⟨member, rfl⟩) | ⟨here, present, member, block⟩)
              · exact .inl before
              · exact .inr ⟨job, found, List.mem_cons_self, member⟩
              · exact .inr ⟨here, present, List.mem_cons_of_mem _ member, block⟩
            · rintro (before | ⟨here, present, member, block⟩)
              · exact .inl (.inl before)
              · rcases List.mem_cons.mp member with rfl | member
                · rw [found, Option.some.injEq] at present
                  exact .inl (.inr ⟨present ▸ block, rfl⟩)
                · exact .inr ⟨here, present, member, block⟩

omit [DecidableEq Key] in
/-- A request that finishes is given up at once, or waits for its jobs. -/
theorem requestFinished_moves {reqId : ReqId} {calls : List (ManagerCall ReqId Key)} (tracked : connector.books.Tracked)
    (running : (connector.view reqId).isFinished = false)
    (taken : connector.requestFinished reqId = .ok (after, calls)) :
    Moves connector.books ⟨[], [], calls⟩ after.books := by
  have view : (fun other => (Function.update connector.view reqId { connector.view reqId with isFinished := true }
      other).isFinished) = Function.update (fun other => (connector.view other).isFinished) reqId true := finished_update _ _ _
  have unwatched : connector.scheduler.transfers reqId = none ∨ connector.scheduler.transfers reqId = some [] →
      ∀ blockId jobId, connector.scheduler.blockIdToPendingJobs.Holds blockId jobId ↔
        connector.scheduler.blockIdToPendingJobs.Holds blockId jobId ∨
          ∃ job, connector.scheduler.jobs.get? jobId = some job ∧ job.reqId = reqId ∧
            blockId ∈ job.nonSlidingWindowBlockIds.getD [] := by
    refine fun idle blockId jobId => ⟨.inl, ?_⟩
    rintro (held | ⟨job, found, own, _⟩)
    · exact held
    · obtain ⟨ids, named, member⟩ := tracked.owned jobId job found
      change connector.scheduler.transfers job.reqId = some ids at named
      rw [own] at named
      rcases idle with none | none
      · rw [none] at named
        cases named
      · rw [none, Option.some.injEq] at named
        rw [← named] at member
        cases member
  unfold requestFinished at taken
  simp only at taken
  split at taken
  case h_1 unknown =>
    cases taken
    have none := transfers_none.mpr unknown
    simp only [books, view]
    refine Move.one (Move.finished running (fun ids named => ?_) (fun _ => rfl) (fun _ => .inl rfl) rfl rfl tracked.sets
      (unwatched (.inl none)))
    rw [none] at named
    cases named
  case h_2 status found =>
    have named := transfers_some found
    split at taken
    case isTrue idle =>
      cases taken
      have gone := @transfers_erase config ReqId Key _ connector.scheduler reqId
      rw [idle] at named
      simp only [books, view]
      refine Move.one (Move.finished running (fun ids there => ?_) (fun _ => rfl) (fun other => ?_) rfl rfl tracked.sets
        (unwatched (.inr named)))
      · rw [gone, if_pos rfl] at there
        cases there
      · by_cases same : other = reqId
        · exact .inr ⟨same, named, by rw [gone, if_pos same]⟩
        · exact .inl (by rw [gone, if_neg same])
    case isFalse busy =>
      obtain ⟨pending, watched, taken⟩ := Library.bind_ok.mp taken
      cases taken
      obtain ⟨sets, there, holds⟩ := watchJobs_ok tracked.sets watched
      simp only [books, view]
      refine Move.one (Move.finished running (fun ids given => ?_) (fun none => ?_) (fun _ => .inl rfl) rfl rfl sets ?_)
      · have given : connector.scheduler.transfers reqId = some ids := given
        rw [named, Option.some.injEq] at given
        refine ⟨rfl, given ▸ busy, fun jobId member => ?_⟩
        obtain ⟨job, present⟩ := there jobId (given ▸ member)
        exact (tracked.range jobId job present).1
      · have none : connector.scheduler.transfers reqId = Option.none := none
        rw [named] at none
        cases none
      · intro blockId jobId
        rw [holds]
        refine or_congr Iff.rfl ⟨?_, ?_⟩
        · rintro ⟨job, present, member, block⟩
          obtain ⟨other, same, own⟩ := tracked.known reqId _ named jobId member (tracked.range jobId job present).1
          change connector.scheduler.jobs.get? jobId = some other at same
          rw [present, Option.some.injEq] at same
          exact ⟨job, present, same ▸ own, block⟩
        · rintro ⟨job, present, own, block⟩
          obtain ⟨ids, there, member⟩ := tracked.owned jobId job present
          change connector.scheduler.transfers job.reqId = some ids at there
          rw [own, named, Option.some.injEq] at there
          exact ⟨job, present, there ▸ member, block⟩

omit [DecidableEq Key] in
/-- A reset ends the requests that have finished, and no job of before is there any more. -/
theorem resetCache_moves {calls : List (ManagerCall ReqId Key)} (taken : connector.resetCache = .ok (after, calls)) :
    Moves connector.books ⟨[], [], calls⟩ after.books := by
  unfold resetCache at taken
  split at taken
  · cases taken
  · cases taken
    refine Move.one (Move.reset ?_ ?_ ?_ rfl rfl rfl)
    · exact connector.scheduler.reqStatus.keys_nodup.filter _
    · intro reqId
      rw [List.mem_filter, OrderedDict.mem_keys_iff, ne_eq, transfers_none, ← ne_eq, Option.ne_none_iff_exists']
      exact and_comm
    · intro other
      simp only [OffloadingConnectorScheduler.transfers, OrderedDict.get?_filterMap]
      cases connector.scheduler.reqStatus.get? other with
      | none => simp
      | some status =>
          simp only [Option.bind_some]
          split <;> rfl

end Connector

end DgxSpark.Offload

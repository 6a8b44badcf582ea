import DgxSpark.Offload.Lookup

/-
This file embeds the scheduler side of the offloading connector: `OffloadingConnectorScheduler` of
`offloading/scheduler.py` with its loads, stores, flushes, completions and resets.
-/

namespace DgxSpark.Offload
open DgxSpark.Library

/-- A block of the cache as the allocator hands it out. -/
structure KVCacheBlock where
  blockId : Nat
  isNull : Bool
  hashed : Bool

inductive OffloadPolicy where
  | blockLevel
  | requestLevel
deriving DecidableEq

/-- What the connector reads of a request beside its offload state. -/
structure RequestView (Hash : Type) where
  blockHashes : List Hash
  skipReadingPrefixCache : Bool
  isFinished : Bool
  policy : OffloadPolicy
  numLocallyComputedTokens : Nat

structure LoadJob (ReqId Source : Type) where
  reqId : ReqId
  transferSpec : Source × GPULoadStoreSpec

/-- `OffloadingConnectorMetadata`. -/
structure ConnectorMetadata (ReqId Source Target : Type) where
  loadJobs : OrderedDict Nat (LoadJob ReqId Source)
  storeJobs : OrderedDict Nat (TransferJob ReqId Target)
  jobsToFlush : List Nat

/-- The calls that end a job or a request toward the manager, with the job that they are made for. -/
inductive ManagerCall (ReqId Key : Type) where
  | completeStore (jobId : Nat) (reqId : ReqId) (keys : List Key)
  | completeLoad (jobId : Nat) (reqId : ReqId) (keys : List Key)
  | onRequestFinished (reqId : ReqId)
  | resetCache

/-- Assertions, and look-ups of what is not there. -/
inductive ConnectorFault where
  | unknownRequest
  | unknownJob
  | loadPending
  | jobsPending
  | blocksMissing
  | keysMissing
  | notWatched
  | badCount
  | midStep
deriving DecidableEq

def ConnectorFault.ofStore : StoreFault → ConnectorFault
  | .blocksMissing => .blocksMissing
  | .unknownJob => .unknownJob
  | .loadPending => .loadPending

/-- The requests and the cache blocks of a step. Each request has its new blocks for each group, and says whether it
resumes after a preemption. -/
structure SchedulerOutput (ReqId : Type) where
  reqData : List (ReqId × Option (List (List Nat)) × Bool)
  numScheduledTokens : OrderedDict ReqId Nat
  preemptedReqIds : List ReqId

/-- The scheduler side of the connector. Without prefix caching `blocksBeingLoaded` is none. -/
structure Connector (config : SchedulerOffloadConfig) (ReqId Key Hash Source : Type) where
  scheduler : OffloadingConnectorScheduler config ReqId Key
  view : ReqId → RequestView Hash
  currentBatchLoadJobs : OrderedDict Nat (LoadJob ReqId Source)
  currentBatchJobsToFlush : List Nat
  currentBatchAllocatedBlockIds : List Nat
  blocksBeingLoaded : Option (List Key)
  staleJobThreshold : Nat

variable {config : SchedulerOffloadConfig} {ReqId Key Hash Source Target : Type}

/-- A group of the configuration has blocks of the GPU's size, so many in an offloaded block. -/
def GroupOffloadConfig.gpuBlockSize (groupConfig : GroupOffloadConfig) (blockSizeFactor : Nat) : Nat :=
  groupConfig.offloadedBlockSize / blockSizeFactor

namespace RequestOffloadState

/-- The groups change, each by its configuration and its number. -/
def mapGroups (status : RequestOffloadState config Key)
    (change : Nat → GroupOffloadConfig → RequestGroupState Key → RequestGroupState Key) : RequestOffloadState config Key :=
  { status with
    groupStates := (config.kvGroupConfigs.zip status.groupStates).zipIdx.map fun ((groupConfig, groupState), groupIdx) =>
      change groupIdx groupConfig groupState
    grouped := by rw [List.length_map, List.length_zipIdx, List.length_zip, status.grouped, Nat.min_self] }

/-- `update_offload_keys`: the last hash of each block that is complete names it. -/
def updateOffloadKeys (makeOffloadKey : Hash → Nat → Key) (hashBlockSize : Nat) (blockHashes : List Hash)
    (status : RequestOffloadState config Key) : RequestOffloadState config Key :=
  status.mapGroups fun groupIdx groupConfig groupState =>
    let hashBlockSizeFactor := groupConfig.offloadedBlockSize / hashBlockSize
    let start := hashBlockSizeFactor * groupState.offloadKeys.length + hashBlockSizeFactor - 1
    { groupState with
      offloadKeys := groupState.offloadKeys ++ (rangeStep start blockHashes.length hashBlockSizeFactor).filterMap
        fun place => blockHashes[place]?.map fun reqBlockHash => makeOffloadKey reqBlockHash groupIdx }

def clearBlockIds (status : RequestOffloadState config Key) : RequestOffloadState config Key :=
  status.mapGroups fun _ _ groupState => { groupState with blockIds := [] }

/-- `update_block_id_groups`, after its assertion. -/
def updateBlockIdGroups (newBlockIdGroups : List (List Nat)) (status : RequestOffloadState config Key) :
    RequestOffloadState config Key :=
  status.mapGroups fun groupIdx _ groupState =>
    { groupState with blockIds := groupState.blockIds ++ newBlockIdGroups.getD groupIdx [] }

/-- The blocks of a window that were handed out again are no longer its own. Those behind the end are new. -/
def zeroStale (allocated : List Nat) (ends : Option (List Nat)) (status : RequestOffloadState config Key) :
    RequestOffloadState config Key :=
  status.mapGroups fun groupIdx groupConfig groupState =>
    if groupConfig.slidingWindowSizeInBlocks.isSome then
      let start := groupState.nextStoredBlockIdx * config.blockSizeFactor
      let stop := match ends with
        | some ends => ends.getD groupIdx 0
        | none => groupState.blockIds.length
      { groupState with
        blockIds := groupState.blockIds.mapIdx fun place blockId =>
          if start ≤ place ∧ place < stop ∧ blockId ∈ allocated then 0 else blockId }
    else groupState

end RequestOffloadState

/-- What a group loads: the keys, the GPU blocks that take them, and the place of the first of these. -/
structure LoadPart (Key : Type) where
  keysToLoad : List Key
  dstBlockIds : List Nat
  blockIndex : Nat
  numBlocks : Nat

/-- A group's turn in `update_state_after_alloc`. -/
def loadPart (numLocallyComputedTokens numCachedTokens : Nat) (groupConfig : GroupOffloadConfig)
    (groupState : RequestGroupState Key) (groupBlocks : List KVCacheBlock) (blockSizeFactor : Nat) :
    Except ConnectorFault (LoadPart Key) :=
  let gpuBlockSize := groupConfig.gpuBlockSize blockSizeFactor
  let numGpuBlocks := cdiv numCachedTokens gpuBlockSize
  if groupBlocks.length < numGpuBlocks then .error .blocksMissing
  else
    -- Null blocks are the padding of a window or of a state.
    let numLocallyComputedGpuBlocks := (groupBlocks.take numGpuBlocks).findIdx fun block => !block.isNull && !block.hashed
    if numLocallyComputedGpuBlocks * gpuBlockSize < numLocallyComputedTokens then .error .blocksMissing
    else
      let numPendingGpuBlocks := numGpuBlocks - numLocallyComputedGpuBlocks
      if groupConfig.slidingWindowSizeInBlocks.any fun window => window * blockSizeFactor < numPendingGpuBlocks then
        .error .blocksMissing
      else
        let numBlocks := cdiv numCachedTokens groupConfig.offloadedBlockSize
        if groupState.offloadKeys.length < numBlocks then .error .keysMissing
        else .ok
          { keysToLoad :=
              if numPendingGpuBlocks = 0 then []
              else slice groupState.offloadKeys (numLocallyComputedGpuBlocks / blockSizeFactor) numBlocks
            dstBlockIds := (slice groupBlocks numLocallyComputedGpuBlocks numGpuBlocks).map KVCacheBlock.blockId
            blockIndex := numLocallyComputedGpuBlocks
            numBlocks := numBlocks }

/-- A request that offloads by blocks goes on behind the loaded ones. -/
def skipLoaded (parts : List (LoadPart Key)) (policy : OffloadPolicy) (groupIdx : Nat) (_ : GroupOffloadConfig)
    (groupState : RequestGroupState Key) : RequestGroupState Key :=
  match parts[groupIdx]?, policy with
  | some part, .blockLevel => { groupState with nextStoredBlockIdx := part.numBlocks }
  | _, _ => groupState

/-- The nonzero block ids. -/
def nonzero (blockIds : List Nat) : List Nat := blockIds.filter (· ≠ 0)

namespace Connector

variable [DecidableEq ReqId]

/-- `on_new_request`. The offload state of a request begins with no keys and no blocks. -/
def onNewRequest (connector : Connector config ReqId Key Hash Source) (reqId : ReqId) (req : Request)
    (view : RequestView Hash) (maxOffloadTokens : Option Nat) : Connector config ReqId Key Hash Source :=
  { connector with
    view := Function.update connector.view reqId { view with isFinished := false, numLocallyComputedTokens := 0 }
    scheduler := { connector.scheduler with
      reqStatus := connector.scheduler.reqStatus.set reqId
        { req := req
          groupStates := config.kvGroupConfigs.map fun _ => ⟨[], [], 0⟩
          grouped := List.length_map _
          maxOffloadTokens := maxOffloadTokens
          transferJobs := [] } } }

/-- The status of a request is replaced. -/
def setStatus (connector : Connector config ReqId Key Hash Source) (reqId : ReqId)
    (status : RequestOffloadState config Key) : Connector config ReqId Key Hash Source :=
  { connector with scheduler := { connector.scheduler with reqStatus := connector.scheduler.reqStatus.set reqId status } }

/-- The core scheduler goes on with a request: it has other tokens, and more hashes. -/
def refresh (connector : Connector config ReqId Key Hash Source) (reqId : ReqId) (req : Request) (blockHashes : List Hash) :
    Connector config ReqId Key Hash Source :=
  let seen := { connector with
    view := Function.update connector.view reqId { connector.view reqId with blockHashes := blockHashes } }
  match connector.scheduler.reqStatus.get? reqId with
  | none => seen
  | some status => seen.setStatus reqId { status with req := req }

/-- `get_num_new_matched_tokens`. The look-up has as many rounds as it may need. -/
def getNumNewMatchedTokens [DecidableEq Key] (makeOffloadKey : Hash → Nat → Key) (hashBlockSize : Nat)
    (mambaAlignSize : Option Nat) (manager : Key → Option Bool) (connector : Connector config ReqId Key Hash Source)
    (reqId : ReqId) (numComputedTokens : Nat) :
    Except ConnectorFault (Connector config ReqId Key Hash Source × Option Nat) :=
  match connector.scheduler.reqStatus.get? reqId with
  | none => .error .unknownRequest
  | some status =>
      let view := connector.view reqId
      let status := (status.clearBlockIds).updateOffloadKeys makeOffloadKey hashBlockSize view.blockHashes
      let next := { connector.setStatus reqId status with
        view := Function.update connector.view reqId { view with numLocallyComputedTokens := numComputedTokens } }
      if view.skipReadingPrefixCache then .ok (next, some 0)
      else
        match lookup manager status.lookupGroups status.req.numTokens numComputedTokens mambaAlignSize
            connector.blocksBeingLoaded (maxHitSize status.lookupGroups status.req.numTokens mambaAlignSize + 2) with
        | some (.ok numHitTokens) => .ok (next, numHitTokens)
        | _ => .error .keysMissing

/-- `update_state_after_alloc`, with the blocks of each group. -/
def updateStateAfterAlloc [DecidableEq Key] (prepareLoad : List Key → Source)
    (connector : Connector config ReqId Key Hash Source) (reqId : ReqId) (blocks : List (List KVCacheBlock))
    (numExternalTokens : Nat) : Except ConnectorFault (Connector config ReqId Key Hash Source) :=
  if numExternalTokens = 0 then .ok connector
  else
    match connector.scheduler.reqStatus.get? reqId with
    | none => .error .unknownRequest
    | some status => do
        let numLocallyComputedTokens := (connector.view reqId).numLocallyComputedTokens
        let numCachedTokens := numLocallyComputedTokens + numExternalTokens
        let parts ← ((config.kvGroupConfigs.zip status.groupStates).zip blocks).mapM fun group =>
          loadPart numLocallyComputedTokens numCachedTokens group.1.1 group.1.2 group.2 config.blockSizeFactor
        let keysToLoad := parts.flatMap LoadPart.keysToLoad
        let dstSpec : GPULoadStoreSpec :=
          { blockIds := parts.flatMap LoadPart.dstBlockIds
            groupSizes := parts.map fun part => part.dstBlockIds.length
            blockIndices := parts.map LoadPart.blockIndex }
        let loadJobId := connector.scheduler.jobCounter
        -- A load can only be issued when no other jobs are pending.
        if status.transferJobs ≠ [] then .error .jobsPending
        else
          let stored := status.mapGroups (skipLoaded parts (connector.view reqId).policy)
          .ok { connector with
            scheduler := { connector.scheduler with
              reqStatus := connector.scheduler.reqStatus.set reqId { stored with transferJobs := [loadJobId] }
              jobs := connector.scheduler.jobs.set loadJobId
                { reqId := reqId
                  pendingCount := config.numWorkers
                  keys := keysToLoad.dedup
                  isStore := false
                  nonSlidingWindowBlockIds := none
                  slidingWindowBlockIds := none }
              jobCounter := loadJobId + 1 }
            currentBatchLoadJobs := connector.currentBatchLoadJobs.set loadJobId
              ⟨reqId, prepareLoad keysToLoad, dstSpec⟩
            currentBatchAllocatedBlockIds := (blocks.take config.kvGroupConfigs.length).foldl (fun allocated groupBlocks =>
              allocated ∪ nonzero (groupBlocks.map KVCacheBlock.blockId)) connector.currentBatchAllocatedBlockIds
            blocksBeingLoaded := connector.blocksBeingLoaded.map (· ∪ keysToLoad) }

/-- What `_update_req_states` carries along: the ends of the blocks that requests had before. -/
structure Extended (config : SchedulerOffloadConfig) (ReqId Key : Type) where
  reqStatus : OrderedDict ReqId (RequestOffloadState config Key)
  newBlockIdsEnd : OrderedDict ReqId (List Nat)
  allocated : List Nat

/-- A request's turn in `_update_req_states`. -/
def extendRequest (makeOffloadKey : Hash → Nat → Key) (hashBlockSize : Nat) (view : ReqId → RequestView Hash)
    (extended : Extended config ReqId Key) (data : ReqId × Option (List (List Nat)) × Bool) :
    Except ConnectorFault (Extended config ReqId Key) :=
  let (reqId, newBlockIdGroups, preempted) := data
  match extended.reqStatus.get? reqId with
  | none => .error .unknownRequest
  | some status =>
      let status := status.updateOffloadKeys makeOffloadKey hashBlockSize (view reqId).blockHashes
      let status := if preempted then status.clearBlockIds else status
      let newBlockIdGroups := newBlockIdGroups.getD []
      if newBlockIdGroups = [] then .ok { extended with reqStatus := extended.reqStatus.set reqId status }
      else if newBlockIdGroups.length ≠ status.groupStates.length then .error .blocksMissing
      else .ok
        { reqStatus := extended.reqStatus.set reqId (status.updateBlockIdGroups newBlockIdGroups)
          newBlockIdsEnd :=
            extended.newBlockIdsEnd.set reqId (status.groupStates.map fun groupState => groupState.blockIds.length)
          allocated := newBlockIdGroups.foldl (fun allocated newBlocks => allocated ∪ nonzero newBlocks)
            extended.allocated }

/-- `_update_req_states`. -/
def updateReqStates (makeOffloadKey : Hash → Nat → Key) (hashBlockSize : Nat)
    (connector : Connector config ReqId Key Hash Source) (output : SchedulerOutput ReqId) :
    Except ConnectorFault (Connector config ReqId Key Hash Source) := do
  let extended ← output.reqData.foldlM (extendRequest makeOffloadKey hashBlockSize connector.view)
    { reqStatus := connector.scheduler.reqStatus
      newBlockIdsEnd := OrderedDict.empty
      allocated := connector.currentBatchAllocatedBlockIds }
  return { connector with
    scheduler := { connector.scheduler with
      reqStatus := extended.reqStatus.filterMap fun reqId status =>
        some (status.zeroStale extended.allocated (extended.newBlockIdsEnd.get? reqId)) }
    currentBatchAllocatedBlockIds := extended.allocated }

/-- The jobs of a request that is preempted are flushed. These are stores. -/
def flushPreempted (connector : Connector config ReqId Key Hash Source) (jobsToFlush : List Nat) (reqId : ReqId) :
    Except ConnectorFault (List Nat) :=
  match connector.scheduler.reqStatus.get? reqId with
  | none => .ok jobsToFlush
  | some status =>
      match checkPending connector.scheduler status with
      | .error fault => .error (.ofStore fault)
      | .ok _ => .ok (jobsToFlush ∪ status.transferJobs)

/-- The jobs that read a block which was handed out again are flushed. -/
def flushReallocated (connector : Connector config ReqId Key Hash Source) (jobsToFlush : List Nat) : List Nat :=
  connector.currentBatchAllocatedBlockIds.foldl (fun flush blockId =>
    flush ∪ (connector.scheduler.blockIdToPendingJobs.get? blockId).getD []) jobsToFlush

/-- `build_connector_meta`. -/
def buildConnectorMeta [DecidableEq Key] (makeOffloadKey : Hash → Nat → Key) (hashBlockSize : Nat)
    (prepareStore : ReqId → List Key → Option (PrepareStoreOutput Key Target))
    (connector : Connector config ReqId Key Hash Source) (output : SchedulerOutput ReqId) :
    Except ConnectorFault (Connector config ReqId Key Hash Source × ConnectorMetadata ReqId Source Target) := do
  let updated ← connector.updateReqStates makeOffloadKey hashBlockSize output
  let preempted ← output.preemptedReqIds.foldlM updated.flushPreempted updated.currentBatchJobsToFlush
  let jobsToFlush := updated.flushReallocated preempted
  match buildStoreJobs updated.scheduler output.numScheduledTokens prepareStore with
  | .error fault => .error (.ofStore fault)
  | .ok (scheduler, storeJobs) => return (
      { updated with
        scheduler := scheduler
        currentBatchLoadJobs := OrderedDict.empty
        currentBatchJobsToFlush := []
        currentBatchAllocatedBlockIds := [] },
      ⟨updated.currentBatchLoadJobs, storeJobs, jobsToFlush⟩)

/-- A block's turn in `_remove_pending_job`. -/
def removePending (jobId : Nat) (blockIdToPendingJobs : OrderedDict Nat (List Nat)) (blockId : Nat) :
    Except ConnectorFault (OrderedDict Nat (List Nat)) :=
  match blockIdToPendingJobs.get? blockId with
  | none => .error .notWatched
  | some pending =>
      if jobId ∈ pending then
        if pending.erase jobId = [] then .ok (blockIdToPendingJobs.erase blockId)
        else .ok (blockIdToPendingJobs.set blockId (pending.erase jobId))
      else .error .notWatched

def removePendingJob (blockIdToPendingJobs : OrderedDict Nat (List Nat)) (jobId : Nat) (blockIds : Option (List Nat)) :
    Except ConnectorFault (OrderedDict Nat (List Nat)) :=
  (blockIds.getD []).foldlM (removePending jobId) blockIdToPendingJobs

/-- The blocks of a job that ends are watched for it no longer. -/
def unwatch (blockIdToPendingJobs : OrderedDict Nat (List Nat)) (jobId : Nat) (job : TransferJobStatus ReqId Key)
    (finished : Bool) : Except ConnectorFault (OrderedDict Nat (List Nat)) :=
  if blockIdToPendingJobs.entries = [] then .ok blockIdToPendingJobs
  else do
    let pending ← removePendingJob blockIdToPendingJobs jobId job.slidingWindowBlockIds
    if finished then removePendingJob pending jobId job.nonSlidingWindowBlockIds else .ok pending

/-- The last report of a job ends it. A request that has finished ends with its last job. -/
def endJob [DecidableEq Key] (connector : Connector config ReqId Key Hash Source) (jobId : Nat)
    (job : TransferJobStatus ReqId Key) :
    Except ConnectorFault (Connector config ReqId Key Hash Source × List (ManagerCall ReqId Key)) :=
  match connector.scheduler.reqStatus.get? job.reqId with
  | none => .error .unknownRequest
  | some status => do
      let finished := (connector.view job.reqId).isFinished
      let call := if job.isStore then .completeStore jobId job.reqId job.keys else .completeLoad jobId job.reqId job.keys
      let blocksBeingLoaded :=
        if job.isStore then connector.blocksBeingLoaded
        else connector.blocksBeingLoaded.map fun loading => loading.filter (· ∉ job.keys)
      let pending ← unwatch connector.scheduler.blockIdToPendingJobs jobId job finished
      if jobId ∉ status.transferJobs then .error .unknownJob
      else
        let left := status.transferJobs.erase jobId
        let last := left = [] ∧ finished = true
        return (
          { connector with
            scheduler := { connector.scheduler with
              reqStatus :=
                if last then connector.scheduler.reqStatus.erase job.reqId
                else connector.scheduler.reqStatus.set job.reqId { status with transferJobs := left }
              jobs := connector.scheduler.jobs.erase jobId
              blockIdToPendingJobs := pending }
            blocksBeingLoaded := blocksBeingLoaded },
          call :: if last then [.onRequestFinished job.reqId] else [])

/-- A report of `completed_jobs`: so many workers are done with a job. -/
def reportJob [DecidableEq Key] (connector : Connector config ReqId Key Hash Source) (jobId count : Nat) :
    Except ConnectorFault (Connector config ReqId Key Hash Source × List (ManagerCall ReqId Key)) :=
  if count = 0 then .error .badCount
  else if jobId < connector.staleJobThreshold then .ok (connector, [])
  else
    match connector.scheduler.jobs.get? jobId with
    | none => .error .unknownJob
    | some job =>
        if count < job.pendingCount then
          .ok ({ connector with
            scheduler := { connector.scheduler with
              jobs := connector.scheduler.jobs.set jobId { job with pendingCount := job.pendingCount - count } } }, [])
        else if job.pendingCount < count then .error .badCount
        else connector.endJob jobId job

/-- `update_connector_output`. -/
def updateConnectorOutput [DecidableEq Key] (connector : Connector config ReqId Key Hash Source)
    (completedJobs : OrderedDict Nat Nat) :
    Except ConnectorFault (Connector config ReqId Key Hash Source × List (ManagerCall ReqId Key)) :=
  completedJobs.entries.foldlM (fun (connector, calls) (jobId, count) => do
    let (connector, more) ← connector.reportJob jobId count
    return (connector, calls ++ more)) (connector, [])

/-- The blocks of a store are watched from now on: they may be handed out again. -/
def watchJob (scheduler : OffloadingConnectorScheduler config ReqId Key)
    (blockIdToPendingJobs : OrderedDict Nat (List Nat)) (jobId : Nat) :
    Except ConnectorFault (OrderedDict Nat (List Nat)) :=
  match scheduler.jobs.get? jobId with
  | none => .error .unknownJob
  | some job => .ok ((job.nonSlidingWindowBlockIds.getD []).foldl (fun pending blockId =>
      pending.set blockId (((pending.get? blockId).getD []).insert jobId)) blockIdToPendingJobs)

/-- `request_finished`, of a request that the core scheduler has just finished. -/
def requestFinished (connector : Connector config ReqId Key Hash Source) (reqId : ReqId) :
    Except ConnectorFault (Connector config ReqId Key Hash Source × List (ManagerCall ReqId Key)) :=
  let connector := { connector with
    view := Function.update connector.view reqId { connector.view reqId with isFinished := true } }
  match connector.scheduler.reqStatus.get? reqId with
  | none => .ok (connector, [.onRequestFinished reqId])
  | some status =>
      if status.transferJobs = [] then
        .ok ({ connector with
          scheduler := { connector.scheduler with reqStatus := connector.scheduler.reqStatus.erase reqId } },
          [.onRequestFinished reqId])
      else do
        let pending ← status.transferJobs.foldlM (watchJob connector.scheduler) connector.scheduler.blockIdToPendingJobs
        return ({ connector with scheduler := { connector.scheduler with blockIdToPendingJobs := pending } }, [])

/-- `reset_cache`. The jobs of a request stay in its state. -/
def resetCache (connector : Connector config ReqId Key Hash Source) :
    Except ConnectorFault (Connector config ReqId Key Hash Source × List (ManagerCall ReqId Key)) :=
  if connector.currentBatchLoadJobs.entries ≠ [] ∨ connector.currentBatchJobsToFlush ≠ [] ∨
      connector.currentBatchAllocatedBlockIds ≠ [] then .error .midStep
  else
    let finished := connector.scheduler.reqStatus.keys.filter fun reqId => (connector.view reqId).isFinished
    .ok ({ connector with
      scheduler :=
        { reqStatus := connector.scheduler.reqStatus.filterMap fun reqId status =>
            if (connector.view reqId).isFinished then none
            else some (status.mapGroups fun _ _ groupState => { groupState with nextStoredBlockIdx := 0 })
          jobs := OrderedDict.empty
          blockIdToPendingJobs := OrderedDict.empty
          jobCounter := connector.scheduler.jobCounter }
      currentBatchJobsToFlush := connector.scheduler.jobs.keys
      blocksBeingLoaded := connector.blocksBeingLoaded.map fun _ => []
      staleJobThreshold := connector.scheduler.jobCounter },
      finished.map .onRequestFinished ++ [.resetCache])

end Connector

end DgxSpark.Offload

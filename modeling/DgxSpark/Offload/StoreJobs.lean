import DgxSpark.Library.OrderedDict
import DgxSpark.Library.Grid

/-
This file embeds the store jobs of `offloading/scheduler.py`: the group configurations, the state of a
request and `_build_store_jobs`.
-/

namespace DgxSpark.Offload
open DgxSpark.Library

/-- The attention kinds of a group. -/
inductive KVCacheSpec where
  | fullAttention
  | slidingWindow (size : Nat) (positive : 0 < size)
  | mamba

/-- None means full attention. -/
def getSlidingWindowSizeInBlocks (spec : KVCacheSpec) (offloadedBlockSize : Nat) : Option Nat :=
  match spec with
  | .slidingWindow size _ => some ((size + offloadedBlockSize - 1) / offloadedBlockSize)
  -- A single state.
  | .mamba => some 1
  | .fullAttention => none

/-- `_alignment_block_count`: the blocks of a group for each alignment segment. -/
def alignmentBlockCount (alignmentTokens : Option Nat) (offloadedBlockSize : Nat)
    (slidingWindowSizeInBlocks : Option Nat) : Option Nat :=
  match alignmentTokens, slidingWindowSizeInBlocks with
  | some tokens, some window =>
      if tokens ≤ offloadedBlockSize then none
      else
        let perSegment := tokens / offloadedBlockSize
        if perSegment ≤ window then none else some perSegment
  | _, _ => none

/-- An alignment count stands beside a window that is shorter. -/
structure GroupOffloadConfig where
  offloadedBlockSize : Nat
  slidingWindowSizeInBlocks : Option Nat
  alignmentBlockCount : Option Nat
  isEagleGroup : Bool
  sized : 0 < offloadedBlockSize
  aligned : ∀ count ∈ alignmentBlockCount, ∃ window ∈ slidingWindowSizeInBlocks, window < count

structure SchedulerOffloadConfig where
  kvGroupConfigs : List GroupOffloadConfig
  blockSizeFactor : Nat
  numWorkers : Nat
  offloadPromptOnly : Bool
  factored : 0 < blockSizeFactor

/-- A group of the cache as the offloading spec names it. -/
structure KVCacheGroup where
  spec : KVCacheSpec
  gpuBlockSize : Nat
  isEagleGroup : Bool
  sized : 0 < gpuBlockSize

theorem alignmentBlockCount_aligned {alignmentTokens : Option Nat} {offloadedBlockSize : Nat} {window? : Option Nat} :
    ∀ count ∈ alignmentBlockCount alignmentTokens offloadedBlockSize window?, ∃ window ∈ window?, window < count := by
  intro count counted
  unfold alignmentBlockCount at counted
  split at counted
  case h_1 tokens window =>
    simp only [Option.mem_def] at counted ⊢
    split at counted
    · cases counted
    · split at counted
      · cases counted
      · obtain rfl := Option.some.inj counted
        exact ⟨window, rfl, by omega⟩
  case h_2 => cases counted

/-- `SchedulerOffloadConfig.from_spec`. -/
def SchedulerOffloadConfig.fromSpec (groups : List KVCacheGroup) (blockSizeFactor numWorkers : Nat)
    (offloadPromptOnly useEagle : Bool) (factored : 0 < blockSizeFactor) : SchedulerOffloadConfig where
  kvGroupConfigs :=
    let window := fun group : KVCacheGroup =>
      getSlidingWindowSizeInBlocks group.spec (group.gpuBlockSize * blockSizeFactor)
    let fullAttnOffloadedBlockSizes :=
      ((groups.filter fun group => (window group).isNone).map (·.gpuBlockSize * blockSizeFactor)).dedup
    let alignmentTokens :=
      if fullAttnOffloadedBlockSizes.length = 1 then fullAttnOffloadedBlockSizes.head? else none
    -- Without a marked group, a drafter that is part of the target makes all groups volatile.
    let allEagle := useEagle && !groups.any (·.isEagleGroup)
    groups.map fun group =>
      { offloadedBlockSize := group.gpuBlockSize * blockSizeFactor
        slidingWindowSizeInBlocks := window group
        alignmentBlockCount :=
          alignmentBlockCount alignmentTokens (group.gpuBlockSize * blockSizeFactor) (window group)
        isEagleGroup := group.isEagleGroup || allEagle
        sized := Nat.mul_pos group.sized factored
        aligned := alignmentBlockCount_aligned }
  blockSizeFactor := blockSizeFactor
  numWorkers := numWorkers
  offloadPromptOnly := offloadPromptOnly
  factored := factored

def storableBlocks (groupConfig : GroupOffloadConfig) (numTokens : Nat) : Nat :=
  let numBlocks := numTokens / groupConfig.offloadedBlockSize
  if groupConfig.isEagleGroup then numBlocks - 1 else numBlocks

structure RequestGroupState (Key : Type) where
  offloadKeys : List Key
  blockIds : List Nat
  nextStoredBlockIdx : Nat

structure Request where
  numTokens : Nat
  numPromptTokens : Nat
  numComputedTokens : Nat

/-- A request has one state for each group. -/
structure RequestOffloadState (config : SchedulerOffloadConfig) (Key : Type) where
  req : Request
  groupStates : List (RequestGroupState Key)
  grouped : groupStates.length = config.kvGroupConfigs.length
  maxOffloadTokens : Option Nat
  transferJobs : List Nat

structure TransferJobStatus (ReqId Key : Type) where
  reqId : ReqId
  pendingCount : Nat
  keys : List Key
  isStore : Bool
  nonSlidingWindowBlockIds : Option (List Nat)
  slidingWindowBlockIds : Option (List Nat)

structure GPULoadStoreSpec where
  blockIds : List Nat
  groupSizes : List Nat
  blockIndices : List Nat

structure TransferJob (ReqId Target : Type) where
  reqId : ReqId
  transferSpec : GPULoadStoreSpec × Target

/-- What the manager answers to `prepare_store`. -/
structure PrepareStoreOutput (Key Target : Type) where
  keysToStore : List Key
  storeSpec : Target

structure OffloadingConnectorScheduler (config : SchedulerOffloadConfig) (ReqId Key : Type) where
  reqStatus : OrderedDict ReqId (RequestOffloadState config Key)
  jobs : OrderedDict Nat (TransferJobStatus ReqId Key)
  blockIdToPendingJobs : OrderedDict Nat (List Nat)
  jobCounter : Nat

/-- The assertions of `_build_store_jobs`, and the look-up of a job that is not there. -/
inductive StoreFault where
  | blocksMissing
  | unknownJob
  | loadPending

/-- `values[start:stop]`. -/
def slice {Value : Type} (values : List Value) (start stop : Nat) : List Value := (values.take stop).drop start

/-- `values[start:stop:step]`. -/
def sliceStep (values : List Nat) (start stop step : Nat) : List Nat :=
  (rangeStep start (min stop values.length) step).map fun place => values.getD place 0

variable {config : SchedulerOffloadConfig} {ReqId Key Target : Type}

def RequestOffloadState.numOffloadableTokens (status : RequestOffloadState config Key) (numScheduledTokens : Nat) : Nat :=
  let numTokensAfterBatch := status.req.numComputedTokens + numScheduledTokens
  -- With async scheduling, some tokens may be missing.
  let numOffloadableTokens := min numTokensAfterBatch status.req.numTokens
  let numOffloadableTokens := match status.maxOffloadTokens with
    | some maxOffloadTokens => min numOffloadableTokens maxOffloadTokens
    | none => numOffloadableTokens
  if config.offloadPromptOnly then min numOffloadableTokens status.req.numPromptTokens else numOffloadableTokens

/-- The progress of all groups is set to what may be stored. -/
def RequestOffloadState.advanceStoredIdx (status : RequestOffloadState config Key) (numOffloadableTokens : Nat) :
    RequestOffloadState config Key :=
  { status with
    groupStates := List.zipWith (fun groupConfig groupState =>
      { groupState with nextStoredBlockIdx := storableBlocks groupConfig numOffloadableTokens })
      config.kvGroupConfigs status.groupStates
    grouped := by rw [List.length_zipWith, status.grouped, Nat.min_self] }

/-- A load reaches only the trailing blocks of an alignment segment. The window is there by `aligned`. -/
def GroupOffloadConfig.unreachable (groupConfig : GroupOffloadConfig) (absBlockIdx : Nat) : Bool :=
  match groupConfig.alignmentBlockCount, groupConfig.slidingWindowSizeInBlocks with
  | some alignmentBlockCount, some tail => absBlockIdx % alignmentBlockCount < alignmentBlockCount - tail
  | _, _ => false

/-- The keys that a group has to store. -/
def groupOffloadKeys (blockSizeFactor numOffloadableTokens : Nat) (groupConfig : GroupOffloadConfig)
    (groupState : RequestGroupState Key) : Except StoreFault (List Key) :=
  let numBlocks := storableBlocks groupConfig numOffloadableTokens
  let startBlockIdx := groupState.nextStoredBlockIdx
  if numBlocks ≤ startBlockIdx then .ok []
  else
    let offloadKeys := slice groupState.offloadKeys startBlockIdx numBlocks
    -- The last GPU block of each block. An id of 0 is a skip or a stale entry.
    let offloadBlockIds := sliceStep groupState.blockIds (startBlockIdx * blockSizeFactor + blockSizeFactor - 1)
      (numBlocks * blockSizeFactor) blockSizeFactor
    if offloadKeys.length ≠ offloadBlockIds.length then .error .blocksMissing
    else .ok (((offloadKeys.zip offloadBlockIds).zipIdx startBlockIdx).filterMap fun ((offloadKey, blockId), absBlockIdx) =>
      if blockId = 0 then none else if groupConfig.unreachable absBlockIdx then none else some offloadKey)

/-- The keys that a request presents to `prepare_store`. -/
def RequestOffloadState.newOffloadKeys (status : RequestOffloadState config Key) (numOffloadableTokens : Nat) :
    Except StoreFault (List Key) := do
  let keys ← (config.kvGroupConfigs.zip status.groupStates).mapM fun group =>
    groupOffloadKeys config.blockSizeFactor numOffloadableTokens group.1 group.2
  return keys.flatten

variable [DecidableEq Key]

/-- The GPU blocks that a group stores, each with its place in the group. The first pass has read the last one. -/
def groupSources (blockSizeFactor numOffloadableTokens : Nat) (keysToStore : List Key) (groupConfig : GroupOffloadConfig)
    (groupState : RequestGroupState Key) : List (Nat × Nat) :=
  let numBlocks := storableBlocks groupConfig numOffloadableTokens
  let startBlockIdx := groupState.nextStoredBlockIdx
  ((slice groupState.offloadKeys startBlockIdx numBlocks).zipIdx startBlockIdx).flatMap fun (offloadKey, offloadedBlockIdx) =>
    if offloadKey ∈ keysToStore then
      let gpuBlockIdx := offloadedBlockIdx * blockSizeFactor
      (List.range blockSizeFactor).filterMap fun i =>
        let blockId := groupState.blockIds.getD (gpuBlockIdx + i) 0
        if blockId = 0 then none else some (gpuBlockIdx + i, blockId)
    else []

/-- The GPU blocks of a store, group by group, each group with its mark of a sliding window. -/
def RequestOffloadState.transferGroups (status : RequestOffloadState config Key) (numOffloadableTokens : Nat)
    (keysToStore : List Key) : List (Bool × List (Nat × Nat)) :=
  (config.kvGroupConfigs.zip status.groupStates).map fun group =>
    (group.1.slidingWindowSizeInBlocks.isSome,
      groupSources config.blockSizeFactor numOffloadableTokens keysToStore group.1 group.2)

def GPULoadStoreSpec.ofGroups (groups : List (Bool × List (Nat × Nat))) : GPULoadStoreSpec where
  blockIds := groups.flatMap fun group => group.2.map Prod.snd
  groupSizes := groups.map fun group => group.2.length
  blockIndices := groups.map fun group => (group.2.head?.map Prod.fst).getD 0

/-- A store can only be issued when no load is pending. The jobs of a request are of one kind. -/
def checkPending (scheduler : OffloadingConnectorScheduler config ReqId Key) (status : RequestOffloadState config Key) :
    Except StoreFault Unit :=
  match status.transferJobs.head? with
  | none => .ok ()
  | some anyJid =>
    match scheduler.jobs.get? anyJid with
    | none => .error .unknownJob
    | some job => if job.isStore then .ok () else .error .loadPending

variable [DecidableEq ReqId]

/-- The progress of a request is set to what may be stored. -/
def OffloadingConnectorScheduler.advance (scheduler : OffloadingConnectorScheduler config ReqId Key) (reqId : ReqId)
    (status : RequestOffloadState config Key) (numOffloadableTokens : Nat) :
    OffloadingConnectorScheduler config ReqId Key :=
  { scheduler with reqStatus := scheduler.reqStatus.set reqId (status.advanceStoredIdx numOffloadableTokens) }

/-- The job of a store is registered. -/
def issueStore (scheduler : OffloadingConnectorScheduler config ReqId Key) (reqId : ReqId)
    (status : RequestOffloadState config Key) (numOffloadableTokens : Nat)
    (storeOutput : PrepareStoreOutput Key Target) :
    OffloadingConnectorScheduler config ReqId Key × (Nat × TransferJob ReqId Target) :=
  let groups := status.transferGroups numOffloadableTokens storeOutput.keysToStore
  let slidingWindowBlockIds := (groups.filter (·.1)).flatMap fun group => group.2.map Prod.snd
  let nonSlidingWindowBlockIds := (groups.filter (!·.1)).flatMap fun group => group.2.map Prod.snd
  let jobId := scheduler.jobCounter
  let stored := status.advanceStoredIdx numOffloadableTokens
  ({ reqStatus := scheduler.reqStatus.set reqId { stored with transferJobs := stored.transferJobs.insert jobId }
     jobs := scheduler.jobs.set jobId
       { reqId := reqId
         pendingCount := config.numWorkers
         keys := storeOutput.keysToStore.dedup
         isStore := true
         nonSlidingWindowBlockIds := some nonSlidingWindowBlockIds
         slidingWindowBlockIds := if slidingWindowBlockIds = [] then none else some slidingWindowBlockIds }
     blockIdToPendingJobs := slidingWindowBlockIds.foldl (fun pending blockId =>
       pending.set blockId (((pending.get? blockId).getD []).insert jobId)) scheduler.blockIdToPendingJobs
     jobCounter := scheduler.jobCounter + 1 },
    (jobId, { reqId := reqId, transferSpec := (GPULoadStoreSpec.ofGroups groups, storeOutput.storeSpec) }))

/-- A request's turn in `_build_store_jobs`. -/
def buildStoreJob (scheduler : OffloadingConnectorScheduler config ReqId Key) (reqId : ReqId)
    (status : RequestOffloadState config Key) (numScheduledTokens : Nat)
    (prepareStore : List Key → Option (PrepareStoreOutput Key Target)) :
    Except StoreFault (OffloadingConnectorScheduler config ReqId Key × Option (Nat × TransferJob ReqId Target)) := do
  let numOffloadableTokens := status.numOffloadableTokens numScheduledTokens
  let newOffloadKeys ← status.newOffloadKeys numOffloadableTokens
  if newOffloadKeys = [] then return (scheduler.advance reqId status numOffloadableTokens, none)
  match prepareStore newOffloadKeys with
  | none => return (scheduler, none)
  | some storeOutput =>
    if storeOutput.keysToStore = [] then return (scheduler.advance reqId status numOffloadableTokens, none)
    checkPending scheduler status
    let (scheduler, job) := issueStore scheduler reqId status numOffloadableTokens storeOutput
    return (scheduler, some job)

/-- The turn of a scheduled request; an unknown request has none. -/
def storeTurn (prepareStore : ReqId → List Key → Option (PrepareStoreOutput Key Target))
    (state : OffloadingConnectorScheduler config ReqId Key × OrderedDict Nat (TransferJob ReqId Target))
    (entry : ReqId × Nat) :
    Except StoreFault (OffloadingConnectorScheduler config ReqId Key × OrderedDict Nat (TransferJob ReqId Target)) :=
  match state.1.reqStatus.get? entry.1 with
  | none => .ok state
  | some status => do
    let (scheduler, job) ← buildStoreJob state.1 entry.1 status entry.2 (prepareStore entry.1)
    match job with
    | none => return (scheduler, state.2)
    | some job => return (scheduler, state.2.set job.1 job.2)

/-- `_build_store_jobs`: the scheduled requests in turn, with what the manager answers to each. -/
def buildStoreJobs (scheduler : OffloadingConnectorScheduler config ReqId Key) (numScheduledTokens : OrderedDict ReqId Nat)
    (prepareStore : ReqId → List Key → Option (PrepareStoreOutput Key Target)) :
    Except StoreFault (OffloadingConnectorScheduler config ReqId Key × OrderedDict Nat (TransferJob ReqId Target)) :=
  numScheduledTokens.entries.foldlM (storeTurn prepareStore) (scheduler, OrderedDict.empty)

end DgxSpark.Offload

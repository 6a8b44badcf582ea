import DgxSpark.Offload.ConnectorRun

/-
This file follows the blocks that a request holds for as long as it runs: those of its groups with full attention. A store
that is issued reads only such blocks, or blocks of windows.
-/

namespace DgxSpark.Offload
open DgxSpark.Library

variable {config : SchedulerOffloadConfig} {ReqId Key Hash Source Target : Type}

namespace RequestOffloadState

/-- The blocks of the groups with full attention. -/
def heldBlockIds (status : RequestOffloadState config Key) : List Nat :=
  (config.kvGroupConfigs.zip status.groupStates).flatMap fun group =>
    if group.1.slidingWindowSizeInBlocks.isSome then [] else group.2.blockIds

theorem mem_heldBlockIds {status : RequestOffloadState config Key} {blockId : Nat} :
    blockId ∈ status.heldBlockIds ↔ ∃ group ∈ config.kvGroupConfigs.zip status.groupStates,
      group.1.slidingWindowSizeInBlocks.isSome = false ∧ blockId ∈ group.2.blockIds := by
  rw [heldBlockIds, List.mem_flatMap]
  refine exists_congr fun group => and_congr_right fun _ => ?_
  cases group.1.slidingWindowSizeInBlocks.isSome <;> simp

/-- The groups after a change, each with its configuration. -/
theorem mem_mapGroups {status : RequestOffloadState config Key}
    {change : Nat → GroupOffloadConfig → RequestGroupState Key → RequestGroupState Key}
    {group : GroupOffloadConfig × RequestGroupState Key} :
    group ∈ config.kvGroupConfigs.zip (status.mapGroups change).groupStates ↔
      ∃ index before, (config.kvGroupConfigs.zip status.groupStates)[index]? = some (group.1, before) ∧
        group.2 = change index group.1 before := by
  obtain ⟨groupConfig, groupState⟩ := group
  rw [List.mem_iff_getElem?]
  refine exists_congr fun index => ?_
  simp only [mapGroups, List.getElem?_zip_eq_some, List.getElem?_map, Option.map_eq_some_iff, List.getElem?_zipIdx]
  constructor
  · rintro ⟨configured, ⟨⟨⟨other, before⟩, place⟩, ⟨pair, ⟨sameConfig, held⟩, same⟩, rfl⟩⟩
    cases same
    rw [configured, Option.some.injEq] at sameConfig
    exact ⟨before, ⟨configured, held⟩, by simp [sameConfig]⟩
  · rintro ⟨before, ⟨configured, held⟩, rfl⟩
    exact ⟨configured, ((groupConfig, before), index), ⟨(groupConfig, before), ⟨configured, held⟩, by simp⟩, rfl⟩

/-- A change that keeps the blocks of the groups with full attention keeps the blocks that the request holds. -/
theorem heldBlockIds_mapGroups {status : RequestOffloadState config Key}
    {change : Nat → GroupOffloadConfig → RequestGroupState Key → RequestGroupState Key}
    (keeps : ∀ index groupConfig groupState, groupConfig.slidingWindowSizeInBlocks.isSome = false →
      groupState.blockIds ⊆ (change index groupConfig groupState).blockIds) :
    status.heldBlockIds ⊆ (status.mapGroups change).heldBlockIds := by
  intro blockId member
  obtain ⟨⟨groupConfig, groupState⟩, inside, full, held⟩ := mem_heldBlockIds.mp member
  obtain ⟨index, there⟩ := List.mem_iff_getElem?.mp inside
  exact mem_heldBlockIds.mpr ⟨(groupConfig, change index groupConfig groupState),
    mem_mapGroups.mpr ⟨index, groupState, there, rfl⟩, full, keeps index groupConfig groupState full held⟩

theorem heldBlockIds_advance (status : RequestOffloadState config Key) (numTokens : Nat) :
    (status.advanceStoredIdx numTokens).heldBlockIds = status.heldBlockIds := by
  have zipped : ∀ (configs : List GroupOffloadConfig) (states : List (RequestGroupState Key)),
      (configs.zip (List.zipWith (fun groupConfig groupState =>
        { groupState with nextStoredBlockIdx := storableBlocks groupConfig numTokens }) configs states)).flatMap
          (fun group => if group.1.slidingWindowSizeInBlocks.isSome then [] else group.2.blockIds) =
        (configs.zip states).flatMap fun group =>
          if group.1.slidingWindowSizeInBlocks.isSome then [] else group.2.blockIds := by
    intro configs
    induction configs with
    | nil => exact fun _ => rfl
    | cons groupConfig rest ih =>
        intro states
        cases states with
        | nil => rfl
        | cons groupState more => simp only [List.zipWith_cons_cons, List.zip_cons_cons, List.flatMap_cons, ih]
  exact zipped _ _

end RequestOffloadState

/-- The blocks that a request holds, none if it is not tracked. -/
def OffloadingConnectorScheduler.held [DecidableEq ReqId] (scheduler : OffloadingConnectorScheduler config ReqId Key)
    (reqId : ReqId) : List Nat :=
  ((scheduler.reqStatus.get? reqId).map RequestOffloadState.heldBlockIds).getD []

section Sources

variable [DecidableEq Key]

/-- A group stores blocks of its own. -/
theorem mem_groupSources {blockSizeFactor numTokens : Nat} {keysToStore : List Key} {groupConfig : GroupOffloadConfig}
    {groupState : RequestGroupState Key} {source : Nat × Nat}
    (member : source ∈ groupSources blockSizeFactor numTokens keysToStore groupConfig groupState) :
    source.2 ∈ groupState.blockIds := by
  unfold groupSources at member
  obtain ⟨⟨key, block⟩, _, member⟩ := List.mem_flatMap.mp member
  simp only at member
  split at member
  · obtain ⟨i, _, found⟩ := List.mem_filterMap.mp member
    split at found
    · cases found
    · rename_i positive
      cases found
      simp only [List.getD_eq_getElem?_getD] at positive ⊢
      cases there : groupState.blockIds[block * blockSizeFactor + i]? with
      | none =>
          rw [there] at positive
          exact absurd rfl positive
      | some blockId => exact List.mem_of_getElem? there
  · cases member

/-- The blocks that a store reads beside its windows are held by the request. -/
theorem transferGroups_held {status : RequestOffloadState config Key} {numTokens : Nat} {keysToStore : List Key}
    {blockId : Nat}
    (member : blockId ∈ ((status.transferGroups numTokens keysToStore).filter (!·.1)).flatMap
      fun group => group.2.map Prod.snd) : blockId ∈ status.heldBlockIds := by
  obtain ⟨⟨window, sources⟩, inside, member⟩ := List.mem_flatMap.mp member
  obtain ⟨inside, full⟩ := List.mem_filter.mp inside
  obtain ⟨group, there, same⟩ := List.mem_map.mp inside
  cases same
  obtain ⟨source, from', rfl⟩ := List.mem_map.mp member
  exact RequestOffloadState.mem_heldBlockIds.mpr ⟨group, there, by simpa using full, mem_groupSources from'⟩

end Sources

variable [DecidableEq ReqId] {scheduler next : OffloadingConnectorScheduler config ReqId Key}

theorem held_some {reqId : ReqId} {status : RequestOffloadState config Key}
    (found : scheduler.reqStatus.get? reqId = some status) : scheduler.held reqId = status.heldBlockIds := by
  rw [OffloadingConnectorScheduler.held, found]
  rfl

theorem held_of {reqId : ReqId} {status : RequestOffloadState config Key}
    (left : next.reqStatus = scheduler.reqStatus.set reqId status) (other : ReqId) :
    next.held other = if other = reqId then status.heldBlockIds else scheduler.held other := by
  rw [OffloadingConnectorScheduler.held, left, OrderedDict.get?_set]
  split <;> rfl

/-- A status that holds the same blocks. -/
theorem held_kept {reqId : ReqId} {status new : RequestOffloadState config Key}
    (found : scheduler.reqStatus.get? reqId = some status) (same : new.heldBlockIds = status.heldBlockIds)
    (left : next.reqStatus = scheduler.reqStatus.set reqId new) (other : ReqId) :
    next.held other = scheduler.held other := by
  rw [held_of left]
  split
  case isTrue equal => rw [equal, held_some found, same]
  case isFalse => rfl

section Stores

variable [DecidableEq Key]

/-- What the stores of a step leave: the blocks that requests hold, and new jobs that read only these beside windows. -/
structure Stored (scheduler next : OffloadingConnectorScheduler config ReqId Key) (scheduled : ReqId → Prop) : Prop where
  held : ∀ reqId, next.held reqId = scheduler.held reqId
  jobs : ∀ jobId job, next.jobs.get? jobId = some job → scheduler.jobs.get? jobId = some job ∨
    (scheduled job.reqId ∧ job.isStore = true ∧
      ∀ blockId ∈ job.nonSlidingWindowBlockIds.getD [], blockId ∈ scheduler.held job.reqId)

omit [DecidableEq Key] in
theorem Stored.trans {last : OffloadingConnectorScheduler config ReqId Key} {scheduled : ReqId → Prop}
    (stored : Stored scheduler next scheduled) (more : Stored next last scheduled) : Stored scheduler last scheduled where
  held reqId := (more.held reqId).trans (stored.held reqId)
  jobs jobId job found := by
    rcases more.jobs jobId job found with before | ⟨due, store, reads⟩
    · exact stored.jobs jobId job before
    · refine .inr ⟨due, store, fun blockId member => ?_⟩
      rw [← stored.held]
      exact reads blockId member

theorem storeTurn_stored {prepareStore : ReqId → List Key → Option (PrepareStoreOutput Key Target)}
    {state after : OffloadingConnectorScheduler config ReqId Key × OrderedDict Nat (TransferJob ReqId Target)}
    {entry : ReqId × Nat} {scheduled : ReqId → Prop} (due : scheduled entry.1)
    (turned : storeTurn prepareStore state entry = .ok after) : Stored state.1 after.1 scheduled := by
  unfold storeTurn at turned
  cases found : state.1.reqStatus.get? entry.1 with
  | none =>
      simp only [found] at turned
      cases turned
      exact ⟨fun _ => rfl, fun _ _ present => .inl present⟩
  | some status =>
      simp only [found] at turned
      obtain ⟨⟨scheduler, job⟩, built, turned⟩ := Library.bind_ok.mp turned
      have left : after.1 = scheduler := by
        cases job <;> cases turned <;> rfl
      rw [left]
      have advanced : scheduler = state.1.advance entry.1 status (status.numOffloadableTokens entry.2) →
          Stored state.1 scheduler scheduled := by
        rintro rfl
        exact ⟨held_kept found (status.heldBlockIds_advance _) rfl, fun _ _ present => .inl present⟩
      unfold buildStoreJob at built
      obtain ⟨keys, _, built⟩ := Library.bind_ok.mp built
      split at built
      case isTrue =>
        cases built
        exact advanced rfl
      case isFalse =>
        split at built
        case h_1 =>
          cases built
          exact ⟨fun _ => rfl, fun _ _ present => .inl present⟩
        case h_2 output _ =>
          split at built
          case isTrue =>
            cases built
            exact advanced rfl
          case isFalse =>
            obtain ⟨⟨⟩, _, built⟩ := Library.bind_ok.mp built
            cases built
            refine ⟨?_, fun jobId job present => ?_⟩
            · have same : ({ status.advanceStoredIdx (status.numOffloadableTokens entry.2) with
                  transferJobs := status.transferJobs.insert state.1.jobCounter } :
                    RequestOffloadState config Key).heldBlockIds = status.heldBlockIds := status.heldBlockIds_advance _
              exact held_kept found same rfl
            · rcases OrderedDict.get?_set_cases present with ⟨_, rfl⟩ | ⟨_, present⟩
              · refine .inr ⟨due, rfl, fun blockId member => ?_⟩
                rw [held_some found]
                exact transferGroups_held member
              · exact .inl present

theorem buildStoreJobs_stored {numScheduledTokens : OrderedDict ReqId Nat}
    {prepareStore : ReqId → List Key → Option (PrepareStoreOutput Key Target)}
    {storeJobs : OrderedDict Nat (TransferJob ReqId Target)}
    (built : buildStoreJobs scheduler numScheduledTokens prepareStore = .ok (next, storeJobs)) :
    Stored scheduler next (· ∈ numScheduledTokens.keys) := by
  refine foldlM_carries (fun _ state => Stored scheduler state.1 (· ∈ numScheduledTokens.keys)) ?_
    ⟨fun _ => rfl, fun _ _ present => .inl present⟩ built
  intro before entry rest state after split stored turned
  exact stored.trans (storeTurn_stored (List.mem_map.mpr ⟨entry, by rw [split]; simp, rfl⟩) turned)

end Stores

end DgxSpark.Offload

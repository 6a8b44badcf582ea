import DgxSpark.Offload.StoreProgress

/-
This file says what a step of `_build_store_jobs` leaves of a request, and what a sequence of steps adds up
to: every block below the progress was handled in one step.
-/

namespace DgxSpark.Offload
open DgxSpark.Library

section Places

variable {config : SchedulerOffloadConfig} {Key : Type} {status : RequestOffloadState config Key} {numTokens : Nat}

/-- The key of a block is among those presented to `prepare_store`. -/
def RequestOffloadState.Presented (status : RequestOffloadState config Key) (numTokens group block : Nat) : Prop :=
  ∃ groupState ∈ status.groupStates[group]?, ∃ key ∈ groupState.offloadKeys[block]?,
    ∃ keys, status.newOffloadKeys numTokens = .ok keys ∧ key ∈ keys

/-- A step comes by a block and leaves it out: its GPU block is 0, or no load can reach it. -/
def RequestOffloadState.Skipped (status : RequestOffloadState config Key) (numTokens group block : Nat) : Prop :=
  ∃ groupConfig ∈ config.kvGroupConfigs[group]?, ∃ groupState ∈ status.groupStates[group]?,
    block ∈ due numTokens groupConfig groupState ∧
      (groupState.lastGpuBlock config.blockSizeFactor block = 0 ∨ groupConfig.unreachable block = true)

def RequestOffloadState.Handled (status : RequestOffloadState config Key) (numTokens group block : Nat) : Prop :=
  status.Presented numTokens group block ∨ status.Skipped numTokens group block

/-- The keys of a request are pairwise distinct. -/
def RequestOffloadState.Distinct (status : RequestOffloadState config Key) : Prop :=
  (status.groupStates.flatMap (·.offloadKeys)).Nodup

/-- Distinct keys stand at distinct places. -/
theorem RequestOffloadState.Distinct.unique (distinct : status.Distinct) {group other block place : Nat}
    {groupState otherState : RequestGroupState Key} {key : Key} (here : status.groupStates[group]? = some groupState)
    (there : status.groupStates[other]? = some otherState) (held : groupState.offloadKeys[block]? = some key)
    (also : otherState.offloadKeys[place]? = some key) : group = other ∧ block = place := by
  obtain ⟨each, apart⟩ := List.nodup_flatMap.mp distinct
  obtain ⟨hereInside, hereIs⟩ := List.getElem?_eq_some_iff.mp here
  obtain ⟨thereInside, thereIs⟩ := List.getElem?_eq_some_iff.mp there
  have heldIn := List.mem_of_getElem? held
  have alsoIn := List.mem_of_getElem? also
  rw [List.pairwise_iff_getElem] at apart
  have same : group = other := by
    by_contra different
    rcases Nat.lt_or_gt_of_ne different with before | before
    · have disjoint := apart group other hereInside thereInside before
      rw [hereIs, thereIs] at disjoint
      exact disjoint heldIn alsoIn
    · have disjoint := apart other group thereInside hereInside before
      rw [hereIs, thereIs] at disjoint
      exact disjoint alsoIn heldIn
  subst same
  have equal : otherState = groupState := Option.some.inj (there.symm.trans here)
  subst equal
  have inside := (List.getElem?_eq_some_iff.mp held).1
  exact ⟨rfl, (List.getElem?_inj inside (each _ (List.mem_of_getElem? here))).mp (held.trans also.symm)⟩

theorem mem_groups {group : Nat} {groupConfig : GroupOffloadConfig} {groupState : RequestGroupState Key}
    (configured : config.kvGroupConfigs[group]? = some groupConfig)
    (held : status.groupStates[group]? = some groupState) : (groupConfig, groupState) ∈ status.groups := by
  apply List.mem_of_getElem? (i := group)
  exact List.getElem?_zip_eq_some.mpr ⟨configured, held⟩

/-- The presented blocks are the wanted ones that are due. -/
theorem presented_iff (covers : status.Covers numTokens) (distinct : status.Distinct) {group : Nat}
    {groupConfig : GroupOffloadConfig} {groupState : RequestGroupState Key}
    (configured : config.kvGroupConfigs[group]? = some groupConfig)
    (held : status.groupStates[group]? = some groupState) (block : Nat) :
    status.Presented numTokens group block ↔
      block ∈ due numTokens groupConfig groupState ∧ Wanted config.blockSizeFactor groupConfig groupState block := by
  constructor
  · rintro ⟨state, stateHeld, key, keyed, keys, built, member⟩
    obtain rfl : groupState = state := Option.some.inj (held.symm.trans stateHeld)
    rw [newOffloadKeys_covered covers] at built
    obtain rfl := Except.ok.inj built
    simp only [RequestOffloadState.presentedEntries, List.mem_map, List.mem_flatMap, List.mem_filterMap, List.mem_filter,
      decide_eq_true_eq] at member
    obtain ⟨entry, ⟨other, otherIn, place, ⟨isDue, wanted⟩, named⟩, rfl⟩ := member
    obtain ⟨otherGroup, at_⟩ := List.mem_iff_getElem?.mp otherIn
    obtain ⟨otherConfigured, otherHeld⟩ := List.getElem?_zip_eq_some.mp at_
    have otherKeyed : other.2.offloadKeys[place]? = some entry.1 := by
      obtain ⟨key, found, rfl⟩ := Option.map_eq_some_iff.mp named
      exact found
    obtain ⟨rfl, rfl⟩ := distinct.unique held otherHeld keyed otherKeyed
    obtain rfl : groupState = other.2 := Option.some.inj (held.symm.trans otherHeld)
    obtain rfl : groupConfig = other.1 := Option.some.inj (configured.symm.trans otherConfigured)
    exact ⟨isDue, wanted⟩
  · rintro ⟨isDue, wanted⟩
    have member : (groupConfig, groupState) ∈ status.groups := mem_groups configured held
    have inside : block < groupState.offloadKeys.length := by
      have below : block < numTokens / groupConfig.offloadedBlockSize :=
        lt_of_lt_of_le (mem_due.mp isDue).2 (storableBlocks_le groupConfig numTokens)
      exact lt_of_lt_of_le below (covers _ member).keys
    refine ⟨groupState, held, groupState.offloadKeys[block], List.getElem?_eq_getElem inside, _,
      newOffloadKeys_covered covers, ?_⟩
    simp only [RequestOffloadState.presentedEntries, List.mem_map, List.mem_flatMap, List.mem_filterMap, List.mem_filter,
      decide_eq_true_eq]
    refine ⟨(groupState.offloadKeys[block], groupState.gpuBlocks config.blockSizeFactor block),
      ⟨(groupConfig, groupState), member, block, ⟨isDue, wanted⟩, ?_⟩, rfl⟩
    rw [RequestGroupState.entry, List.getElem?_eq_getElem inside]
    rfl

/-- A step handles the blocks that are due. -/
theorem handled_iff (covers : status.Covers numTokens) (distinct : status.Distinct) {group : Nat}
    {groupConfig : GroupOffloadConfig} {groupState : RequestGroupState Key}
    (configured : config.kvGroupConfigs[group]? = some groupConfig)
    (held : status.groupStates[group]? = some groupState) (block : Nat) :
    status.Handled numTokens group block ↔ block ∈ due numTokens groupConfig groupState := by
  rw [RequestOffloadState.Handled, presented_iff covers distinct configured held]
  constructor
  · rintro (⟨isDue, -⟩ | ⟨otherConfig, otherConfigured, otherState, otherHeld, isDue, -⟩)
    · exact isDue
    · obtain rfl : groupState = otherState := Option.some.inj (held.symm.trans otherHeld)
      obtain rfl : groupConfig = otherConfig := Option.some.inj (configured.symm.trans otherConfigured)
      exact isDue
  · intro isDue
    by_cases wanted : Wanted config.blockSizeFactor groupConfig groupState block
    · exact Or.inl ⟨isDue, wanted⟩
    · refine Or.inr ⟨groupConfig, configured, groupState, held, isDue, ?_⟩
      by_cases empty : groupState.lastGpuBlock config.blockSizeFactor block = 0
      · exact Or.inl empty
      · refine Or.inr ?_
        rw [← Bool.not_eq_false]
        exact fun reached => wanted ⟨empty, reached⟩

end Places

section Turn

variable {config : SchedulerOffloadConfig} {ReqId Key Target : Type} [DecidableEq ReqId] [DecidableEq Key]
  {scheduler after : OffloadingConnectorScheduler config ReqId Key} {reqId : ReqId}
  {status : RequestOffloadState config Key} {numScheduledTokens : Nat}

/-- What a turn of a request leaves, from the keys that it presents. -/
inductive TurnLeaves (scheduler : OffloadingConnectorScheduler config ReqId Key) (reqId : ReqId)
    (status : RequestOffloadState config Key) (numTokens : Nat) (keys : List Key)
    (prepareStore : List Key → Option (PrepareStoreOutput Key Target)) :
    OffloadingConnectorScheduler config ReqId Key → Option (Nat × TransferJob ReqId Target) → Prop where
  | refused (presented : keys ≠ []) (answer : prepareStore keys = none) :
      TurnLeaves scheduler reqId status numTokens keys prepareStore scheduler none
  | advanced (answer : keys ≠ [] → prepareStore keys ≠ none)
      (after : OffloadingConnectorScheduler config ReqId Key) (next : RequestOffloadState config Key)
      (job : Option (Nat × TransferJob ReqId Target)) (left : after.reqStatus = scheduler.reqStatus.set reqId next)
      (progress : next.groupStates = (status.advanceStoredIdx numTokens).groupStates)
      (made : ∀ pair ∈ job, ∃ output, prepareStore keys = some output ∧ pair.2.reqId = reqId ∧
        pair.2.transferSpec.2 = output.storeSpec ∧ pair.2.transferSpec.1.blockIds =
          (status.groups.flatMap fun group =>
            groupSources config.blockSizeFactor numTokens output.keysToStore group.1 group.2).map Prod.snd) :
      TurnLeaves scheduler reqId status numTokens keys prepareStore after job

theorem buildStoreJob_leaves {prepareStore : List Key → Option (PrepareStoreOutput Key Target)}
    {job : Option (Nat × TransferJob ReqId Target)}
    (built : buildStoreJob scheduler reqId status numScheduledTokens prepareStore = .ok (after, job)) :
    ∃ keys, status.newOffloadKeys (status.numOffloadableTokens numScheduledTokens) = .ok keys ∧
      TurnLeaves scheduler reqId status (status.numOffloadableTokens numScheduledTokens) keys prepareStore after job := by
  unfold buildStoreJob at built
  cases keyed : status.newOffloadKeys (status.numOffloadableTokens numScheduledTokens) with
  | error fault =>
      simp only [keyed] at built
      cases built
  | ok keys =>
      refine ⟨keys, rfl, ?_⟩
      simp only [keyed, bind, Except.bind, pure, Except.pure] at built
      split at built
      case isTrue nothing =>
        cases built
        exact .advanced (absurd nothing) _ _ none rfl rfl (by simp)
      case isFalse presented =>
        cases answer : prepareStore keys with
        | none =>
            simp only [answer] at built
            cases built
            exact .refused presented answer
        | some output =>
            simp only [answer] at built
            have accepted : keys ≠ [] → prepareStore keys ≠ none := by simp [answer]
            split at built
            · cases built
              exact .advanced accepted _ _ none rfl rfl (by simp)
            · cases pending : checkPending scheduler status with
              | error fault =>
                  simp only [pending] at built
                  cases built
              | ok =>
                  simp only [pending] at built
                  cases built
                  refine .advanced accepted _ { status.advanceStoredIdx _ with
                    transferJobs := status.transferJobs.insert scheduler.jobCounter } _ rfl rfl ?_
                  intro pair member
                  obtain rfl := Option.some.inj member
                  refine ⟨output, answer, rfl, rfl, ?_⟩
                  rw [List.map_flatMap]
                  exact List.flatMap_map _ _ _

theorem bind_ok {Fault Value Result : Type} {first : Except Fault Value} {rest : Value → Except Fault Result}
    {result : Result} (done : first >>= rest = .ok result) : ∃ value, first = .ok value ∧ rest value = .ok result := by
  cases first with
  | error fault => cases done
  | ok value => exact ⟨value, rfl, done⟩

/-- The turn of another request leaves the status of a request as it is and makes no job for it. -/
theorem storeTurn_other {prepareStore : ReqId → List Key → Option (PrepareStoreOutput Key Target)}
    {state next : OffloadingConnectorScheduler config ReqId Key × OrderedDict Nat (TransferJob ReqId Target)}
    {entry : ReqId × Nat} (different : entry.1 ≠ reqId) (turned : storeTurn prepareStore state entry = .ok next) :
    next.1.reqStatus.get? reqId = state.1.reqStatus.get? reqId ∧
      ∀ jobId job, next.2.get? jobId = some job → job.reqId = reqId → state.2.get? jobId = some job := by
  unfold storeTurn at turned
  cases found : state.1.reqStatus.get? entry.1 with
  | none =>
      simp only [found] at turned
      cases turned
      exact ⟨rfl, fun _ _ held _ => held⟩
  | some status =>
      simp only [found] at turned
      obtain ⟨⟨scheduler, job⟩, built, turned⟩ := bind_ok turned
      obtain ⟨keys, -, leaves⟩ := buildStoreJob_leaves built
      have kept : scheduler.reqStatus.get? reqId = state.1.reqStatus.get? reqId := by
        cases leaves with
        | refused => rfl
        | advanced _ _ _ _ left _ _ => rw [left, OrderedDict.get?_set_of_ne _ _ different.symm]
      cases job with
      | none =>
          cases turned
          exact ⟨kept, fun _ _ held _ => held⟩
      | some pair =>
          cases turned
          refine ⟨kept, ?_⟩
          intro jobId job held own
          obtain ⟨-, rfl⟩ | ⟨-, held⟩ := OrderedDict.get?_set_cases held
          · cases leaves with
            | advanced _ _ _ _ _ _ made =>
                obtain ⟨_, -, other, -⟩ := made _ rfl
                exact absurd (other.symm.trans own) different
          · exact held

theorem storeTurns_other {prepareStore : ReqId → List Key → Option (PrepareStoreOutput Key Target)}
    {entries : List (ReqId × Nat)} (different : ∀ entry ∈ entries, entry.1 ≠ reqId)
    {state next : OffloadingConnectorScheduler config ReqId Key × OrderedDict Nat (TransferJob ReqId Target)}
    (turned : entries.foldlM (storeTurn prepareStore) state = .ok next) :
    next.1.reqStatus.get? reqId = state.1.reqStatus.get? reqId ∧
      ∀ jobId job, next.2.get? jobId = some job → job.reqId = reqId → state.2.get? jobId = some job := by
  induction entries generalizing state with
  | nil =>
      cases turned
      exact ⟨rfl, fun _ _ held _ => held⟩
  | cons entry rest ih =>
      rw [List.foldlM_cons] at turned
      obtain ⟨middle, first, turned⟩ := bind_ok turned
      obtain ⟨kept, jobs⟩ := storeTurn_other (different entry List.mem_cons_self) first
      obtain ⟨later, laterJobs⟩ := ih (fun other member => different other (List.mem_cons_of_mem _ member)) turned
      exact ⟨later.trans kept, fun jobId job held own => jobs jobId job (laterJobs jobId job held own) own⟩

/-- A step that does not schedule a request leaves its status as it is. -/
theorem buildStoreJobs_unscheduled {numScheduledTokens : OrderedDict ReqId Nat}
    {prepareStore : ReqId → List Key → Option (PrepareStoreOutput Key Target)}
    {storeJobs : OrderedDict Nat (TransferJob ReqId Target)}
    (built : buildStoreJobs scheduler numScheduledTokens prepareStore = .ok (after, storeJobs))
    (unscheduled : numScheduledTokens.get? reqId = none) :
    after.reqStatus.get? reqId = scheduler.reqStatus.get? reqId := by
  apply (storeTurns_other ?_ built).1
  intro entry member same
  rw [OrderedDict.get?_eq_none_iff] at unscheduled
  exact unscheduled (List.mem_map.mpr ⟨entry, member, same⟩)

/-- A step that schedules a request gives it one turn. -/
theorem buildStoreJobs_turn {numScheduledTokens : OrderedDict ReqId Nat}
    {prepareStore : ReqId → List Key → Option (PrepareStoreOutput Key Target)}
    {storeJobs : OrderedDict Nat (TransferJob ReqId Target)} {scheduled : Nat}
    (built : buildStoreJobs scheduler numScheduledTokens prepareStore = .ok (after, storeJobs))
    (turn : numScheduledTokens.get? reqId = some scheduled) (found : scheduler.reqStatus.get? reqId = some status) :
    ∃ before middle keys job, before.reqStatus.get? reqId = some status ∧
      status.newOffloadKeys (status.numOffloadableTokens scheduled) = .ok keys ∧
      TurnLeaves before reqId status (status.numOffloadableTokens scheduled) keys (prepareStore reqId) middle job ∧
      after.reqStatus.get? reqId = middle.reqStatus.get? reqId ∧
      ∀ jobId made, storeJobs.get? jobId = some made → made.reqId = reqId → job = some (jobId, made) := by
  obtain ⟨earlier, later, split, absent⟩ := List.lookup_eq_some_iff.mp turn
  have distinct := numScheduledTokens.nodup
  rw [split, List.map_append, List.map_cons] at distinct
  obtain ⟨-, rest, -⟩ := List.nodup_append.mp distinct
  have earlierOther : ∀ entry ∈ earlier, entry.1 ≠ reqId := by
    intro entry member same
    simpa [same] using absent entry member
  have laterOther : ∀ entry ∈ later, entry.1 ≠ reqId := by
    intro entry member same
    exact (List.nodup_cons.mp rest).1 (List.mem_map.mpr ⟨entry, member, same⟩)
  rw [buildStoreJobs, split, List.foldlM_append] at built
  obtain ⟨before, first, built⟩ := bind_ok built
  rw [List.foldlM_cons] at built
  obtain ⟨middle, second, third⟩ := bind_ok built
  obtain ⟨beforeKept, beforeJobs⟩ := storeTurns_other earlierOther first
  obtain ⟨laterKept, laterJobs⟩ := storeTurns_other laterOther third
  have beforeFound : before.1.reqStatus.get? reqId = some status := beforeKept.trans found
  have noJob : ∀ jobId made, before.2.get? jobId = some made → made.reqId ≠ reqId := by
    intro jobId made held own
    cases beforeJobs jobId made held own
  unfold storeTurn at second
  simp only [beforeFound] at second
  obtain ⟨⟨turned, job⟩, own, second⟩ := bind_ok second
  obtain ⟨keys, keyed, leaves⟩ := buildStoreJob_leaves own
  refine ⟨before.1, turned, keys, job, beforeFound, keyed, leaves, ?_, ?_⟩
  · cases job with
    | none =>
        cases second
        exact laterKept
    | some pair =>
        cases second
        exact laterKept
  · intro jobId made held mine
    have held := laterJobs jobId made held mine
    cases job with
    | none =>
        cases second
        exact absurd mine (noJob jobId made held)
    | some pair =>
        cases second
        obtain ⟨rfl, rfl⟩ | ⟨-, held⟩ := OrderedDict.get?_set_cases held
        · rfl
        · exact absurd mine (noJob jobId made held)

/-- The jobs of a request are stores. -/
def PendingStores (scheduler : OffloadingConnectorScheduler config ReqId Key)
    (status : RequestOffloadState config Key) : Prop :=
  ∀ jobId ∈ status.transferJobs, ∃ job, scheduler.jobs.get? jobId = some job ∧ job.isStore = true

omit [DecidableEq ReqId] [DecidableEq Key] in
theorem checkPending_stores (pending : PendingStores scheduler status) : checkPending scheduler status = .ok () := by
  unfold checkPending
  cases first : status.transferJobs.head? with
  | none => rfl
  | some jobId =>
      obtain ⟨job, held, store⟩ := pending jobId (List.mem_of_mem_head? first)
      simp only [held, store, if_true]

/-- A turn of a request that covers its tokens ends well, and pending stores stay stores. -/
theorem buildStoreJob_returns (covers : status.Covers (status.numOffloadableTokens numScheduledTokens))
    (pending : PendingStores scheduler status) (prepareStore : List Key → Option (PrepareStoreOutput Key Target)) :
    ∃ result, buildStoreJob scheduler reqId status numScheduledTokens prepareStore = .ok result ∧
      ∀ other, PendingStores scheduler other → PendingStores result.1 other := by
  unfold buildStoreJob
  simp only [newOffloadKeys_covered covers, checkPending_stores pending, bind, Except.bind, pure, Except.pure]
  split
  · exact ⟨_, rfl, fun _ stores => stores⟩
  split
  · exact ⟨_, rfl, fun _ stores => stores⟩
  split
  · exact ⟨_, rfl, fun _ stores => stores⟩
  refine ⟨_, rfl, ?_⟩
  intro other stores jobId member
  obtain ⟨job, held, store⟩ := stores jobId member
  by_cases same : jobId = scheduler.jobCounter
  · exact ⟨_, by rw [issueStore, OrderedDict.get?_set, if_pos same], rfl⟩
  · exact ⟨job, by rw [issueStore, OrderedDict.get?_set_of_ne _ _ same, held], store⟩

/-- A step ends well where the scheduled requests cover their tokens and have no load pending. -/
theorem buildStoreJobs_returns {numScheduledTokens : OrderedDict ReqId Nat}
    (ready : ∀ entry ∈ numScheduledTokens.entries, ∀ status, scheduler.reqStatus.get? entry.1 = some status →
      status.Covers (status.numOffloadableTokens entry.2) ∧ PendingStores scheduler status)
    (prepareStore : ReqId → List Key → Option (PrepareStoreOutput Key Target)) :
    ∃ result, buildStoreJobs scheduler numScheduledTokens prepareStore = .ok result := by
  have fold : ∀ (entries : List (ReqId × Nat)), (entries.map Prod.fst).Nodup →
      ∀ state : OffloadingConnectorScheduler config ReqId Key × OrderedDict Nat (TransferJob ReqId Target),
        (∀ entry ∈ entries, ∀ status, state.1.reqStatus.get? entry.1 = some status →
          status.Covers (status.numOffloadableTokens entry.2) ∧ PendingStores state.1 status) →
        ∃ result, entries.foldlM (storeTurn prepareStore) state = .ok result := by
    intro entries
    induction entries with
    | nil => exact fun _ state _ => ⟨state, rfl⟩
    | cons entry rest ih =>
        intro distinct state ready
        obtain ⟨absent, distinct⟩ := List.nodup_cons.mp distinct
        have turned : ∃ next, storeTurn prepareStore state entry = .ok next ∧
            ∀ other, PendingStores state.1 other → PendingStores next.1 other := by
          unfold storeTurn
          cases found : state.1.reqStatus.get? entry.1 with
          | none => exact ⟨state, rfl, fun _ stores => stores⟩
          | some status =>
              obtain ⟨covers, pending⟩ := ready entry List.mem_cons_self status found
              obtain ⟨⟨scheduler, job⟩, built, kept⟩ :=
                @buildStoreJob_returns config ReqId Key Target _ _ state.1 entry.1 status entry.2 covers pending
                  (prepareStore entry.1)
              simp only [built, bind, Except.bind]
              cases job with
              | none => exact ⟨_, rfl, kept⟩
              | some pair => exact ⟨_, rfl, kept⟩
        obtain ⟨next, turned, kept⟩ := turned
        rw [List.foldlM_cons, turned]
        apply ih distinct next
        intro other member status found
        have different : entry.1 ≠ other.1 := by
          intro same
          exact absent (List.mem_map.mpr ⟨other, member, same.symm⟩)
        rw [(storeTurn_other different turned).1] at found
        obtain ⟨covers, pending⟩ := ready other (List.mem_cons_of_mem _ member) status found
        exact ⟨covers, kept status pending⟩
  exact fold numScheduledTokens.entries numScheduledTokens.nodup (scheduler, OrderedDict.empty) ready

end Turn

section Run

variable (config : SchedulerOffloadConfig) (ReqId Key Target : Type) [DecidableEq ReqId] [DecidableEq Key]

/-- A step of `_build_store_jobs` with a request in it: its status before and after, and its offloadable tokens. -/
structure StoreStep where
  before : OffloadingConnectorScheduler config ReqId Key
  numScheduledTokens : OrderedDict ReqId Nat
  prepareStore : ReqId → List Key → Option (PrepareStoreOutput Key Target)
  after : OffloadingConnectorScheduler config ReqId Key
  storeJobs : OrderedDict Nat (TransferJob ReqId Target)
  status : RequestOffloadState config Key
  next : RequestOffloadState config Key
  numTokens : Nat

variable {config ReqId Key Target} (reqId : ReqId)

/-- The manager answers a request with none. -/
def StoreStep.Refused (step : StoreStep config ReqId Key Target) : Prop :=
  ∃ keys, step.status.newOffloadKeys step.numTokens = .ok keys ∧ keys ≠ [] ∧ step.prepareStore reqId keys = none

/-- A step serves a request whose keys and blocks cover its tokens; the manager answers with a part of the keys. -/
structure StoreStep.Serves (step : StoreStep config ReqId Key Target) : Prop where
  built : buildStoreJobs step.before step.numScheduledTokens step.prepareStore = .ok (step.after, step.storeJobs)
  scheduled : ∃ scheduled, step.numScheduledTokens.get? reqId = some scheduled ∧
    step.numTokens = step.status.numOffloadableTokens scheduled
  found : step.before.reqStatus.get? reqId = some step.status
  left : step.after.reqStatus.get? reqId = some step.next
  covers : step.status.Covers step.numTokens
  distinct : step.status.Distinct
  answers : ∀ keys output, step.prepareStore reqId keys = some output → output.keysToStore.Sublist keys

def RequestOffloadState.progress (status : RequestOffloadState config Key) : List Nat :=
  status.groupStates.map (·.nextStoredBlockIdx)

/-- The steps that serve a request from its start on. Between them anything but its progress may change; its
offloadable tokens never decrease. -/
inductive StoreRun : List (StoreStep config ReqId Key Target) → RequestOffloadState config Key → Nat → Prop where
  | start (status : RequestOffloadState config Key) (fresh : ∀ index ∈ status.progress, index = 0) :
      StoreRun [] status 0
  | step {steps : List (StoreStep config ReqId Key Target)} {last : RequestOffloadState config Key} {numTokens : Nat}
      (run : StoreRun steps last numTokens) (step : StoreStep config ReqId Key Target)
      (kept : step.status.progress = last.progress) (grows : numTokens ≤ step.numTokens)
      (serves : step.Serves reqId) : StoreRun (steps ++ [step]) step.next step.numTokens

variable {reqId} {step : StoreStep config ReqId Key Target}

omit [DecidableEq Key] in
theorem getElem?_progress {status : RequestOffloadState config Key} {group index : Nat} :
    status.progress[group]? = some index ↔
      ∃ groupState, status.groupStates[group]? = some groupState ∧ groupState.nextStoredBlockIdx = index := by
  rw [RequestOffloadState.progress, List.getElem?_map, Option.map_eq_some_iff]

/-- After a refusal no progress has changed. -/
theorem StoreStep.Serves.refused (serves : step.Serves reqId) (refusal : step.Refused reqId) :
    step.next.progress = step.status.progress := by
  obtain ⟨scheduled, turn, tokens⟩ := serves.scheduled
  obtain ⟨before, middle, keys, job, found, keyed, leaves, left, -⟩ := buildStoreJobs_turn serves.built turn serves.found
  obtain ⟨others, otherKeyed, presented, answer⟩ := refusal
  rw [tokens, keyed] at otherKeyed
  obtain rfl := Except.ok.inj otherKeyed
  cases leaves with
  | refused =>
      rw [serves.left, found] at left
      rw [Option.some.inj left]
  | advanced accepted => exact absurd answer (accepted presented)

/-- After any other step the progress of each group is what may be stored. -/
theorem StoreStep.Serves.advanced (serves : step.Serves reqId) (accepted : ¬step.Refused reqId) {group index : Nat}
    {groupConfig : GroupOffloadConfig} (configured : config.kvGroupConfigs[group]? = some groupConfig)
    (held : step.next.progress[group]? = some index) : index = storableBlocks groupConfig step.numTokens := by
  obtain ⟨scheduled, turn, tokens⟩ := serves.scheduled
  obtain ⟨before, middle, keys, job, found, keyed, leaves, left, -⟩ := buildStoreJobs_turn serves.built turn serves.found
  rw [← tokens] at keyed leaves
  cases leaves with
  | refused presented answer => exact absurd ⟨keys, keyed, presented, answer⟩ accepted
  | advanced _ _ next _ set progress _ =>
      rw [serves.left, set, OrderedDict.get?_set, if_pos rfl] at left
      obtain ⟨groupState, stands, rfl⟩ := getElem?_progress.mp held
      rw [Option.some.inj left, progress, RequestOffloadState.advanceStoredIdx, List.getElem?_zipWith_eq_some] at stands
      obtain ⟨otherConfig, _, otherConfigured, -, rfl⟩ := stands
      rw [Option.some.inj (configured.symm.trans otherConfigured)]

/-- A GPU block holds the block of a key. -/
def RequestOffloadState.Stands (status : RequestOffloadState config Key) (key : Key) (blockId : Nat) : Prop :=
  ∃ groupState ∈ status.groupStates, ∃ block : Nat, groupState.offloadKeys[block]? = some key ∧
    groupState.blockIds[block]? = some blockId

omit [DecidableEq Key] in
theorem presentedEntries_single (single : config.blockSizeFactor = 1) {status : RequestOffloadState config Key}
    {numTokens : Nat} {entry : Key × List (Nat × Nat)} (member : entry ∈ status.presentedEntries numTokens) :
    ∃ place blockId, entry.2 = [(place, blockId)] ∧ status.Stands entry.1 blockId := by
  simp only [RequestOffloadState.presentedEntries, List.mem_flatMap, List.mem_filterMap, List.mem_filter,
    decide_eq_true_eq] at member
  obtain ⟨⟨groupConfig, groupState⟩, grouped, block, ⟨-, present, -⟩, named⟩ := member
  obtain ⟨key, keyed, rfl⟩ := Option.map_eq_some_iff.mp named
  have stateIn : groupState ∈ status.groupStates := (List.of_mem_zip grouped).2
  simp only [RequestGroupState.lastGpuBlock, single, Nat.mul_one, Nat.add_sub_cancel] at present
  have held : groupState.blockIds[block]? = some (groupState.blockIds.getD block 0) := by
    rw [List.getD_eq_getElem?_getD] at present ⊢
    cases here : groupState.blockIds[block]? with
    | none => simp [here] at present
    | some blockId => rfl
  refine ⟨block, groupState.blockIds.getD block 0, ?_, groupState, stateIn, block, keyed, held⟩
  simp only [RequestGroupState.gpuBlocks, single, List.range_one, List.filterMap_cons, Nat.mul_one, Nat.add_zero,
    if_neg present, List.filterMap_nil]

omit [DecidableEq Key] in
theorem forall₂_single {relation : Key → Nat → Prop} {entries : List (Key × List (Nat × Nat))}
    (single : ∀ entry ∈ entries, ∃ place blockId, entry.2 = [(place, blockId)] ∧ relation entry.1 blockId) :
    List.Forall₂ relation (entries.map Prod.fst) ((entries.flatMap Prod.snd).map Prod.snd) := by
  induction entries with
  | nil => exact .nil
  | cons entry rest ih =>
      obtain ⟨place, blockId, block, stands⟩ := single entry List.mem_cons_self
      rw [List.map_cons, List.flatMap_cons, block, List.map_append]
      exact .cons stands (ih fun other member => single other (List.mem_cons_of_mem _ member))

/-- The sources of a job are the GPU blocks of its keys, in their order. -/
theorem StoreStep.Serves.job (single : config.blockSizeFactor = 1) (serves : step.Serves reqId) {jobId : Nat}
    {job : TransferJob ReqId Target} (made : step.storeJobs.get? jobId = some job) (own : job.reqId = reqId) :
    ∃ keys output, step.status.newOffloadKeys step.numTokens = .ok keys ∧ step.prepareStore reqId keys = some output ∧
      job.transferSpec.2 = output.storeSpec ∧
      List.Forall₂ (step.status.Stands) output.keysToStore job.transferSpec.1.blockIds := by
  obtain ⟨scheduled, turn, tokens⟩ := serves.scheduled
  obtain ⟨before, middle, keys, turned, -, keyed, leaves, -, jobs⟩ :=
    buildStoreJobs_turn serves.built turn serves.found
  rw [← tokens] at keyed leaves
  obtain rfl := jobs jobId job made own
  cases leaves with
  | advanced _ _ _ _ _ _ made =>
      obtain ⟨output, answer, -, target, sources⟩ := made _ rfl
      refine ⟨keys, output, keyed, answer, target, ?_⟩
      have part := serves.answers keys output answer
      rw [newOffloadKeys_covered serves.covers] at keyed
      obtain rfl := Except.ok.inj keyed
      rw [sources_eq serves.covers serves.distinct part] at sources
      obtain ⟨stored, -⟩ := stored_entries serves.covers serves.distinct part
      generalize chosen : (step.status.presentedEntries step.numTokens).filter (·.1 ∈ output.keysToStore) = entries
        at stored sources
      rw [sources, ← stored]
      apply forall₂_single
      intro entry member
      rw [← chosen] at member
      exact presentedEntries_single single (List.mem_of_mem_filter member)

/-- A step of a run hands a block to the manager or skips it, and is not refused. -/
def HandledIn (reqId : ReqId) (steps : List (StoreStep config ReqId Key Target)) (group block place : Nat) : Prop :=
  ∃ step, steps[place]? = some step ∧ ¬step.Refused reqId ∧ step.status.Handled step.numTokens group block

omit [DecidableEq ReqId] [DecidableEq Key] in
theorem handledIn_concat {steps : List (StoreStep config ReqId Key Target)} {group block place : Nat} :
    HandledIn reqId (steps ++ [step]) group block place ↔ HandledIn reqId steps group block place ∨
      place = steps.length ∧ ¬step.Refused reqId ∧ step.status.Handled step.numTokens group block := by
  constructor
  · rintro ⟨found, here, accepted, handled⟩
    rcases Nat.lt_or_ge place steps.length with earlier | later
    · rw [List.getElem?_append_left earlier] at here
      exact Or.inl ⟨found, here, accepted, handled⟩
    · rw [List.getElem?_append_right later] at here
      obtain ⟨inside, rfl⟩ := List.getElem?_eq_some_iff.mp here
      rw [List.length_singleton] at inside
      exact Or.inr ⟨by omega, by simpa using accepted, by simpa using handled⟩
  · rintro (⟨found, here, accepted, handled⟩ | ⟨rfl, accepted, handled⟩)
    · have inside := (List.getElem?_eq_some_iff.mp here).1
      exact ⟨found, by rw [List.getElem?_append_left inside, here], accepted, handled⟩
    · exact ⟨step, by simp, accepted, handled⟩

/-- In a run each block below the progress of its group was handled in one step, and no other block in any. -/
theorem storeRun_handled {steps : List (StoreStep config ReqId Key Target)} {last : RequestOffloadState config Key}
    {numTokens : Nat} (run : StoreRun reqId steps last numTokens) {group index : Nat} {groupConfig : GroupOffloadConfig}
    (configured : config.kvGroupConfigs[group]? = some groupConfig) (held : last.progress[group]? = some index) :
    index ≤ storableBlocks groupConfig numTokens ∧
      ∀ block, (block < index → ∃! place, HandledIn reqId steps group block place) ∧
        (index ≤ block → ∀ place, ¬HandledIn reqId steps group block place) := by
  induction run generalizing index with
  | start status fresh =>
      obtain rfl := fresh index (List.mem_of_getElem? held)
      refine ⟨Nat.zero_le _, ?_⟩
      intro block
      refine ⟨fun below => absurd below (Nat.not_lt_zero _), ?_⟩
      rintro - place ⟨step, here, -⟩
      simp at here
  | @step steps last numTokens run step kept grows serves ih =>
      have inside : group < step.status.groupStates.length := by
        rw [step.status.grouped]
        exact (List.getElem?_eq_some_iff.mp configured).1
      have state := List.getElem?_eq_getElem inside
      have before : last.progress[group]? = some step.status.groupStates[group].nextStoredBlockIdx := by
        rw [← kept]
        exact getElem?_progress.mpr ⟨_, state, rfl⟩
      have handled := handled_iff serves.covers serves.distinct configured state
      generalize step.status.groupStates[group] = groupState at before handled
      obtain ⟨below, earlier⟩ := ih before
      have grown := storableBlocks_mono groupConfig grows
      by_cases refusal : step.Refused reqId
      · have same : index = groupState.nextStoredBlockIdx := by
          rw [serves.refused refusal, kept, before] at held
          exact (Option.some.inj held).symm
        subst same
        refine ⟨Nat.le_trans below grown, ?_⟩
        intro block
        have only : ∀ place, HandledIn reqId (steps ++ [step]) group block place ↔
            HandledIn reqId steps group block place := by
          intro place
          rw [handledIn_concat]
          simp [refusal]
        simpa only [only] using earlier block
      · obtain rfl := serves.advanced refusal configured held
        refine ⟨Nat.le_refl _, ?_⟩
        intro block
        constructor
        · intro storable
          by_cases old : block < groupState.nextStoredBlockIdx
          · obtain ⟨place, here, only⟩ := (earlier block).1 old
            refine ⟨place, handledIn_concat.mpr (Or.inl here), ?_⟩
            intro other there
            rcases handledIn_concat.mp there with there | ⟨-, -, now⟩
            · exact only other there
            · have := (mem_due.mp ((handled block).mp now)).1
              omega
          · refine ⟨steps.length, handledIn_concat.mpr (Or.inr ⟨rfl, refusal, ?_⟩), ?_⟩
            · exact (handled block).mpr (mem_due.mpr ⟨not_lt.mp old, storable⟩)
            · intro other there
              rcases handledIn_concat.mp there with there | ⟨last, -⟩
              · exact absurd there ((earlier block).2 (not_lt.mp old) other)
              · exact last
        · intro above place there
          rcases handledIn_concat.mp there with there | ⟨-, -, now⟩
          · exact (earlier block).2 (by omega) place there
          · have := (mem_due.mp ((handled block).mp now)).2
            omega

theorem storeRun_serves {steps : List (StoreStep config ReqId Key Target)} {last : RequestOffloadState config Key}
    {numTokens : Nat} (run : StoreRun reqId steps last numTokens) : ∀ step ∈ steps, step.Serves reqId := by
  induction run with
  | start => simp
  | step _ step _ _ serves ih =>
      intro other member
      rcases List.mem_append.mp member with earlier | last
      · exact ih other earlier
      · obtain rfl := List.mem_singleton.mp last
        exact serves

/-- In a run of steps the progress leaves no hole: a refused step changes none, any other sets it to what may be
stored, and each block below it was handed to the manager or skipped in exactly one step. -/
theorem store_progress (single : config.blockSizeFactor = 1) {steps : List (StoreStep config ReqId Key Target)}
    {last : RequestOffloadState config Key} {numTokens : Nat} (run : StoreRun reqId steps last numTokens) :
    (∀ step ∈ steps, (step.Refused reqId → step.next.progress = step.status.progress) ∧
      (∀ group index groupConfig, config.kvGroupConfigs[group]? = some groupConfig →
        (¬step.Refused reqId → step.next.progress[group]? = some index →
          index = storableBlocks groupConfig step.numTokens) ∧
        ∀ block, step.status.Presented step.numTokens group block →
          block < storableBlocks groupConfig step.numTokens) ∧
      ∀ jobId job, step.storeJobs.get? jobId = some job → job.reqId = reqId →
        ∃ keys output, step.status.newOffloadKeys step.numTokens = .ok keys ∧
          step.prepareStore reqId keys = some output ∧ job.transferSpec.2 = output.storeSpec ∧
          List.Forall₂ step.status.Stands output.keysToStore job.transferSpec.1.blockIds) ∧
    ∀ group index groupConfig, config.kvGroupConfigs[group]? = some groupConfig → last.progress[group]? = some index →
      ∀ block, block < index → ∃! place, HandledIn reqId steps group block place := by
  constructor
  · intro step member
    have serves := storeRun_serves run step member
    refine ⟨serves.refused, ?_, fun jobId job => serves.job single⟩
    intro group index groupConfig configured
    refine ⟨fun accepted => serves.advanced accepted configured, ?_⟩
    intro block presented
    obtain ⟨groupState, held, -⟩ := id presented
    rw [presented_iff serves.covers serves.distinct configured held] at presented
    exact (mem_due.mp presented.1).2
  · intro group index groupConfig configured held block
    exact ((storeRun_handled run configured held).2 block).1

end Run

section Eagle

/-- One eagle group with blocks of two tokens. -/
def eagleConfig : SchedulerOffloadConfig where
  kvGroupConfigs := [⟨2, none, none, true, Nat.two_pos, fun _ absent => absurd absent (Option.not_mem_none _)⟩]
  blockSizeFactor := 1
  numWorkers := 1
  offloadPromptOnly := true
  factored := Nat.one_pos

def eagleStatus (progress : Nat) (jobs : List Nat) : RequestOffloadState eagleConfig Nat where
  req := ⟨4, 4, 0⟩
  groupStates := [⟨[10, 11], [5, 6], progress⟩]
  grouped := rfl
  maxOffloadTokens := none
  transferJobs := jobs

/-- A prompt of two blocks in one step: the first block is stored, the trailing one is held back. -/
def eagleStep : StoreStep eagleConfig Nat Nat Unit where
  before := ⟨⟨[(0, eagleStatus 0 [])], by simp⟩, .empty, .empty, 0⟩
  numScheduledTokens := ⟨[(0, 4)], by simp⟩
  prepareStore := fun _ keys => some ⟨keys, ()⟩
  after := ⟨⟨[(0, eagleStatus 1 [0])], by simp⟩, ⟨[(0, ⟨0, 1, [10], true, some [5], none⟩)], by simp⟩, .empty, 1⟩
  storeJobs := ⟨[(0, ⟨0, ⟨[5], [1], [0]⟩, ()⟩)], by simp⟩
  status := eagleStatus 0 []
  next := eagleStatus 1 [0]
  numTokens := 4

theorem eagleStep_serves : eagleStep.Serves 0 where
  built := rfl
  scheduled := ⟨4, rfl, rfl⟩
  found := rfl
  left := rfl
  covers := by
    intro group member
    obtain rfl := List.mem_singleton.mp member
    exact ⟨by decide, by decide⟩
  distinct := by simp [RequestOffloadState.Distinct, eagleStep, eagleStatus]
  answers := by
    intro keys output answer
    obtain rfl := Option.some.inj answer
    exact List.Sublist.refl _

theorem eagleRun : StoreRun 0 [eagleStep] eagleStep.next 4 :=
  .step (.start (eagleStatus 0 []) (by simp [RequestOffloadState.progress, eagleStatus])) eagleStep rfl (by decide)
    eagleStep_serves

theorem store_progress_eagle : ∃! place, HandledIn 0 [eagleStep] 0 0 place :=
  (store_progress rfl eagleRun).2 0 1 _ rfl rfl 0 (by decide)

end Eagle

end DgxSpark.Offload

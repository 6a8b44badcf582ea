import DgxSpark.Offload.StoreJobs
import Mathlib.Data.List.Flatten
import Mathlib.Data.List.Nodup

/-
This file follows the store progress of a request: the blocks of a step, the job of a turn and the progress
after it.
-/

namespace DgxSpark.Offload
open DgxSpark.Library

theorem storableBlocks_le (groupConfig : GroupOffloadConfig) (numTokens : Nat) :
    storableBlocks groupConfig numTokens ≤ numTokens / groupConfig.offloadedBlockSize := by
  unfold storableBlocks
  split
  · exact Nat.sub_le _ _
  · exact Nat.le_refl _

theorem storableBlocks_mono (groupConfig : GroupOffloadConfig) {fewer more : Nat} (grows : fewer ≤ more) :
    storableBlocks groupConfig fewer ≤ storableBlocks groupConfig more := by
  have blocks := Nat.div_le_div_right (c := groupConfig.offloadedBlockSize) grows
  unfold storableBlocks
  split
  · exact Nat.sub_le_sub_right blocks 1
  · exact blocks

section Group

variable {Key : Type} {groupConfig : GroupOffloadConfig} {groupState : RequestGroupState Key}
  {factor numTokens : Nat}

/-- The last GPU block of a block. -/
def RequestGroupState.lastGpuBlock (factor : Nat) (groupState : RequestGroupState Key) (block : Nat) : Nat :=
  groupState.blockIds.getD (block * factor + factor - 1) 0

/-- The GPU blocks of a block that are not skipped. -/
def RequestGroupState.gpuBlocks (factor : Nat) (groupState : RequestGroupState Key) (block : Nat) : List (Nat × Nat) :=
  (List.range factor).filterMap fun i =>
    if groupState.blockIds.getD (block * factor + i) 0 = 0 then none
    else some (block * factor + i, groupState.blockIds.getD (block * factor + i) 0)

/-- The blocks from the progress of a group up to what may be stored. -/
def due (numTokens : Nat) (groupConfig : GroupOffloadConfig) (groupState : RequestGroupState Key) : List Nat :=
  List.range' groupState.nextStoredBlockIdx
    (storableBlocks groupConfig numTokens - groupState.nextStoredBlockIdx)

theorem mem_due {block : Nat} : block ∈ due numTokens groupConfig groupState ↔
    groupState.nextStoredBlockIdx ≤ block ∧ block < storableBlocks groupConfig numTokens := by
  rw [due, List.mem_range'_1]
  omega

/-- A step presents a block unless it has no GPU block or no load can reach it. -/
def Wanted (factor : Nat) (groupConfig : GroupOffloadConfig) (groupState : RequestGroupState Key) (block : Nat) : Prop :=
  groupState.lastGpuBlock factor block ≠ 0 ∧ groupConfig.unreachable block = false

instance (block : Nat) : Decidable (Wanted factor groupConfig groupState block) :=
  inferInstanceAs (Decidable (_ ∧ _))

/-- The keys and the GPU blocks of a group cover the tokens. -/
structure GroupCovers (factor numTokens : Nat) (groupConfig : GroupOffloadConfig) (groupState : RequestGroupState Key) :
    Prop where
  keys : numTokens / groupConfig.offloadedBlockSize ≤ groupState.offloadKeys.length
  blocks : numTokens / groupConfig.offloadedBlockSize * factor ≤ groupState.blockIds.length

theorem slice_eq {Value : Type} (values : List Value) (start stop : Nat) :
    slice values start stop = (values.drop start).take (stop - start) := List.drop_take

/-- The numbered values of a slice. -/
theorem drop_take_zipIdx {Value : Type} (values : List Value) (count : Nat) (start : Nat)
    (within : start + count ≤ values.length) : ((values.drop start).take count).zipIdx start =
      (List.range' start count).filterMap fun place => values[place]?.map fun value => (value, place) := by
  induction count generalizing start with
  | zero => simp
  | succ count ih =>
      have here : start < values.length := by omega
      rw [List.drop_eq_getElem_cons here, List.take_succ_cons, List.zipIdx_cons, List.range'_succ,
        List.filterMap_cons_some (by rw [List.getElem?_eq_getElem here]; rfl)]
      congr 1
      exact ih (start + 1) (by omega)

theorem drop_take_zip_zipIdx {Value Other : Type} (values : List Value) (other : Nat → Other) (count : Nat) (start : Nat)
    (within : start + count ≤ values.length) :
    (((values.drop start).take count).zip ((List.range' start count).map other)).zipIdx start =
      (List.range' start count).filterMap fun place => values[place]?.map fun value => ((value, other place), place) := by
  induction count generalizing start with
  | zero => simp
  | succ count ih =>
      have here : start < values.length := by omega
      rw [List.drop_eq_getElem_cons here, List.take_succ_cons, List.range'_succ, List.map_cons, List.zip_cons_cons,
        List.zipIdx_cons, List.filterMap_cons_some (by rw [List.getElem?_eq_getElem here]; rfl)]
      congr 1
      exact ih (start + 1) (by omega)

/-- The strided slice reads the last GPU block of each block. -/
theorem sliceStep_last (positive : 0 < factor) {values : List Nat} {start stop : Nat} (ahead : start < stop)
    (within : stop * factor ≤ values.length) :
    sliceStep values (start * factor + factor - 1) (stop * factor) factor =
      (List.range' start (stop - start)).map fun block => values.getD (block * factor + factor - 1) 0 := by
  have count : (stop * factor - (start * factor + factor - 1) + factor - 1) / factor = stop - start := by
    obtain ⟨more, rfl⟩ : ∃ more, stop = start + more + 1 := ⟨stop - start - 1, by omega⟩
    have split : (start + more + 1) * factor = start * factor + more * factor + factor := by ring
    have enough : start + more + 1 - start = more + 1 := by omega
    have top : (start + more + 1) * factor - (start * factor + factor - 1) + factor - 1 = (more + 1) * factor := by
      have next : (more + 1) * factor = more * factor + factor := by ring
      omega
    rw [top, enough, Nat.mul_div_cancel _ positive]
  rw [sliceStep, Nat.min_eq_left within, rangeStep, count, List.range'_eq_map_range, List.map_map, List.map_map]
  apply List.map_congr_left
  intro tile _
  show values.getD (start * factor + factor - 1 + tile * factor) 0 = values.getD ((start + tile) * factor + factor - 1) 0
  congr 1
  have split : (start + tile) * factor = start * factor + tile * factor := Nat.add_mul _ _ _
  omega

/-- The keys that a group presents, where the request covers its tokens. -/
theorem groupOffloadKeys_covered (positive : 0 < factor) (covers : GroupCovers factor numTokens groupConfig groupState) :
    groupOffloadKeys factor numTokens groupConfig groupState =
      .ok ((due numTokens groupConfig groupState).filterMap fun block =>
        if Wanted factor groupConfig groupState block then groupState.offloadKeys[block]? else none) := by
  have storable := storableBlocks_le groupConfig numTokens
  have enoughKeys := covers.keys
  have enoughBlocks := Nat.le_trans (Nat.mul_le_mul_right factor storable) covers.blocks
  unfold groupOffloadKeys
  by_cases ahead : storableBlocks groupConfig numTokens ≤ groupState.nextStoredBlockIdx
  · have nothing : storableBlocks groupConfig numTokens - groupState.nextStoredBlockIdx = 0 := by omega
    simp [ahead, due, nothing]
  · have last := sliceStep_last positive (not_le.mp ahead) enoughBlocks
    have sliced := slice_eq groupState.offloadKeys groupState.nextStoredBlockIdx (storableBlocks groupConfig numTokens)
    have length : (slice groupState.offloadKeys groupState.nextStoredBlockIdx
        (storableBlocks groupConfig numTokens)).length =
          storableBlocks groupConfig numTokens - groupState.nextStoredBlockIdx := by
      rw [sliced, List.length_take, List.length_drop]
      omega
    simp only [ahead, if_false, last, length, List.length_map, List.length_range', ne_eq, not_true_eq_false]
    rw [sliced, drop_take_zip_zipIdx _ _ _ _ (by omega), List.filterMap_filterMap]
    congr 1
    apply List.filterMap_congr
    intro block _
    cases here : groupState.offloadKeys[block]? with
    | none => simp
    | some key =>
        simp only [Option.map_some, Option.bind_some]
        by_cases wanted : Wanted factor groupConfig groupState block
        · have present : groupState.blockIds.getD (block * factor + factor - 1) 0 ≠ 0 := wanted.1
          rw [if_pos wanted, if_neg present, if_neg (by simp [wanted.2])]
        · rw [if_neg wanted]
          by_cases empty : groupState.blockIds.getD (block * factor + factor - 1) 0 = 0
          · rw [if_pos empty]
          · have unreachable : groupConfig.unreachable block = true := by
              rw [← Bool.not_eq_false]
              exact fun reached => wanted ⟨empty, reached⟩
            rw [if_neg empty, if_pos unreachable]

/-- The GPU blocks that a group stores, where the request covers its tokens. -/
theorem groupSources_covered [DecidableEq Key] (covers : GroupCovers factor numTokens groupConfig groupState)
    (keysToStore : List Key) : groupSources factor numTokens keysToStore groupConfig groupState =
      ((due numTokens groupConfig groupState).filterMap fun block =>
        groupState.offloadKeys[block]?.map fun key => (key, groupState.gpuBlocks factor block)).flatMap fun entry =>
          if entry.1 ∈ keysToStore then entry.2 else [] := by
  have storable := storableBlocks_le groupConfig numTokens
  have enoughKeys := covers.keys
  by_cases ahead : storableBlocks groupConfig numTokens ≤ groupState.nextStoredBlockIdx
  · have nothing : storableBlocks groupConfig numTokens - groupState.nextStoredBlockIdx = 0 := by omega
    simp [groupSources, slice_eq, due, nothing]
  · rw [groupSources, slice_eq, drop_take_zipIdx _ _ _ (by omega), due]
    rw [List.filterMap_eq_flatMap_toList, List.filterMap_eq_flatMap_toList, List.flatMap_assoc, List.flatMap_assoc]
    apply List.flatMap_congr
    intro block _
    cases groupState.offloadKeys[block]? with
    | none => rfl
    | some key => simp [RequestGroupState.gpuBlocks]

end Group

/-- What a sublist without repetitions names is the sublist. -/
theorem filter_mem_of_sublist {Value : Type} [DecidableEq Value] {chosen values : List Value}
    (part : chosen.Sublist values) (distinct : values.Nodup) : values.filter (· ∈ chosen) = chosen := by
  induction part with
  | slnil => rfl
  | @cons chosen values value part ih =>
      obtain ⟨absent, rest⟩ := List.nodup_cons.mp distinct
      have outside : value ∉ chosen := fun member => absent (part.subset member)
      rw [List.filter_cons_of_neg (by simpa using outside), ih rest]
  | @cons_cons chosen values value part ih =>
      obtain ⟨absent, rest⟩ := List.nodup_cons.mp distinct
      rw [List.filter_cons_of_pos (by simp)]
      congr 1
      rw [← ih rest]
      apply List.filter_congr
      intro other member
      have different : other ≠ value := fun same => absent (same ▸ member)
      simp [ih rest, different]

section Request

variable {config : SchedulerOffloadConfig} {Key : Type} {status : RequestOffloadState config Key} {numTokens : Nat}

/-- The groups of a request with their configurations. -/
def RequestOffloadState.groups (status : RequestOffloadState config Key) :
    List (GroupOffloadConfig × RequestGroupState Key) := config.kvGroupConfigs.zip status.groupStates

def RequestOffloadState.Covers (status : RequestOffloadState config Key) (numTokens : Nat) : Prop :=
  ∀ group ∈ status.groups, GroupCovers config.blockSizeFactor numTokens group.1 group.2

/-- The key and the GPU blocks of a block. -/
def RequestGroupState.entry (factor : Nat) (groupState : RequestGroupState Key) (block : Nat) :
    Option (Key × List (Nat × Nat)) :=
  groupState.offloadKeys[block]?.map fun key => (key, groupState.gpuBlocks factor block)

/-- The blocks that a step comes by. -/
def RequestOffloadState.dueEntries (status : RequestOffloadState config Key) (numTokens : Nat) :
    List (Key × List (Nat × Nat)) :=
  status.groups.flatMap fun group => (due numTokens group.1 group.2).filterMap (group.2.entry config.blockSizeFactor)

/-- The blocks that a step presents. -/
def RequestOffloadState.presentedEntries (status : RequestOffloadState config Key) (numTokens : Nat) :
    List (Key × List (Nat × Nat)) :=
  status.groups.flatMap fun group =>
    ((due numTokens group.1 group.2).filter (Wanted config.blockSizeFactor group.1 group.2)).filterMap
      (group.2.entry config.blockSizeFactor)

theorem presentedEntries_sublist :
    (status.presentedEntries numTokens).Sublist (status.dueEntries numTokens) := by
  apply List.Sublist.flatMap_right
  intro group _
  exact List.filter_sublist.filterMap _

theorem mapM_ok {Value Result : Type} {values : List Value} {f : Value → Except StoreFault Result} {g : Value → Result}
    (each : ∀ value ∈ values, f value = .ok (g value)) : values.mapM f = .ok (values.map g) := by
  induction values with
  | nil => rfl
  | cons head tail ih =>
      rw [List.mapM_cons, each head List.mem_cons_self, ih fun value member => each value (List.mem_cons_of_mem _ member)]
      rfl

/-- A request that covers its tokens presents its wanted blocks. -/
theorem newOffloadKeys_covered (covers : status.Covers numTokens) :
    status.newOffloadKeys numTokens = .ok ((status.presentedEntries numTokens).map Prod.fst) := by
  have keys := mapM_ok fun group member => groupOffloadKeys_covered config.factored (covers group member)
  rw [RequestOffloadState.groups] at keys
  rw [RequestOffloadState.newOffloadKeys, keys]
  show Except.ok _ = _
  congr 1
  rw [RequestOffloadState.presentedEntries, List.map_flatMap, ← List.flatMap_def, RequestOffloadState.groups]
  apply List.flatMap_congr
  intro group _
  rw [List.map_filterMap, List.filterMap_filter]
  apply List.filterMap_congr
  intro block _
  by_cases wanted : Wanted config.blockSizeFactor group.1 group.2 block
  · simp only [wanted, if_true, decide_true, RequestGroupState.entry, Option.map_map]
    exact Option.map_id'.symm
  · simp [wanted]

/-- The keys that a step comes by are among those of the request. -/
theorem dueEntries_keys (covers : status.Covers numTokens) :
    ((status.dueEntries numTokens).map Prod.fst).Sublist (status.groupStates.flatMap (·.offloadKeys)) := by
  have all : status.groupStates.flatMap (·.offloadKeys) = status.groups.flatMap fun group => group.2.offloadKeys := by
    have states : status.groups.map Prod.snd = status.groupStates := List.map_snd_zip (by rw [status.grouped])
    rw [← states, List.flatMap_map]
  rw [all, RequestOffloadState.dueEntries, List.map_flatMap]
  apply List.Sublist.flatMap_right
  intro group member
  have storable := storableBlocks_le group.1 numTokens
  have enough := (covers group member).keys
  by_cases ahead : storableBlocks group.1 numTokens ≤ group.2.nextStoredBlockIdx
  · have nothing : storableBlocks group.1 numTokens - group.2.nextStoredBlockIdx = 0 := by omega
    simp [due, nothing]
  · have sliced := congrArg (List.map Prod.fst) (drop_take_zipIdx group.2.offloadKeys
      (storableBlocks group.1 numTokens - group.2.nextStoredBlockIdx) group.2.nextStoredBlockIdx (by omega))
    rw [List.zipIdx_map_fst, List.map_filterMap] at sliced
    have keys : ((due numTokens group.1 group.2).filterMap (group.2.entry config.blockSizeFactor)).map Prod.fst =
        (group.2.offloadKeys.drop group.2.nextStoredBlockIdx).take
          (storableBlocks group.1 numTokens - group.2.nextStoredBlockIdx) := by
      rw [sliced, List.map_filterMap, due]
      apply List.filterMap_congr
      intro block _
      simp only [RequestGroupState.entry, Option.map_map]
      rfl
    rw [keys]
    exact (List.take_sublist _ _).trans (List.drop_sublist _ _)

variable [DecidableEq Key]

/-- The blocks that are stored are the presented ones that the manager asks for, in its order. -/
theorem stored_entries (covers : status.Covers numTokens) (distinct : (status.groupStates.flatMap (·.offloadKeys)).Nodup)
    {keysToStore : List Key} (part : keysToStore.Sublist ((status.presentedEntries numTokens).map Prod.fst)) :
    ((status.presentedEntries numTokens).filter (·.1 ∈ keysToStore)).map Prod.fst = keysToStore ∧
      (status.dueEntries numTokens).filter (·.1 ∈ keysToStore) =
        (status.presentedEntries numTokens).filter (·.1 ∈ keysToStore) := by
  have dueDistinct := distinct.sublist (dueEntries_keys covers)
  have presentedPart := (@presentedEntries_sublist _ _ status numTokens).map Prod.fst
  have keysOf : ∀ entries : List (Key × List (Nat × Nat)), (entries.filter (·.1 ∈ keysToStore)).map Prod.fst =
      (entries.map Prod.fst).filter (· ∈ keysToStore) := by
    intro entries
    rw [List.filter_map]
    rfl
  have presented : ((status.presentedEntries numTokens).filter (·.1 ∈ keysToStore)).map Prod.fst = keysToStore := by
    rw [keysOf]
    exact filter_mem_of_sublist part (dueDistinct.sublist presentedPart)
  have dueKeys : ((status.dueEntries numTokens).filter (·.1 ∈ keysToStore)).map Prod.fst = keysToStore := by
    rw [keysOf]
    exact filter_mem_of_sublist (part.trans presentedPart) dueDistinct
  refine ⟨presented, ?_⟩
  symm
  apply List.Sublist.eq_of_length (presentedEntries_sublist.filter _)
  have lengths := congrArg List.length (presented.trans dueKeys.symm)
  simpa only [List.length_map] using lengths

/-- The source of a job: the GPU blocks of the stored keys in their order. -/
theorem sources_eq (covers : status.Covers numTokens) (distinct : (status.groupStates.flatMap (·.offloadKeys)).Nodup)
    {keysToStore : List Key} (part : keysToStore.Sublist ((status.presentedEntries numTokens).map Prod.fst)) :
    (status.groups.flatMap fun group => groupSources config.blockSizeFactor numTokens keysToStore group.1 group.2) =
      ((status.presentedEntries numTokens).filter (·.1 ∈ keysToStore)).flatMap Prod.snd := by
  have each : (status.groups.flatMap fun group =>
      groupSources config.blockSizeFactor numTokens keysToStore group.1 group.2) =
        (status.dueEntries numTokens).flatMap fun entry => if entry.1 ∈ keysToStore then entry.2 else [] := by
    rw [RequestOffloadState.dueEntries, List.flatMap_assoc]
    apply List.flatMap_congr
    intro group member
    rw [groupSources_covered (covers group member)]
    rfl
  rw [each, ← (stored_entries covers distinct part).2]
  generalize status.dueEntries numTokens = entries
  induction entries with
  | nil => rfl
  | cons entry rest ih =>
      by_cases chosen : entry.1 ∈ keysToStore
      · rw [List.flatMap_cons, if_pos chosen, List.filter_cons_of_pos (by simpa using chosen), List.flatMap_cons, ih]
      · rw [List.flatMap_cons, if_neg chosen, List.filter_cons_of_neg (by simpa using chosen), List.nil_append, ih]

end Request

end DgxSpark.Offload

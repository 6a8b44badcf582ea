import DgxSpark.Slab.Custody

namespace DgxSpark.Slab.SlabOffloadingManager

variable {Key : Type} [DecidableEq Key] {groups : Nat} {group : Key → Fin groups}

/-- The slots that a group can still give to a call. -/
def supply (manager : SlabOffloadingManager Key groups) (g : Fin groups) (protect : List Key) : Nat :=
  (manager.free g).length + manager.evictable g protect

theorem evictable_eq (manager : SlabOffloadingManager Key groups) (g : Fin groups) (protect : List Key) :
    manager.evictable g protect = (manager.index g).tally fun entry => manager.mayEvict protect entry.1 := by
  rw [evictable, OrderedDict.keys, List.countP_map, OrderedDict.tally]
  rfl

theorem takeSlot_isSome {manager : SlabOffloadingManager Key groups} {g : Fin groups} {protect : List Key}
    (enough : 0 < manager.supply g protect) : ∃ result, manager.takeSlot g protect = some result := by
  unfold takeSlot
  split
  · exact ⟨_, rfl⟩
  · rename_i exhausted
    rw [supply, exhausted, List.length_nil, Nat.zero_add, evictable_eq] at enough
    obtain ⟨entry, inside, allowed⟩ := OrderedDict.tally_pos_iff.mp enough
    cases found : (manager.index g).entries.find? fun entry => manager.mayEvict protect entry.1 with
    | none => exact absurd allowed (List.find?_eq_none.mp found entry inside)
    | some oldest => exact ⟨_, rfl⟩

/-- One slot comes off the supply of its own group only. -/
theorem takeSlot_supply {manager next : SlabOffloadingManager Key groups} {changed : Fin groups}
    {protect : List Key} {slot : Nat} {evicted : List Key}
    (taken : manager.takeSlot changed protect = some (slot, evicted, next)) (g : Fin groups) :
    next.supply g protect + (if changed = g then 1 else 0) = manager.supply g protect := by
  rcases takeSlot_cases taken with ⟨rest, available, _, rfl⟩ | ⟨gone, exhausted, _, found, allowed, rfl⟩
  · simp only [supply, evictable_eq]
    by_cases same : g = changed
    · subst same
      rw [Function.update_self, available, List.length_cons, if_pos rfl]
      change rest.length + (manager.index g).tally (fun entry => manager.mayEvict protect entry.1) + 1 = _
      omega
    · rw [Function.update_of_ne same, if_neg (fun equal => same equal.symm), Nat.add_zero]
      rfl
  · have dropped := (manager.index changed).tally_erase gone fun entry => manager.mayEvict protect entry.1
    rw [found] at dropped
    simp only [allowed, if_true] at dropped
    simp only [supply, evictable_eq, index_tally_update]
    change (manager.free g).length + (if g = changed
      then ((manager.index changed).erase gone).tally (fun entry => manager.mayEvict protect entry.1)
      else (manager.index g).tally (fun entry => manager.mayEvict protect entry.1)) + _ = _
    by_cases same : g = changed
    · subst same
      simp only [if_true]
      omega
    · rw [if_neg same, if_neg (fun equal => same equal.symm), Nat.add_zero]

/-- The preflight is enough: a call whose need fits the supply of every group gets all its slots. -/
theorem takeSlots_isSome {protect : List Key} (keys : List Key) :
    ∀ {manager : SlabOffloadingManager Key groups},
      (∀ g, need group keys g ≤ manager.supply g protect) →
        ∃ result, takeSlots group protect keys manager = some result := by
  induction keys with
  | nil =>
      intro manager _
      exact ⟨_, rfl⟩
  | cons head tail ih =>
      intro manager enough
      have here := enough (group head)
      simp only [need, List.countP_cons, beq_self_eq_true, if_true] at here
      obtain ⟨⟨slot, evicted, next⟩, taken⟩ := takeSlot_isSome (Nat.lt_of_lt_of_le (Nat.succ_pos _) here)
      have rest : ∀ g, need group tail g ≤ next.supply g protect := by
        intro g
        have before := enough g
        have after := takeSlot_supply taken g
        simp only [need, List.countP_cons, beq_iff_eq] at before ⊢
        split at before <;> simp_all; omega
      obtain ⟨⟨more, later, last⟩, there⟩ := ih rest
      exact ⟨((head, slot) :: more, evicted ++ later, last), by
        simp only [takeSlots, taken, Option.bind_some, there, Option.map_some]⟩

theorem eraseDups_nodup (keys : List Key) : keys.eraseDups.Nodup := by
  induction length : keys.length using Nat.strong_induction_on generalizing keys with
  | _ size ih =>
      cases keys with
      | nil => simp
      | cons head tail =>
          rw [List.eraseDups_cons, List.nodup_cons]
          constructor
          · rw [List.mem_eraseDups]
            simp
          · have shorter := List.length_filter_le (fun key => !key == head) tail
            rw [List.length_cons] at length
            exact ih _ (by omega) _ rfl

variable (group) in
/-- What `prepare_store` does: it leaves the manager as it is, or it places a slot for each new key. -/
theorem prepareStore_cases (manager : SlabOffloadingManager Key groups) (keys : List Key) :
    manager.prepareStore group keys = (.retry, manager) ∨
    ∃ taken evicted next siblings stats,
      takeSlots group keys.eraseDups (keys.eraseDups.filter (manager.isNew group)) manager =
        some (taken, evicted, next) ∧
      manager.prepareStore group keys =
        (.store {
            keysToStore := taken.map Prod.fst
            storeSpec := {
              keys := taken.map Prod.fst
              slots := taken.map fun pair => (pair.2 : Int)
              epoch := manager.epoch
              seq := manager.seq + 1 }
            evictedKeys := evicted },
          { next.placeAll taken with siblings := siblings, seq := next.seq + 1, stats := stats }) := by
  unfold prepareStore
  dsimp only
  split
  · rename_i preflight
    have enough (g : Fin groups) : need group (keys.eraseDups.filter (manager.isNew group)) g ≤
        manager.supply g keys.eraseDups := by
      rw [List.all_eq_true] at preflight
      by_cases used : g ∈ (keys.eraseDups.filter (manager.isNew group)).map group
      · exact of_decide_eq_true (preflight g used)
      · have none : need group (keys.eraseDups.filter (manager.isNew group)) g = 0 := by
          rw [need, List.countP_eq_zero]
          intro key inside same
          exact used (List.mem_map.mpr ⟨key, inside, by simpa using same⟩)
        omega
    obtain ⟨⟨taken, evicted, next⟩, done⟩ := takeSlots_isSome _ enough
    rw [done]
    exact .inr ⟨taken, evicted, next, _, _, rfl, rfl⟩
  · exact .inl rfl

/-- The preflight rules out the error behind it. -/
theorem prepareStore_evictable (manager : SlabOffloadingManager Key groups) (keys : List Key) :
    (manager.prepareStore group keys).1 ≠ .noEvictableSlot := by
  rcases prepareStore_cases group manager keys with same | ⟨_, _, _, _, _, _, same⟩ <;>
    rw [same] <;> exact nofun

theorem isNew_iff {manager : SlabOffloadingManager Key groups} {key : Key} :
    manager.isNew group key = true ↔
      (manager.index (group key)).get? key = none ∧ manager.inflightStore.get? key = none := by
  rw [isNew, decide_eq_true_eq, OrderedDict.get?_eq_none_iff, OrderedDict.get?_eq_none_iff]

theorem prepareStore_custody {manager : SlabOffloadingManager Key groups} {loads : List (Key × Int)}
    (custody : manager.Custody group loads) (keys : List Key) :
    (manager.prepareStore group keys).2.Custody group loads ∧
      ∀ g slot, (manager.prepareStore group keys).2.copies group g slot = manager.copies group g slot := by
  rcases prepareStore_cases group manager keys with same | ⟨taken, evicted, next, _, _, done, same⟩
  · rw [same]
    exact ⟨custody, fun _ _ => rfl⟩
  · have fresh : ∀ key ∈ keys.eraseDups.filter (manager.isNew group),
        (manager.index (group key)).get? key = none ∧ manager.inflightStore.get? key = none :=
      fun key inside => isNew_iff.mp (List.mem_filter.mp inside).2
    obtain ⟨kept, account⟩ := takeSlots_custody _ custody ((eraseDups_nodup keys).filter _) fresh done
    rw [same]
    exact ⟨kept.congr rfl rfl rfl rfl rfl rfl, account⟩

theorem completeStoreKey_custody {manager : SlabOffloadingManager Key groups} {loads : List (Key × Int)}
    (custody : manager.Custody group loads) (success : Bool) (key : Key) :
    (completeStoreKey group success manager key).Custody group loads := by
  have account := completeStoreKey_copies group manager success key (custody.apart key)
  constructor
  · exact fun g slot => (account g slot).symm ▸ custody.once g slot
  · intro g slot outside
    rw [account]
    apply custody.within g slot
    unfold completeStoreKey at outside
    split at outside
    · exact outside
    · dsimp only at outside
      split at outside <;> exact outside
  · intro other
    unfold completeStoreKey
    split
    · exact custody.apart other
    · dsimp only
      split
      · intro inside
        obtain ⟨value, found⟩ := OrderedDict.mem_keys_iff.mp inside
        dsimp only at found ⊢
        rw [OrderedDict.get?_erase] at found
        split at found
        · cases found
        · rename_i different
          have absent := custody.apart other (OrderedDict.mem_keys_iff.mpr ⟨value, found⟩)
          by_cases same : group other = group key
          · rw [same, Function.update_self, OrderedDict.get?_set_of_ne _ _ different, ← same]
            exact absent
          · rw [Function.update_of_ne same]
            exact absent
      · intro inside
        obtain ⟨value, found⟩ := OrderedDict.mem_keys_iff.mp inside
        dsimp only at found ⊢
        rw [OrderedDict.get?_erase] at found
        split at found
        · cases found
        · exact custody.apart other (OrderedDict.mem_keys_iff.mpr ⟨value, found⟩)
  · intro other
    have sameReaders : (completeStoreKey group success manager key).readers other = manager.readers other := by
      unfold completeStoreKey
      split
      · rfl
      · dsimp only
        split <;> rfl
    rw [sameReaders]
    exact custody.covered other
  · intro reader value inside
    have old := custody.guarded reader value inside
    unfold completeStoreKey
    split
    · exact old
    · rename_i slot found
      have otherSlot : group key = group reader → slot ≠ value := fun same equal =>
        old.notStored key same (equal ▸ found)
      have fewer : ∀ other, group other = group reader →
          (manager.inflightStore.erase key).get? other ≠ some value := by
        intro other same present
        rw [OrderedDict.get?_erase] at present
        split at present
        · cases present
        · exact old.notStored other same present
      dsimp only
      split
      · refine ⟨old.notFree, fewer, ?_, old.condemnedHere⟩
        intro other present
        dsimp only at present
        by_cases same : group reader = group key
        · rw [same, Function.update_self, OrderedDict.get?_set] at present
          split at present
          · exact absurd (Option.some.inj present) (otherSlot same.symm)
          · exact old.indexedHere other (same ▸ present)
        · rw [Function.update_of_ne same] at present
          exact old.indexedHere other present
      · refine ⟨?_, fewer, old.indexedHere, old.condemnedHere⟩
        intro free
        dsimp only at free
        by_cases same : group reader = group key
        · rw [same, Function.update_self, List.mem_append, List.mem_singleton] at free
          rcases free with free | equal
          · exact old.notFree (same ▸ free)
          · exact otherSlot same.symm equal.symm
        · rw [Function.update_of_ne same] at free
          exact old.notFree free

theorem completeStore_custody (success : Bool) (keys : List Key) :
    ∀ {manager : SlabOffloadingManager Key groups} {loads : List (Key × Int)}, manager.Custody group loads →
      (manager.completeStore group keys success).Custody group loads ∧
        ∀ g slot, (manager.completeStore group keys success).copies group g slot = manager.copies group g slot := by
  induction keys with
  | nil => exact fun custody => ⟨custody, fun _ _ => rfl⟩
  | cons head tail ih =>
      intro manager loads custody
      obtain ⟨kept, account⟩ := ih (completeStoreKey_custody custody success head)
      exact ⟨kept, fun g slot => (account g slot).trans
        (completeStoreKey_copies group manager success head (custody.apart head) g slot)⟩

theorem readers_addReader (manager : SlabOffloadingManager Key groups) (key other : Key) :
    (manager.addReader key).readers other = manager.readers other + if other = key then 1 else 0 := by
  rw [addReader, readers, OrderedDict.get?_set]
  split
  · rename_i same
    rw [Option.getD_some, same]
  · rfl

/-- A new load reads the slot that the index gives its key. -/
theorem addReader_custody {manager : SlabOffloadingManager Key groups} {loads : List (Key × Int)}
    (custody : manager.Custody group loads) (key : Key) :
    (manager.addReader key).Custody group ((key, manager.loadSlot group key) :: loads) := by
  constructor
  · exact custody.once
  · exact custody.within
  · exact custody.apart
  · intro other
    have old := custody.covered other
    rw [readers_addReader, List.map_cons, List.count_cons]
    by_cases same : other = key
    · simp only [same, beq_self_eq_true, if_true] at old ⊢
      omega
    · have unequal : (key == other) = false := by simpa using Ne.symm same
      simp only [unequal, same, if_false, Bool.false_eq_true]
      exact old
  · intro reader value inside
    suffices guard : manager.Guarded group reader value from
      ⟨guard.notFree, guard.notStored, guard.indexedHere, guard.condemnedHere⟩
    rcases List.mem_cons.mp inside with here | there
    · obtain ⟨rfl, sameSlot⟩ := Prod.mk.inj here
      unfold loadSlot at sameSlot
      split at sameSlot
      · rename_i slot found
        obtain rfl : value = slot := by omega
        have once := custody.once (group reader) value
        have indexed : 0 < (manager.index (group reader)).tally fun entry => entry.2 == value :=
          OrderedDict.tally_pos_of_get? found (by simp)
        rw [copies] at once
        refine ⟨?_, ?_, ?_, ?_⟩
        · intro free
          have := List.count_pos_iff.mpr free
          omega
        · intro other same stored
          have := assigned_pos group stored
          rw [same] at this
          omega
        · -- Two keys with one slot would count twice in the index.
          intro other present
          by_contra different
          have split := (manager.index (group reader)).tally_erase reader fun entry => entry.2 == value
          rw [found] at split
          have second : 0 < ((manager.index (group reader)).erase reader).tally fun entry => entry.2 == value :=
            OrderedDict.tally_pos_of_get? ((OrderedDict.get?_erase_of_ne _ different).trans present) (by simp)
          simp only [beq_self_eq_true, if_true] at split
          omega
        · intro other same dropped
          have := assigned_pos group dropped
          rw [same] at this
          omega
      · omega
    · exact custody.guarded reader value there

theorem prepareLoad_custody (keys : List Key) :
    ∀ {manager : SlabOffloadingManager Key groups} {loads : List (Key × Int)}, manager.Custody group loads →
      (manager.prepareLoad group keys).2.Custody group
          ((keys.map fun key => (key, manager.loadSlot group key)) ++ loads) ∧
        ∀ g slot, (manager.prepareLoad group keys).2.copies group g slot = manager.copies group g slot := by
  induction keys with
  | nil => exact fun custody => ⟨custody, fun _ _ => rfl⟩
  | cons head tail ih =>
      intro manager loads custody
      obtain ⟨kept, account⟩ := ih (addReader_custody custody head)
      refine ⟨kept.mono ?_, account⟩
      rw [List.map_cons, List.cons_append]
      exact List.perm_middle.symm.subperm

/-- A completed load gives up one reader, and the last one frees the condemned slot. -/
theorem completeLoadKey_custody {manager : SlabOffloadingManager Key groups} {loads : List (Key × Int)}
    {key : Key} {slot : Int} (custody : manager.Custody group ((key, slot) :: loads)) :
    (completeLoadKey group manager key).Custody group loads := by
  have fewer (other : Key) : (loads.map Prod.fst).count other + (if other = key then 1 else 0) ≤
      manager.readers other := by
    have old := custody.covered other
    rw [List.map_cons, List.count_cons] at old
    by_cases same : other = key
    · simp only [same, beq_self_eq_true, if_true] at old ⊢
      exact old
    · rw [if_neg same]
      omega
  have rest := custody.mono (List.sublist_cons_self _ _).subperm
  have account := completeLoadKey_copies group manager key
  have sameCounts : (completeLoadKey group manager key).counts = manager.counts := by
    unfold completeLoadKey
    repeat' split
    all_goals rfl
  have sameIndex : (completeLoadKey group manager key).index = manager.index := by
    unfold completeLoadKey
    repeat' split
    all_goals rfl
  have sameStored : (completeLoadKey group manager key).inflightStore = manager.inflightStore := by
    unfold completeLoadKey
    repeat' split
    all_goals rfl
  constructor
  · exact fun g s => (account g s).symm ▸ custody.once g s
  · exact fun g s outside => (account g s).symm ▸ custody.within g s (sameCounts ▸ outside)
  · rw [sameStored, sameIndex]
    exact custody.apart
  · intro other
    have enough := fewer other
    unfold completeLoadKey
    split
    · rename_i last
      have erased : ((manager.inflightLoad.erase key).get? other).getD 0 =
          if other = key then 0 else manager.readers other := by
        rw [OrderedDict.get?_erase]
        split <;> rfl
      have bound : (loads.map Prod.fst).count other ≤
          ((manager.inflightLoad.erase key).get? other).getD 0 := by
        rw [erased]
        by_cases same : other = key
        · subst same
          rw [if_pos rfl] at enough ⊢
          omega
        · rw [if_neg same] at enough ⊢
          exact enough
      split <;> exact bound
    · change _ ≤ ((manager.inflightLoad.set key (manager.readers key - 1)).get? other).getD 0
      rw [OrderedDict.get?_set]
      split
      · rename_i same
        subst same
        simp only [if_true, Option.getD_some] at enough ⊢
        omega
      · rename_i different
        rw [if_neg different] at enough
        exact enough
  · intro reader value inside
    have old := rest.guarded reader value inside
    unfold completeLoadKey
    split
    · rename_i last
      have gone : reader ≠ key := by
        intro same
        have enough := fewer key
        have waiting : 0 < (loads.map Prod.fst).count key :=
          List.count_pos_iff.mpr (List.mem_map.mpr ⟨_, inside, same⟩)
        rw [if_pos rfl] at enough
        omega
      split
      · rename_i freed found
        refine ⟨?_, old.notStored, old.indexedHere, ?_⟩
        · intro free
          dsimp only at free
          by_cases same : group reader = group key
          · rw [same, Function.update_self, List.mem_append, List.mem_singleton] at free
            rcases free with free | equal
            · exact old.notFree (same ▸ free)
            · exact gone (old.condemnedHere key same.symm (equal ▸ found)).symm
          · rw [Function.update_of_ne same] at free
            exact old.notFree free
        · intro other same dropped
          dsimp only at dropped
          rw [OrderedDict.get?_erase] at dropped
          split at dropped
          · cases dropped
          · exact old.condemnedHere other same dropped
      · exact ⟨old.notFree, old.notStored, old.indexedHere, old.condemnedHere⟩
    · exact ⟨old.notFree, old.notStored, old.indexedHere, old.condemnedHere⟩

/-- A completion names keys of its own job, in any order and each at most as often as the job does. -/
theorem completeLoad_custody (keys : List Key) :
    ∀ {manager : SlabOffloadingManager Key groups} {done rest : List (Key × Int)},
      keys.Subperm (done.map Prod.fst) → manager.Custody group (done ++ rest) →
        (manager.completeLoad group keys).Custody group rest := by
  induction keys with
  | nil =>
      intro manager done rest _ custody
      exact custody.mono (List.sublist_append_right done rest).subperm
  | cons head tail ih =>
      intro manager done rest named custody
      obtain ⟨⟨same, slot⟩, inside, equal⟩ := List.mem_map.mp (named.subset List.mem_cons_self)
      obtain rfl : same = head := equal
      have split := List.perm_cons_erase inside
      have shorter : tail.Subperm ((done.erase (same, slot)).map Prod.fst) := by
        have reordered := named.trans (split.map Prod.fst).subperm
        rw [List.map_cons] at reordered
        exact (List.subperm_cons same).mp reordered
      have front : manager.Custody group ((same, slot) :: (done.erase (same, slot) ++ rest)) :=
        custody.mono (split.append_right rest).symm.subperm
      exact ih shorter (completeLoadKey_custody front)

theorem completeLoad_copies (keys : List Key) (manager : SlabOffloadingManager Key groups)
    (g : Fin groups) (slot : Nat) :
    (manager.completeLoad group keys).copies group g slot = manager.copies group g slot := by
  induction keys generalizing manager with
  | nil => rfl
  | cons head tail ih => exact (ih _).trans (completeLoadKey_copies group manager head g slot)

theorem markLoadFailedKey_custody {manager : SlabOffloadingManager Key groups} {loads : List (Key × Int)}
    (custody : manager.Custody group loads) (key : Key) :
    (markLoadFailedKey group manager key).Custody group loads := by
  have account := markLoadFailedKey_copies group manager key
  have fewer (g : Fin groups) (slot : Nat) :
      (markLoadFailedKey group manager key).copies group g slot ≤ manager.copies group g slot := by
    have := account g slot
    omega
  unfold markLoadFailedKey at fewer ⊢
  split
  · exact custody
  · rename_i value found
    simp only [found] at fewer
    have removed (g : Fin groups) (other : Key) (slot : Nat)
        (present : ((Function.update manager.index (group key)
          ((manager.index (group key)).erase key)) g).get? other = some slot) :
        (manager.index g).get? other = some slot := by
      by_cases same : g = group key
      · subst same
        rw [Function.update_self, OrderedDict.get?_erase] at present
        split at present
        · cases present
        · exact present
      · rwa [Function.update_of_ne same] at present
    have apart (other : Key) (inside : other ∈ manager.inflightStore.keys) :
        ((Function.update manager.index (group key)
          ((manager.index (group key)).erase key)) (group other)).get? other = none := by
      have absent := custody.apart other inside
      rw [Option.eq_none_iff_forall_ne_some] at absent ⊢
      exact fun slot present => absent slot (removed _ _ _ present)
    dsimp only at fewer ⊢
    split
    · rename_i read
      rw [if_pos read] at fewer
      refine ⟨fun g slot => (fewer g slot).trans (custody.once g slot), ?_, apart, custody.covered, ?_⟩
      · exact fun g slot outside => Nat.eq_zero_of_le_zero (custody.within g slot outside ▸ fewer g slot)
      · intro reader slot inside
        have old := custody.guarded reader slot inside
        refine ⟨old.notFree, old.notStored, fun other present => old.indexedHere other (removed _ _ _ present), ?_⟩
        intro other same dropped
        dsimp only at dropped
        rw [OrderedDict.get?_set] at dropped
        split at dropped
        · rename_i here
          subst here
          exact old.indexedHere other (same ▸ Option.some.inj dropped ▸ found)
        · exact old.condemnedHere other same dropped
    · rename_i idle
      rw [if_neg idle] at fewer
      refine ⟨fun g slot => (fewer g slot).trans (custody.once g slot), ?_, apart, custody.covered, ?_⟩
      · exact fun g slot outside => Nat.eq_zero_of_le_zero (custody.within g slot outside ▸ fewer g slot)
      · intro reader slot inside
        have old := custody.guarded reader slot inside
        refine ⟨?_, old.notStored, fun other present => old.indexedHere other (removed _ _ _ present),
          old.condemnedHere⟩
        intro free
        dsimp only at free
        by_cases same : group reader = group key
        · rw [same, Function.update_self, List.mem_append, List.mem_singleton] at free
          rcases free with free | equal
          · exact old.notFree (same ▸ free)
          · -- The freed entry has no reader, but this load reads it.
            have owner := old.indexedHere key (same ▸ equal ▸ found)
            have waiting : 0 < (loads.map Prod.fst).count reader :=
              List.count_pos_iff.mpr (List.mem_map.mpr ⟨_, inside, rfl⟩)
            have enough := custody.covered reader
            rw [owner] at idle
            omega
        · rw [Function.update_of_ne same] at free
          exact old.notFree free

theorem markLoadFailed_custody (keys : List Key) {manager : SlabOffloadingManager Key groups}
    {loads : List (Key × Int)} (custody : manager.Custody group loads) :
    (manager.markLoadFailed group keys).Custody group loads := by
  induction keys generalizing manager with
  | nil => exact custody
  | cons head tail ih => exact ih (markLoadFailedKey_custody custody head)

omit [DecidableEq Key] in
/-- After a reset every slot of the range is free and held nowhere else. -/
theorem resetCache_copies (manager : SlabOffloadingManager Key groups) (g : Fin groups) (slot : Nat) :
    manager.resetCache.copies group g slot = if slot < manager.counts g then 1 else 0 := by
  have whole : manager.resetCache.copies group g slot = (List.range (manager.counts g)).count slot := by
    simp [resetCache, copies, assigned]
  rw [whole, List.nodup_range.count]
  simp

theorem resetCache_custody (manager : SlabOffloadingManager Key groups) :
    manager.resetCache.Custody group [] where
  once g slot := by
    rw [resetCache_copies]
    split <;> omega
  within g slot outside := by
    rw [resetCache_copies]
    exact if_neg (Nat.not_lt.mpr outside)
  apart key inside := by cases inside
  covered key := Nat.zero_le _
  guarded key slot inside := by cases inside

end DgxSpark.Slab.SlabOffloadingManager

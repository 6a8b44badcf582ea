import DgxSpark.Slab.Capacity

/-
This file says what each call of the manager does to the keys of the index, to the stores in flight
and to the failure marks.
-/

namespace DgxSpark.Slab.SlabOffloadingManager

variable {Key : Type} [DecidableEq Key] {groups : Nat} (group : Key → Fin groups)

/-- A key is visible when the index of its group has it. -/
def Visible (manager : SlabOffloadingManager Key groups) (key : Key) : Prop :=
  key ∈ (manager.index (group key)).keys

variable {group}

theorem visible_iff {manager : SlabOffloadingManager Key groups} {key : Key} :
    manager.Visible group key ↔ (manager.index (group key)).get? key ≠ none := by
  rw [Visible, ne_eq, OrderedDict.get?_eq_none_iff, not_not]

theorem visible_congr {manager other : SlabOffloadingManager Key groups} {key : Key}
    (same : (other.index (group key)).get? key = (manager.index (group key)).get? key) :
    other.Visible group key ↔ manager.Visible group key := by
  rw [visible_iff, visible_iff, same]

/-! ### Completed stores -/

theorem completeStoreKey_visible (manager : SlabOffloadingManager Key groups) (key other : Key) :
    (completeStoreKey group true manager key).Visible group other ↔
      (other = key ∧ manager.inflightStore.get? key ≠ none ∧ key ∉ manager.failedStore) ∨
        manager.Visible group other := by
  unfold completeStoreKey
  split
  case h_1 absent => simp only [absent, ne_eq, not_true_eq_false, false_and, and_false, false_or]
  case h_2 slot found =>
    dsimp only
    split
    case isTrue clean =>
      rw [visible_iff, visible_iff]
      dsimp only
      by_cases same : other = key
      · subst same
        rw [Function.update_self, OrderedDict.get?_set_self]
        simp [found, clean.2]
      · by_cases here : group other = group key
        · rw [here, Function.update_self, OrderedDict.get?_set_of_ne _ _ same]
          simp [same]
        · rw [Function.update_of_ne here]
          simp [same]
    case isFalse marked =>
      have failed : key ∈ manager.failedStore := by
        by_contra clean
        exact marked ⟨rfl, clean⟩
      change manager.Visible group other ↔ _
      simp [failed]

theorem completeStoreKey_failedStore (success : Bool) (manager : SlabOffloadingManager Key groups)
    (key other : Key) : other ∈ (completeStoreKey group success manager key).failedStore ↔
      other ∈ manager.failedStore ∧ ¬(other = key ∧ manager.inflightStore.get? key ≠ none) := by
  unfold completeStoreKey
  split
  case h_1 absent => simp [absent]
  case h_2 slot found =>
    dsimp only
    split
    · simp only [Finset.mem_erase, found, ne_eq, reduceCtorEq, not_false_eq_true, and_true]
      exact and_comm
    · simp only [Finset.mem_erase, found, ne_eq, reduceCtorEq, not_false_eq_true, and_true]
      exact and_comm

theorem completeStoreKey_stored (success : Bool) (manager : SlabOffloadingManager Key groups)
    (key other : Key) : (completeStoreKey group success manager key).inflightStore.get? other =
      if other = key then none else manager.inflightStore.get? other := by
  have whole : (completeStoreKey group success manager key).inflightStore.get? other =
      if other ∈ [key] then none else manager.inflightStore.get? other :=
    completeStore_stored [key] success manager other
  rw [whole]
  simp only [List.mem_singleton]

/-- A completed store shows those of its keys that were in flight and not marked. -/
theorem completeStore_visible (keys : List Key) (manager : SlabOffloadingManager Key groups) (other : Key) :
    (manager.completeStore group keys true).Visible group other ↔
      (other ∈ keys ∧ manager.inflightStore.get? other ≠ none ∧ other ∉ manager.failedStore) ∨
        manager.Visible group other := by
  induction keys generalizing manager with
  | nil => simp [completeStore]
  | cons head tail ih =>
      change ((completeStoreKey group true manager head).completeStore group tail true).Visible group other ↔ _
      rw [ih, completeStoreKey_visible, completeStoreKey_failedStore, completeStoreKey_stored]
      by_cases first : other = head
      · subst first
        simp
      · simp [first]

/-- A completed store takes the marks of its keys in flight away. -/
theorem completeStore_failedStore (keys : List Key) (success : Bool)
    (manager : SlabOffloadingManager Key groups) (other : Key) :
    other ∈ (manager.completeStore group keys success).failedStore ↔
      other ∈ manager.failedStore ∧ ¬(other ∈ keys ∧ manager.inflightStore.get? other ≠ none) := by
  induction keys generalizing manager with
  | nil => simp [completeStore]
  | cons head tail ih =>
      change other ∈ ((completeStoreKey group success manager head).completeStore group tail success).failedStore
        ↔ _
      rw [ih, completeStoreKey_failedStore, completeStoreKey_stored]
      by_cases first : other = head
      · subst first
        simp
      · simp [first]

/-! ### Loads and failed loads -/

variable (group) in
theorem completeLoad_index (keys : List Key) (manager : SlabOffloadingManager Key groups) :
    (manager.completeLoad group keys).index = manager.index ∧
      (manager.completeLoad group keys).failedStore = manager.failedStore := by
  refine ⟨foldl_keeps SlabOffloadingManager.index ?_ keys manager,
    foldl_keeps SlabOffloadingManager.failedStore ?_ keys manager⟩
  all_goals
    intro state key
    dsimp only [completeLoadKey]
    repeat' split
    all_goals rfl

variable (group) in
theorem prepareLoad_index (keys : List Key) (manager : SlabOffloadingManager Key groups) :
    (manager.prepareLoad group keys).2.index = manager.index ∧
      (manager.prepareLoad group keys).2.failedStore = manager.failedStore := by
  have index : ∀ (state : SlabOffloadingManager Key groups) key, (state.addReader key).index = state.index :=
    fun _ _ => rfl
  have marks : ∀ (state : SlabOffloadingManager Key groups) key,
      (state.addReader key).failedStore = state.failedStore := fun _ _ => rfl
  exact ⟨foldl_keeps SlabOffloadingManager.index index keys manager,
    foldl_keeps SlabOffloadingManager.failedStore marks keys manager⟩

/-- A failed load takes its keys out of the index and no other key. -/
theorem markLoadFailed_visible (keys : List Key) (manager : SlabOffloadingManager Key groups) (other : Key) :
    (manager.markLoadFailed group keys).Visible group other ↔ other ∉ keys ∧ manager.Visible group other := by
  induction keys generalizing manager with
  | nil => simp [markLoadFailed]
  | cons head tail ih =>
      change ((markLoadFailedKey group manager head).markLoadFailed group tail).Visible group other ↔ _
      rw [ih, visible_iff, visible_iff, markLoadFailedKey_index]
      by_cases first : other = head
      · simp [first]
      · simp [first]

variable (group) in
theorem markLoadFailed_failedStore (keys : List Key) (manager : SlabOffloadingManager Key groups) :
    (manager.markLoadFailed group keys).failedStore = manager.failedStore := by
  refine foldl_keeps SlabOffloadingManager.failedStore ?_ keys manager
  intro state key
  dsimp only [markLoadFailedKey]
  split
  · rfl
  · split <;> rfl

/-! ### New stores -/

theorem placeAll_stored_iff (taken : List (Key × Nat)) (manager : SlabOffloadingManager Key groups)
    (other : Key) : (manager.placeAll taken).inflightStore.get? other ≠ none ↔
      other ∈ taken.map Prod.fst ∨ manager.inflightStore.get? other ≠ none := by
  induction taken generalizing manager with
  | nil => simp [placeAll]
  | cons head tail ih =>
      change ((manager.place head.1 head.2).placeAll tail).inflightStore.get? other ≠ none ↔ _
      rw [ih, place, OrderedDict.get?_set, List.map_cons, List.mem_cons]
      by_cases first : other = head.1
      · simp [first]
      · simp [first]

variable (group) in
/-- What a call of `prepare_store` leaves of the index, the marks and the stores in flight. -/
theorem prepareStore_effect (manager : SlabOffloadingManager Key groups) (keys : List Key) :
    (manager.prepareStore group keys = (.retry, manager)) ∨
    ∃ output next, manager.prepareStore group keys = (.store output, next) ∧
      output.keysToStore.Nodup ∧
      (∀ key ∈ output.keysToStore, manager.inflightStore.get? key = none) ∧
      next.failedStore = manager.failedStore ∧
      (∀ key, next.inflightStore.get? key ≠ none ↔
        key ∈ output.keysToStore ∨ manager.inflightStore.get? key ≠ none) ∧
      ∀ key, next.Visible group key → manager.Visible group key := by
  rcases prepareStore_cases group manager keys with same | ⟨taken, evicted, next, _, _, done, same⟩
  · exact .inl same
  · obtain ⟨frame, named⟩ := takeSlots_frame _ done
    refine .inr ⟨_, _, same, ?_, ?_, frame.failed, ?_, ?_⟩
    · change (taken.map Prod.fst).Nodup
      rw [named]
      exact (eraseDups_nodup keys).filter _
    · intro key inside
      change key ∈ taken.map Prod.fst at inside
      rw [named] at inside
      exact (isNew_iff.mp (List.mem_filter.mp inside).2).2
    · intro key
      rw [← frame.stored]
      exact placeAll_stored_iff taken next key
    · intro key shown
      obtain ⟨slot, found⟩ := OrderedDict.mem_keys_iff.mp shown
      exact OrderedDict.mem_keys_iff.mpr ⟨slot, frame.index _ key slot found⟩

/-- Refreshing entries changes no key of the index. -/
theorem touch_visible (manager : SlabOffloadingManager Key groups) (keys : List Key) (other : Key) :
    (manager.touch group keys).Visible group other ↔ manager.Visible group other :=
  visible_congr (refresh_get? group manager.index keys (group other) other)

theorem lookup_visible (manager : SlabOffloadingManager Key groups) (key other : Key) :
    (manager.lookup group key).2.Visible group other ↔ manager.Visible group other := by
  unfold lookup
  split
  · exact visible_congr (refresh_get? group manager.index _ (group other) other)
  · split
    · exact Iff.rfl
    · exact Iff.rfl

/-- A lookup hits exactly the visible keys. -/
theorem lookup_hit_iff (manager : SlabOffloadingManager Key groups) (key : Key) :
    (manager.lookup group key).1 = .hit ↔ manager.Visible group key := by
  unfold lookup Visible
  split
  case isTrue shown => simp [shown]
  case isFalse hidden =>
    split
    · simp [hidden]
    · simp [hidden]

theorem lookup_miss_iff (manager : SlabOffloadingManager Key groups) (key : Key) :
    (manager.lookup group key).1 = .miss ↔
      ¬manager.Visible group key ∧ manager.inflightStore.get? key = none := by
  unfold lookup Visible
  rw [OrderedDict.get?_eq_none_iff]
  split
  case isTrue shown => simp [shown]
  case isFalse hidden =>
    split
    case isTrue stored => simp [stored]
    case isFalse free => simp [hidden, free]

end DgxSpark.Slab.SlabOffloadingManager

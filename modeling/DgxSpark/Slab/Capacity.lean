import DgxSpark.Slab.Desk

namespace DgxSpark.Slab

open SlabOffloadingManager

variable {Key : Type} [DecidableEq Key] {groups : Nat} {group : Key → Fin groups}

namespace SlabOffloadingManager

variable (group) in
/-- A failed key overwrites an earlier condemned slot when both its new and its old slot are still read. -/
def Overwrites (manager : SlabOffloadingManager Key groups) (key : Key) : Prop :=
  (manager.index (group key)).get? key ≠ none ∧ manager.condemned.get? key ≠ none

theorem markLoadFailedKey_index (manager : SlabOffloadingManager Key groups) (key other : Key) :
    ((markLoadFailedKey group manager key).index (group other)).get? other =
      if other = key then none else (manager.index (group other)).get? other := by
  unfold markLoadFailedKey
  split
  · rename_i absent
    split
    · rename_i same
      rw [same, absent]
    · rfl
  · have erased : ((Function.update manager.index (group key) ((manager.index (group key)).erase key))
        (group other)).get? other = if other = key then none else (manager.index (group other)).get? other := by
      by_cases same : group other = group key
      · rw [same, Function.update_self, OrderedDict.get?_erase]
      · have different : other ≠ key := fun equal => same (congrArg group equal)
        rw [Function.update_of_ne same, if_neg different]
    dsimp only
    split <;> exact erased

theorem markLoadFailedKey_condemned (manager : SlabOffloadingManager Key groups) {key other : Key}
    (different : other ≠ key) :
    (markLoadFailedKey group manager key).condemned.get? other = manager.condemned.get? other := by
  unfold markLoadFailedKey
  split
  · rfl
  · dsimp only
    split
    · exact OrderedDict.get?_set_of_ne _ _ different
    · rfl

theorem markLoadFailedKey_readers (manager : SlabOffloadingManager Key groups) (key other : Key) :
    (markLoadFailedKey group manager key).readers other = manager.readers other := by
  unfold markLoadFailedKey
  split
  · rfl
  · dsimp only
    split <;> rfl

theorem markLoadFailedKey_overwrites {manager : SlabOffloadingManager Key groups} {key other : Key} :
    (markLoadFailedKey group manager key).Overwrites group other ↔
      other ≠ key ∧ manager.Overwrites group other := by
  unfold Overwrites
  rw [markLoadFailedKey_index]
  by_cases same : other = key
  · simp [same]
  · rw [if_neg same, markLoadFailedKey_condemned manager same]
    exact ⟨fun both => ⟨same, both⟩, fun both => both.2⟩

/-- Without an overwrite a failure mark keeps every slot. -/
theorem markLoadFailed_copies (keys : List Key) :
    ∀ {manager : SlabOffloadingManager Key groups}, (∀ key ∈ keys, ¬manager.Overwrites group key) →
      ∀ g slot, (manager.markLoadFailed group keys).copies group g slot = manager.copies group g slot := by
  induction keys with
  | nil => exact fun _ _ _ => rfl
  | cons head tail ih =>
      intro manager clean g slot
      have none : manager.forgotten group head g slot = 0 := by
        unfold forgotten
        split
        · rename_i both
          split
          · rename_i old found
            exact absurd ⟨both.1, by rw [found]; exact Option.some_ne_none old⟩ (clean head List.mem_cons_self)
          · rfl
        · rfl
      have account := markLoadFailedKey_copies group manager head g slot
      rw [none, Nat.add_zero] at account
      have rest : ∀ key ∈ tail, ¬(markLoadFailedKey group manager head).Overwrites group key :=
        fun key inside bad => clean key (List.mem_cons_of_mem _ inside) (markLoadFailedKey_overwrites.mp bad).2
      exact (ih rest g slot).trans account

variable (group) in
theorem markLoadFailed_copies_le (keys : List Key) (manager : SlabOffloadingManager Key groups)
    (g : Fin groups) (slot : Nat) :
    (manager.markLoadFailed group keys).copies group g slot ≤ manager.copies group g slot := by
  induction keys generalizing manager with
  | nil => exact Nat.le_refl _
  | cons head tail ih =>
      have account := markLoadFailedKey_copies group manager head g slot
      have rest := ih (markLoadFailedKey group manager head)
      change ((markLoadFailedKey group manager head).markLoadFailed group tail).copies group g slot ≤ _
      omega

/-- An overwrite leaves the slot condemned earlier without any owner. -/
theorem markLoadFailed_loses (keys : List Key) :
    ∀ {manager : SlabOffloadingManager Key groups} {loads : List (Key × Int)}, manager.Custody group loads →
      (∀ key ∈ keys, 0 < manager.readers key) → (∃ key ∈ keys, manager.Overwrites group key) →
        ∃ g slot, slot < manager.counts g ∧ (manager.markLoadFailed group keys).copies group g slot = 0 := by
  induction keys with
  | nil =>
      rintro manager loads _ _ ⟨key, inside, _⟩
      cases inside
  | cons head tail ih =>
      rintro manager loads custody read ⟨key, inside, bad⟩
      by_cases here : manager.Overwrites group head
      · obtain ⟨old, found⟩ := Option.ne_none_iff_exists'.mp here.2
        have account := markLoadFailedKey_copies group manager head (group head) old
        have lost : manager.forgotten group head (group head) old = 1 := by
          rw [forgotten, if_pos ⟨here.1, read head List.mem_cons_self⟩, found]
          simp [unit]
        have once := custody.once (group head) old
        have rest := markLoadFailed_copies_le group tail (markLoadFailedKey group manager head)
          (group head) old
        refine ⟨group head, old, ?_, ?_⟩
        · by_contra outside
          have := custody.within (group head) old (Nat.not_lt.mp outside)
          omega
        · change ((markLoadFailedKey group manager head).markLoadFailed group tail).copies _ _ _ = 0
          omega
      · have different : key ≠ head := fun same => here (same ▸ bad)
        have later : key ∈ tail := (List.mem_cons.mp inside).resolve_left different
        have kept := markLoadFailedKey_custody custody head
        have stillRead : ∀ other ∈ tail, 0 < (markLoadFailedKey group manager head).readers other := by
          intro other member
          rw [markLoadFailedKey_readers]
          exact read other (List.mem_cons_of_mem _ member)
        obtain ⟨g, slot, inRange, gone⟩ := ih kept stillRead
          ⟨key, later, markLoadFailedKey_overwrites.mpr ⟨different, bad⟩⟩
        have sameCounts : (markLoadFailedKey group manager head).counts = manager.counts := by
          unfold markLoadFailedKey
          repeat' split
          all_goals rfl
        exact ⟨g, slot, sameCounts ▸ inRange, gone⟩

theorem completeLoadKey_readers (manager : SlabOffloadingManager Key groups) (key other : Key) :
    (completeLoadKey group manager key).readers other =
      manager.readers other - if other = key then 1 else 0 := by
  unfold completeLoadKey
  split
  · rename_i last
    have erased : ((manager.inflightLoad.erase key).get? other).getD 0 =
        manager.readers other - if other = key then 1 else 0 := by
      rw [OrderedDict.get?_erase]
      split
      · rename_i same
        subst same
        rw [Option.getD_none]
        omega
      · rw [Nat.sub_zero]
        rfl
    split <;> exact erased
  · change ((manager.inflightLoad.set key (manager.readers key - 1)).get? other).getD 0 = _
    rw [OrderedDict.get?_set]
    split
    · rename_i same
      rw [same, Option.getD_some]
    · rw [Nat.sub_zero]
      rfl

theorem completeLoad_readers (keys : List Key) (manager : SlabOffloadingManager Key groups) (other : Key) :
    (manager.completeLoad group keys).readers other = manager.readers other - keys.count other := by
  induction keys generalizing manager with
  | nil => rfl
  | cons head tail ih =>
      change ((completeLoadKey group manager head).completeLoad group tail).readers other = _
      rw [ih, completeLoadKey_readers, List.count_cons, Nat.sub_sub, Nat.add_comm]
      congr 2
      by_cases same : other = head
      · simp [same]
      · have unequal : (head == other) = false := by simpa using Ne.symm same
        simp [same, unequal]

variable (group) in
theorem completeStore_frame (manager : SlabOffloadingManager Key groups) (keys : List Key) (success : Bool) :
    (manager.completeStore group keys success).counts = manager.counts ∧
      (manager.completeStore group keys success).inflightLoad = manager.inflightLoad ∧
      (manager.completeStore group keys success).condemned = manager.condemned := by
  refine ⟨foldl_keeps (·.counts) ?_ keys manager, foldl_keeps (·.inflightLoad) ?_ keys manager,
    foldl_keeps (·.condemned) ?_ keys manager⟩
  all_goals
    intro state key
    dsimp only [completeStoreKey]
    split
    · rfl
    · split <;> rfl

/-- A completed store leaves none of its keys in flight and no other key changed. -/
theorem completeStore_stored (keys : List Key) (success : Bool) (manager : SlabOffloadingManager Key groups)
    (other : Key) : (manager.completeStore group keys success).inflightStore.get? other =
      if other ∈ keys then none else manager.inflightStore.get? other := by
  induction keys generalizing manager with
  | nil => rfl
  | cons head tail ih =>
      have here : (completeStoreKey group success manager head).inflightStore.get? other =
          if other = head then none else manager.inflightStore.get? other := by
        unfold completeStoreKey
        split
        · rename_i absent
          split
          · rename_i same
            rw [same, absent]
          · rfl
        · dsimp only
          split <;> exact OrderedDict.get?_erase _ _ _
      change ((completeStoreKey group success manager head).completeStore group tail success).inflightStore.get?
        other = _
      rw [ih, here]
      by_cases first : other = head <;> by_cases later : other ∈ tail <;> simp [first, later]

theorem placeAll_stored (taken : List (Key × Nat)) (manager : SlabOffloadingManager Key groups) (other : Key)
    (present : (manager.placeAll taken).inflightStore.get? other ≠ none) :
    other ∈ taken.map Prod.fst ∨ manager.inflightStore.get? other ≠ none := by
  induction taken generalizing manager with
  | nil => exact .inr present
  | cons head tail ih =>
      rcases ih (manager.place head.1 head.2) present with later | here
      · exact .inl (List.mem_cons_of_mem _ later)
      · rw [place, OrderedDict.get?_set] at here
        split at here
        · rename_i same
          exact .inl (same ▸ List.mem_cons_self)
        · exact .inr here

theorem prepareLoad_readers (keys : List Key) (manager : SlabOffloadingManager Key groups) (other : Key) :
    (manager.prepareLoad group keys).2.readers other = manager.readers other + keys.count other := by
  change (keys.foldl addReader manager).readers other = _
  induction keys generalizing manager with
  | nil => rfl
  | cons head tail ih =>
      rw [List.foldl_cons, ih, readers_addReader, List.count_cons]
      by_cases same : other = head
      · simp only [same, beq_self_eq_true, if_true]
        omega
      · have unequal : (head == other) = false := by simpa using Ne.symm same
        simp [same, unequal]

variable (group) in
theorem prepareLoad_frame (manager : SlabOffloadingManager Key groups) (keys : List Key) :
    (manager.prepareLoad group keys).2.counts = manager.counts ∧
      (manager.prepareLoad group keys).2.condemned = manager.condemned ∧
      (manager.prepareLoad group keys).2.inflightStore = manager.inflightStore :=
  have step (state : SlabOffloadingManager Key groups) (key : Key) : (state.addReader key).counts = state.counts ∧
      (state.addReader key).condemned = state.condemned ∧
      (state.addReader key).inflightStore = state.inflightStore := ⟨rfl, rfl, rfl⟩
  ⟨foldl_keeps (·.counts) (fun state key => (step state key).1) keys manager,
    foldl_keeps (·.condemned) (fun state key => (step state key).2.1) keys manager,
    foldl_keeps (·.inflightStore) (fun state key => (step state key).2.2) keys manager⟩

variable (group) in
theorem completeLoad_frame (manager : SlabOffloadingManager Key groups) (keys : List Key) :
    (manager.completeLoad group keys).counts = manager.counts ∧
      (manager.completeLoad group keys).inflightStore = manager.inflightStore := by
  refine ⟨foldl_keeps (·.counts) ?_ keys manager, foldl_keeps (·.inflightStore) ?_ keys manager⟩
  all_goals
    intro state key
    dsimp only [completeLoadKey]
    repeat' split
    all_goals rfl

variable (group) in
theorem markLoadFailed_frame (manager : SlabOffloadingManager Key groups) (keys : List Key) :
    (manager.markLoadFailed group keys).counts = manager.counts ∧
      (manager.markLoadFailed group keys).inflightStore = manager.inflightStore ∧
      (manager.markLoadFailed group keys).inflightLoad = manager.inflightLoad := by
  refine ⟨foldl_keeps (·.counts) ?_ keys manager, foldl_keeps (·.inflightStore) ?_ keys manager,
    foldl_keeps (·.inflightLoad) ?_ keys manager⟩
  all_goals
    intro state key
    dsimp only [markLoadFailedKey]
    split
    · rfl
    · split <;> rfl

variable (group) in
/-- A lookup moves entries inside the index only. -/
theorem lookup_frame (manager : SlabOffloadingManager Key groups) (key : Key) :
    (∀ g slot, (manager.lookup group key).2.copies group g slot = manager.copies group g slot) ∧
      (manager.lookup group key).2.counts = manager.counts ∧
      (manager.lookup group key).2.inflightLoad = manager.inflightLoad ∧
      (manager.lookup group key).2.condemned = manager.condemned ∧
      (manager.lookup group key).2.inflightStore = manager.inflightStore := by
  unfold lookup
  split
  · refine ⟨fun g slot => ?_, rfl, rfl, rfl, rfl⟩
    simp only [copies, refresh_tally]
  · split <;> exact ⟨fun _ _ => rfl, rfl, rfl, rfl, rfl⟩

/-- Every condemned slot waits for a reader of its key. -/
def CondemnedRead (manager : SlabOffloadingManager Key groups) : Prop :=
  ∀ key, manager.condemned.get? key ≠ none → 0 < manager.readers key

theorem completeLoad_condemnedRead (keys : List Key) {manager : SlabOffloadingManager Key groups}
    (read : manager.CondemnedRead) : (manager.completeLoad group keys).CondemnedRead := by
  induction keys generalizing manager with
  | nil => exact read
  | cons head tail ih =>
      apply ih
      intro key present
      rw [completeLoadKey_readers]
      have before : manager.condemned.get? key ≠ none ∧ (key = head → 1 < manager.readers head) := by
        unfold completeLoadKey at present
        split at present
        · split at present
          · dsimp only at present
            rw [OrderedDict.get?_erase] at present
            split at present
            · exact absurd rfl present
            · rename_i different
              exact ⟨present, fun same => absurd same different⟩
          · rename_i none
            refine ⟨present, fun same => ?_⟩
            subst same
            exact absurd none present
        · rename_i more
          exact ⟨present, fun _ => Nat.lt_of_not_le more⟩
      have positive := read key before.1
      by_cases same : key = head
      · have many := before.2 same
        rw [if_pos same, same]
        omega
      · rw [if_neg same]
        omega

theorem markLoadFailed_condemnedRead (keys : List Key) {manager : SlabOffloadingManager Key groups}
    (read : manager.CondemnedRead) : (manager.markLoadFailed group keys).CondemnedRead := by
  induction keys generalizing manager with
  | nil => exact read
  | cons head tail ih =>
      apply ih
      intro key present
      rw [markLoadFailedKey_readers]
      by_cases same : key = head
      · subst same
        unfold markLoadFailedKey at present
        split at present
        · exact read key present
        · dsimp only at present
          split at present
          · rename_i positive
            exact positive
          · exact read key present
      · rw [markLoadFailedKey_condemned manager same] at present
        exact read key present

end SlabOffloadingManager

namespace Desk

variable (group) in
/-- The desk accounts for every slot, every reader and every store in flight. -/
structure Complete (desk : Desk Key groups) : Prop where
  full : ∀ g slot, slot < desk.manager.counts g → desk.manager.copies group g slot = 1
  exactReaders : ∀ key, desk.manager.readers key = (desk.loads.flatten.map Prod.fst).count key
  condemnedRead : desk.manager.CondemnedRead
  booked : ∀ key, desk.manager.inflightStore.get? key ≠ none → key ∈ desk.stores.flatten

variable (group) in
/-- A failed load is clean when none of its keys has a second slot that is still read. -/
def Clean (desk : Desk Key groups) : Call Key → Prop
  | .markLoadFailed _ keys => ∀ key ∈ keys, ¬desk.manager.Overwrites group key
  | _ => True

theorem opened_complete (counts : Fin groups → Nat) (epoch : Int)
    (header : Fin groups → Nat → Option (Nat × Key)) :
    (opened counts epoch header).Complete group where
  full g slot inRange := (attach_copies group counts epoch header g slot).trans (if_pos inRange)
  exactReaders _ := rfl
  condemnedRead _ present := absurd rfl present
  booked _ present := absurd rfl present

theorem step_complete (desk : Desk Key groups) (call : Call Key) (next : Desk Key groups)
    (sound : desk.Sound group) (complete : desk.Complete group)
    (clean : desk.Clean group call) (taken : step group desk call = some next) :
    next.Complete group := by
  obtain ⟨full, exactReaders, condemnedRead, booked⟩ := complete
  cases step_cases taken with
  | lookup key =>
      obtain ⟨account, counts, read, condemned, stored⟩ := lookup_frame group desk.manager key
      refine ⟨fun g slot inRange => (account g slot).trans (full g slot (counts ▸ inRange)), ?_, ?_, ?_⟩
      · intro other
        rw [readers, read]
        exact exactReaders other
      · intro other present
        rw [readers, read]
        exact condemnedRead other (condemned ▸ present)
      · exact fun other present => booked other (stored ▸ present)
  | touch keys =>
      refine ⟨fun g slot inRange => ?_, exactReaders, condemnedRead, booked⟩
      have account : (desk.manager.touch group keys).copies group g slot = desk.manager.copies group g slot := by
        simp only [copies, touch, refresh_tally]
      exact account.trans (full g slot inRange)
  | storeRetry keys same => exact ⟨full, exactReaders, condemnedRead, booked⟩
  | store keys output next same =>
      have account := (prepareStore_custody sound keys).2
      rcases prepareStore_cases group desk.manager keys with other |
          ⟨pairs, evicted, last, _, _, done, other⟩
      · rw [other] at same
        cases same
      · rw [other] at account same
        simp only [Prod.mk.injEq, StoreAnswer.store.injEq] at same
        obtain ⟨rfl, rfl⟩ := same
        obtain ⟨frame, -⟩ := takeSlots_frame _ done
        refine ⟨fun g slot inRange => ?_, ?_, ?_, ?_⟩
        · exact (account g slot).trans (full g slot (frame.counts ▸ inRange))
        · intro key
          change ((last.inflightLoad).get? key).getD 0 = _
          rw [frame.read]
          exact exactReaders key
        · intro key present
          change 0 < ((last.inflightLoad).get? key).getD 0
          change last.condemned.get? key ≠ none at present
          rw [frame.read]
          exact condemnedRead key (frame.condemned ▸ present)
        · intro key present
          rw [List.flatten_append, List.flatten_singleton, List.mem_append]
          rcases placeAll_stored pairs last key present with named | before
          · exact .inr named
          · exact .inl (booked key (frame.stored ▸ before))
  | completeStore job keys success named opened names =>
      obtain ⟨counts, read, condemned⟩ := completeStore_frame group desk.manager keys success
      have account := (completeStore_custody success keys sound).2
      refine ⟨fun g slot inRange => (account g slot).trans (full g slot (counts ▸ inRange)), ?_, ?_, ?_⟩
      · intro other
        rw [readers, read]
        exact exactReaders other
      · intro other present
        rw [readers, read]
        exact condemnedRead other (condemned ▸ present)
      · intro other present
        rw [completeStore_stored] at present
        split at present
        · exact absurd rfl present
        · rename_i unnamed
          have before := (flatten_eraseIdx opened).symm.mem_iff.mp (booked other present)
          rw [List.mem_append] at before
          exact before.resolve_left fun inside => unnamed (names.mem_iff.mpr inside)
  | load keys =>
      obtain ⟨counts, condemned, stored⟩ := prepareLoad_frame group desk.manager keys
      have account := (prepareLoad_custody keys sound).2
      refine ⟨fun g slot inRange => (account g slot).trans (full g slot (counts ▸ inRange)), ?_, ?_, ?_⟩
      · intro other
        rw [prepareLoad_readers, exactReaders, List.flatten_append, List.flatten_singleton, List.map_append,
          List.count_append, List.map_map]
        congr 2
        exact (List.map_id keys).symm
      · intro other present
        rw [prepareLoad_readers]
        have := condemnedRead other (condemned ▸ present)
        omega
      · exact fun other present => booked other (stored ▸ present)
  | completeLoad job keys named opened names =>
      obtain ⟨counts, stored⟩ := completeLoad_frame group desk.manager keys
      refine ⟨fun g slot inRange => (completeLoad_copies keys desk.manager g slot).trans
        (full g slot (counts ▸ inRange)), ?_, completeLoad_condemnedRead keys condemnedRead,
        fun other present => booked other (stored ▸ present)⟩
      intro other
      have split := ((flatten_eraseIdx opened).map Prod.fst).count_eq other
      rw [List.map_append, List.count_append] at split
      rw [completeLoad_readers, exactReaders, names.count_eq, ← split]
      exact Nat.add_sub_cancel_left _ _
  | markStoreFailed job keys => exact ⟨full, exactReaders, condemnedRead, booked⟩
  | markLoadFailed job keys named opened names =>
      obtain ⟨counts, stored, read⟩ := markLoadFailed_frame group desk.manager keys
      refine ⟨fun g slot inRange => (markLoadFailed_copies keys clean g slot).trans
        (full g slot (counts ▸ inRange)), ?_, markLoadFailed_condemnedRead keys condemnedRead,
        fun other present => booked other (stored ▸ present)⟩
      intro other
      rw [readers, read]
      exact exactReaders other
  | resetCache =>
      exact ⟨fun g slot inRange => (resetCache_copies desk.manager g slot).trans (if_pos inRange), fun _ => rfl,
        fun _ present => absurd rfl present, fun _ present => absurd rfl present⟩

variable (group) in
/-- No slot is lost, and a desk without jobs has every slot free or indexed. -/
def NothingLost (desk : Desk Key groups) : Prop :=
  (∀ g slot, slot < desk.manager.counts g → slot ∈ desk.manager.held group g) ∧
    (desk.stores = [] → desk.loads = [] →
      (∀ g, (desk.manager.free g).length + (desk.manager.index g).entries.length = desk.manager.counts g) ∧
        desk.manager.condemned.entries = [])

theorem entries_nil_of_get? {Value : Type} {dict : OrderedDict Key Value}
    (none : ∀ key, dict.get? key = none) : dict.entries = [] := by
  rw [List.eq_nil_iff_forall_not_mem]
  rintro ⟨key, value⟩ inside
  have found := OrderedDict.get?_eq_some_iff.mpr inside
  rw [none] at found
  cases found

theorem nothingLost_of_complete {desk : Desk Key groups} (sound : desk.Sound group)
    (complete : desk.Complete group) : desk.NothingLost group := by
  constructor
  · intro g slot inRange
    rw [mem_held_iff, complete.full g slot inRange]
    exact Nat.one_pos
  · intro noStore noLoad
    have idle (key : Key) : desk.manager.readers key = 0 := by
      rw [complete.exactReaders, noLoad]
      rfl
    have uncondemned : desk.manager.condemned.entries = [] := by
      apply entries_nil_of_get?
      intro key
      by_contra present
      have := complete.condemnedRead key present
      rw [idle] at this
      omega
    have unstored : desk.manager.inflightStore.entries = [] := by
      apply entries_nil_of_get?
      intro key
      by_contra present
      have := complete.booked key present
      rw [noStore] at this
      cases this
    refine ⟨fun g => ?_, uncondemned⟩
    -- The holders of the group are exactly its slots, each once.
    have held : desk.manager.held group g = desk.manager.free g ++ (desk.manager.index g).values := by
      simp [SlabOffloadingManager.held, slotsOf, unstored, uncondemned]
    have all : (desk.manager.held group g).Perm (List.range (desk.manager.counts g)) := by
      rw [List.perm_ext_iff_of_nodup ((held_nodup_iff group _ g).mpr (sound.once g)) List.nodup_range]
      intro slot
      rw [List.mem_range, mem_held_iff]
      constructor
      · intro positive
        by_contra outside
        have := sound.within g slot (Nat.not_lt.mp outside)
        omega
      · intro inRange
        rw [complete.full g slot inRange]
        exact Nat.one_pos
    have size := all.length_eq
    rw [held, List.length_append, List.length_range, OrderedDict.values, List.length_map] at size
    exact size

/-- A call that is not clean loses a slot at once. -/
theorem lost_of_not_clean {desk next : Desk Key groups} {call : Call Key} (sound : desk.Sound group)
    (unclean : ¬desk.Clean group call) (taken : step group desk call = some next) : ¬next.NothingLost group := by
  intro kept
  cases step_cases taken with
  | markLoadFailed job keys named opened names =>
      have bad : ∃ key ∈ keys, desk.manager.Overwrites group key := by
        simpa [Clean] using unclean
      have read : ∀ key ∈ keys, 0 < desk.manager.readers key := by
        intro key inside
        have waiting : key ∈ desk.loads.flatten.map Prod.fst :=
          ((flatten_eraseIdx opened).map Prod.fst).subset
            (by rw [List.map_append]; exact List.mem_append_left _ (names.subset inside))
        exact Nat.lt_of_lt_of_le (List.count_pos_iff.mpr waiting) (sound.covered key)
      obtain ⟨g, slot, inRange, gone⟩ := markLoadFailed_loses keys sound read bad
      obtain ⟨counts, -, -⟩ := markLoadFailed_frame group desk.manager keys
      have present := (mem_held_iff group _ g slot).mp (kept.1 g slot (counts ▸ inRange))
      dsimp only at present
      omega
  | _ => exact unclean trivial

/-- A run of an attached manager loses no slot in any of its states exactly when every failure mark of the
run is clean: no key of the mark is indexed while an older slot of that key is still condemned. -/
theorem no_slot_lost_iff (counts : Fin groups → Nat) (epoch : Int)
    (header : Fin groups → Nat → Option (Nat × Key)) (calls : List (Call Key)) (desk : Desk Key groups)
    (reached : Run.run (step group) (opened counts epoch header) calls = some desk) :
    (∀ before state, before <+: calls → Run.run (step group) (opened counts epoch header) before = some state →
        state.NothingLost group) ↔
      Run.Meets (step group) (Clean group) (opened counts epoch header) calls := by
  refine Run.always_iff_meets (fun state : Desk Key groups => state.Sound group ∧ state.Complete group)
    ?_ ?_ ?_ ⟨opened_sound counts epoch header, opened_complete counts epoch header⟩ reached
  · exact fun state call next both clean taken =>
      ⟨step_sound state call next both.1 taken, step_complete state call next both.1 both.2 clean taken⟩
  · exact fun state both => nothingLost_of_complete both.1 both.2
  · exact fun state call next both unclean taken => lost_of_not_clean both.1 unclean taken

/-- A key fails, is stored in a second slot, and fails there while its first load is still open. -/
def failedTwice : List (Call Nat) :=
  storedAgain ++ [.completeStore 0 [7] true, .prepareLoad [7], .markLoadFailed 1 [7],
    .completeLoad 0 [7], .completeLoad 0 [7]]

/-- After the second failure slot 0 is nowhere, and it stays lost when every job has completed. -/
theorem slot_lost_failedTwice :
    ∃ desk, Run.run (step loneGroup) (opened (fun _ => 2) 0 fun _ _ => none) failedTwice = some desk ∧
      desk.stores = [] ∧ desk.loads = [] ∧ desk.manager.counts 0 = 2 ∧ desk.manager.free 0 = [1] ∧
      (desk.manager.index 0).entries = [] ∧ ¬desk.NothingLost loneGroup := by
  refine ⟨_, rfl, rfl, rfl, rfl, rfl, rfl, ?_⟩
  intro kept
  exact absurd ((kept.2 rfl rfl).1 0) (by decide)

theorem no_slot_lost_iff_storedAgain :
    (∀ before state, before <+: storedAgain →
        Run.run (step loneGroup) (opened (fun _ => 2) 0 fun _ _ => none) before = some state →
          state.NothingLost loneGroup) ↔
      Run.Meets (step loneGroup) (Clean loneGroup) (opened (fun _ => 2) 0 fun _ _ => none) storedAgain :=
  no_slot_lost_iff (fun _ => 2) 0 (fun _ _ => none) storedAgain _ rfl

end Desk

end DgxSpark.Slab

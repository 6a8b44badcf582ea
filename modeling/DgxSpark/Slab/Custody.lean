import DgxSpark.Slab.SlotAccount

namespace DgxSpark.Slab.SlabOffloadingManager

variable {Key : Type} [DecidableEq Key] {groups : Nat} (group : Key → Fin groups)

/-- A slot that a load of this key may read is free nowhere and held under no other key. -/
structure Guarded (manager : SlabOffloadingManager Key groups) (key : Key) (slot : Nat) : Prop where
  notFree : slot ∉ manager.free (group key)
  notStored : ∀ other, group other = group key → manager.inflightStore.get? other ≠ some slot
  indexedHere : ∀ other, (manager.index (group key)).get? other = some slot → other = key
  condemnedHere : ∀ other, group other = group key → manager.condemned.get? other = some slot → other = key

/-- The invariant of the manager against the loads that were prepared and not completed. -/
structure Custody (manager : SlabOffloadingManager Key groups) (loads : List (Key × Int)) : Prop where
  once : ∀ g slot, manager.copies group g slot ≤ 1
  within : ∀ g slot, manager.counts g ≤ slot → manager.copies group g slot = 0
  apart : ∀ key, key ∈ manager.inflightStore.keys → (manager.index (group key)).get? key = none
  covered : ∀ key, (loads.map Prod.fst).count key ≤ manager.readers key
  guarded : ∀ key (slot : Nat), (key, (slot : Int)) ∈ loads → manager.Guarded group key slot

variable {group}

/-- Forgetting a load keeps the invariant. -/
theorem Custody.mono {manager : SlabOffloadingManager Key groups} {loads fewer : List (Key × Int)}
    (custody : manager.Custody group loads) (sub : fewer.Subperm loads) : manager.Custody group fewer where
  once := custody.once
  within := custody.within
  apart := custody.apart
  covered key := by
    obtain ⟨middle, perm, sublist⟩ := sub
    rw [← (perm.map Prod.fst).count_eq]
    exact ((sublist.map Prod.fst).count_le key).trans (custody.covered key)
  guarded key slot inside := custody.guarded key slot (sub.subset inside)

/-- Reordering the indexes keeps the invariant. -/
theorem Custody.reindex {manager : SlabOffloadingManager Key groups} {loads : List (Key × Int)}
    (custody : manager.Custody group loads) (index : Fin groups → OrderedDict Key Nat)
    (sameEntries : ∀ g key, (index g).get? key = (manager.index g).get? key)
    (sameTally : ∀ g test, (index g).tally test = (manager.index g).tally test) :
    ({ manager with index := index } : SlabOffloadingManager Key groups).Custody group loads where
  once g slot := by simpa only [copies, sameTally] using custody.once g slot
  within g slot outside := by simpa only [copies, sameTally] using custody.within g slot outside
  apart key inside := (sameEntries _ _).trans (custody.apart key inside)
  covered := custody.covered
  guarded key slot inside :=
    have old := custody.guarded key slot inside
    { notFree := old.notFree
      notStored := old.notStored
      indexedHere := fun other found => old.indexedHere other ((sameEntries _ _).symm.trans found)
      condemnedHere := old.condemnedHere }

/-- The invariant reads only the fields that place slots and count readers. -/
theorem Custody.congr {manager other : SlabOffloadingManager Key groups} {loads : List (Key × Int)}
    (custody : manager.Custody group loads) (counts : other.counts = manager.counts)
    (index : other.index = manager.index) (free : other.free = manager.free)
    (stored : other.inflightStore = manager.inflightStore) (read : other.inflightLoad = manager.inflightLoad)
    (condemned : other.condemned = manager.condemned) : other.Custody group loads := by
  have sameCopies (g : Fin groups) (slot : Nat) : other.copies group g slot = manager.copies group g slot := by
    rw [copies, copies, index, free, stored, condemned]
  constructor
  · intro g slot
    rw [sameCopies]
    exact custody.once g slot
  · intro g slot
    rw [sameCopies, counts]
    exact custody.within g slot
  · intro key
    rw [stored, index]
    exact custody.apart key
  · intro key
    rw [readers, read]
    exact custody.covered key
  · intro key slot inside
    have old := custody.guarded key slot inside
    exact ⟨free ▸ old.notFree, stored ▸ old.notStored, index ▸ old.indexedHere, condemned ▸ old.condemnedHere⟩

theorem lookup_custody {manager : SlabOffloadingManager Key groups} {loads : List (Key × Int)}
    (custody : manager.Custody group loads) (key : Key) : (manager.lookup group key).2.Custody group loads := by
  unfold lookup
  split
  · exact (custody.reindex _
      (refresh_get? group manager.index (key :: (manager.siblings.get? key).getD []))
      (refresh_tally group manager.index (key :: (manager.siblings.get? key).getD []))).congr
        rfl rfl rfl rfl rfl rfl
  · split
    · exact custody
    · exact custody.congr rfl rfl rfl rfl rfl rfl

theorem touch_custody {manager : SlabOffloadingManager Key groups} {loads : List (Key × Int)}
    (custody : manager.Custody group loads) (keys : List Key) : (manager.touch group keys).Custody group loads :=
  custody.reindex _ (refresh_get? group manager.index keys) (refresh_tally group manager.index keys)

theorem markStoreFailed_custody {manager : SlabOffloadingManager Key groups} {loads : List (Key × Int)}
    (custody : manager.Custody group loads) (keys : List Key) :
    (manager.markStoreFailed keys).Custody group loads :=
  custody.congr rfl rfl rfl rfl rfl rfl

/-- A taken slot changes neither the reader counts nor the slots held outside the index and free list. -/
structure TakeFrame (manager next : SlabOffloadingManager Key groups) : Prop where
  counts : next.counts = manager.counts
  stored : next.inflightStore = manager.inflightStore
  read : next.inflightLoad = manager.inflightLoad
  condemned : next.condemned = manager.condemned
  failed : next.failedStore = manager.failedStore
  seq : next.seq = manager.seq
  epoch : next.epoch = manager.epoch
  free : ∀ g slot, slot ∈ next.free g → slot ∈ manager.free g
  index : ∀ g key slot, (next.index g).get? key = some slot → (manager.index g).get? key = some slot

theorem takeSlot_frame {manager next : SlabOffloadingManager Key groups} {changed : Fin groups}
    {protect : List Key} {slot : Nat} {evicted : List Key}
    (taken : manager.takeSlot changed protect = some (slot, evicted, next)) : TakeFrame manager next := by
  rcases takeSlot_cases taken with ⟨rest, available, _, rfl⟩ | ⟨gone, _, _, found, _, rfl⟩
  · refine ⟨rfl, rfl, rfl, rfl, rfl, rfl, rfl, ?_, fun _ _ _ found => found⟩
    intro g value inside
    by_cases same : g = changed
    · subst same
      dsimp only at inside
      rw [Function.update_self] at inside
      rw [available]
      exact List.mem_cons_of_mem _ inside
    · dsimp only at inside
      rwa [Function.update_of_ne same] at inside
  · refine ⟨rfl, rfl, rfl, rfl, rfl, rfl, rfl, fun _ _ inside => inside, ?_⟩
    intro g key value present
    by_cases same : g = changed
    · subst same
      dsimp only at present
      rw [Function.update_self, OrderedDict.get?_erase] at present
      split at present
      · cases present
      · exact present
    · dsimp only at present
      rwa [Function.update_of_ne same] at present

/-- A slot that a load may read is never taken: it is not free, and its entry has a reader. -/
theorem takeSlot_unread {manager next : SlabOffloadingManager Key groups} {loads : List (Key × Int)}
    (custody : manager.Custody group loads) {changed : Fin groups} {protect evicted : List Key} {slot : Nat}
    (taken : manager.takeSlot changed protect = some (slot, evicted, next)) {reader : Key}
    (sameGroup : group reader = changed) : (reader, (slot : Int)) ∉ loads := by
  intro inside
  have guard := custody.guarded reader slot inside
  rcases takeSlot_cases taken with ⟨rest, available, _, _⟩ | ⟨gone, _, _, found, allowed, _⟩
  · exact guard.notFree (by rw [sameGroup, available]; exact List.mem_cons_self)
  · have owner := guard.indexedHere gone (sameGroup ▸ found)
    have waiting : 0 < (loads.map Prod.fst).count reader :=
      List.count_pos_iff.mpr (List.mem_map.mpr ⟨_, inside, rfl⟩)
    have enough := custody.covered reader
    simp only [mayEvict, owner, Bool.and_eq_true, beq_iff_eq] at allowed
    omega

/-- A slot taken and placed only changes its holder. -/
theorem takeSlot_place_copies {manager next : SlabOffloadingManager Key groups} {key : Key}
    {protect evicted : List Key} {value : Nat} (notStored : manager.inflightStore.get? key = none)
    (taken : manager.takeSlot (group key) protect = some (value, evicted, next)) (g : Fin groups) (slot : Nat) :
    (next.place key value).copies group g slot = manager.copies group g slot := by
  rw [place_copies group next ((takeSlot_frame taken).stored ▸ notStored), takeSlot_copies group taken]

/-- One slot taken for a new key and placed under it keeps the invariant. -/
theorem takeSlot_custody {manager next : SlabOffloadingManager Key groups} {loads : List (Key × Int)}
    (custody : manager.Custody group loads) {key : Key} {protect evicted : List Key} {slot : Nat}
    (notIndexed : (manager.index (group key)).get? key = none)
    (notStored : manager.inflightStore.get? key = none)
    (taken : manager.takeSlot (group key) protect = some (slot, evicted, next)) :
    (next.place key slot).Custody group loads := by
  have frame := takeSlot_frame taken
  have whole := takeSlot_place_copies notStored taken
  have stillAbsent (g : Fin groups) (other : Key) (absent : (manager.index g).get? other = none) :
      (next.index g).get? other = none := by
    rw [Option.eq_none_iff_forall_ne_some] at absent ⊢
    intro value found
    exact absent value (frame.index g other value found)
  constructor
  · intro g s
    rw [whole]
    exact custody.once g s
  · intro g s outside
    rw [whole]
    exact custody.within g s (frame.counts ▸ outside)
  · intro other inside
    apply stillAbsent
    obtain ⟨value, found⟩ := OrderedDict.mem_keys_iff.mp inside
    rw [place, frame.stored] at found
    by_cases same : other = key
    · exact same ▸ notIndexed
    · rw [OrderedDict.get?_set_of_ne _ _ same] at found
      exact custody.apart other (OrderedDict.mem_keys_iff.mpr ⟨value, found⟩)
  · intro other
    rw [readers, place, frame.read]
    exact custody.covered other
  · intro reader value inside
    have old := custody.guarded reader value inside
    constructor
    · exact fun present => old.notFree (frame.free _ _ present)
    · intro other sameGroup found
      rw [place, frame.stored, OrderedDict.get?_set] at found
      split at found
      · rename_i same
        subst same
        obtain rfl := Option.some.inj found
        exact takeSlot_unread custody taken sameGroup.symm inside
      · exact old.notStored other sameGroup found
    · exact fun other found => old.indexedHere other (frame.index _ _ _ found)
    · intro other sameGroup found
      rw [place, frame.condemned] at found
      exact old.condemnedHere other sameGroup found

/-- Taking a slot does not look at the stores in flight. -/
theorem takeSlot_place {manager next : SlabOffloadingManager Key groups} {g : Fin groups} {protect : List Key}
    {slot : Nat} {evicted : List Key} (key : Key) (value : Nat)
    (taken : manager.takeSlot g protect = some (slot, evicted, next)) :
    (manager.place key value).takeSlot g protect = some (slot, evicted, next.place key value) := by
  unfold takeSlot at taken ⊢
  have sameFree : (manager.place key value).free g = manager.free g := rfl
  have sameIndex : (manager.place key value).index g = manager.index g := rfl
  have sameTest : (manager.place key value).mayEvict protect = manager.mayEvict protect := rfl
  rw [sameFree, sameIndex, sameTest]
  split at taken
  · simp only [Option.some.injEq, Prod.mk.injEq] at taken
    obtain ⟨rfl, rfl, rfl⟩ := taken
    rfl
  · split at taken
    · simp only [Option.some.injEq, Prod.mk.injEq] at taken
      obtain ⟨rfl, rfl, rfl⟩ := taken
      rfl
    · cases taken

theorem takeSlots_place {protect : List Key} (key : Key) (value : Nat) (keys : List Key) :
    ∀ {manager next : SlabOffloadingManager Key groups} {taken : List (Key × Nat)} {evicted : List Key},
      takeSlots group protect keys manager = some (taken, evicted, next) →
        takeSlots group protect keys (manager.place key value) = some (taken, evicted, next.place key value) := by
  induction keys with
  | nil =>
      intro manager next taken evicted done
      simp only [takeSlots, Option.some.injEq, Prod.mk.injEq] at done ⊢
      obtain ⟨rfl, rfl, rfl⟩ := done
      exact ⟨rfl, rfl, rfl⟩
  | cons head tail ih =>
      intro manager next taken evicted done
      simp only [takeSlots, Option.bind_eq_some_iff, Option.map_eq_some_iff, Prod.exists, Prod.mk.injEq] at done
      obtain ⟨slot, first, middle, here, rest, later, last, there, rfl, rfl, rfl⟩ := done
      simp only [takeSlots, takeSlot_place key value here, Option.bind_some, ih there, Option.map_some]

/-- The slots of a whole call, placed under their keys. -/
def placeAll (manager : SlabOffloadingManager Key groups) (taken : List (Key × Nat)) :
    SlabOffloadingManager Key groups :=
  { manager with inflightStore := taken.foldl (fun dict pair => dict.set pair.1 pair.2) manager.inflightStore }

theorem TakeFrame.trans {first second third : SlabOffloadingManager Key groups}
    (early : TakeFrame first second) (late : TakeFrame second third) : TakeFrame first third where
  counts := late.counts.trans early.counts
  stored := late.stored.trans early.stored
  read := late.read.trans early.read
  condemned := late.condemned.trans early.condemned
  failed := late.failed.trans early.failed
  seq := late.seq.trans early.seq
  epoch := late.epoch.trans early.epoch
  free g slot inside := early.free g slot (late.free g slot inside)
  index g key slot found := early.index g key slot (late.index g key slot found)

theorem takeSlots_frame {protect : List Key} (keys : List Key) :
    ∀ {manager next : SlabOffloadingManager Key groups} {taken : List (Key × Nat)} {evicted : List Key},
      takeSlots group protect keys manager = some (taken, evicted, next) →
        TakeFrame manager next ∧ taken.map Prod.fst = keys := by
  induction keys with
  | nil =>
      intro manager next taken evicted done
      simp only [takeSlots, Option.some.injEq, Prod.mk.injEq] at done
      obtain ⟨rfl, rfl, rfl⟩ := done
      exact ⟨⟨rfl, rfl, rfl, rfl, rfl, rfl, rfl, fun _ _ inside => inside, fun _ _ _ found => found⟩, rfl⟩
  | cons head tail ih =>
      intro manager next taken evicted done
      simp only [takeSlots, Option.bind_eq_some_iff, Option.map_eq_some_iff, Prod.exists, Prod.mk.injEq] at done
      obtain ⟨slot, first, middle, here, rest, later, last, there, rfl, rfl, rfl⟩ := done
      obtain ⟨frame, named⟩ := ih there
      exact ⟨(takeSlot_frame here).trans frame, by rw [List.map_cons, named]⟩

/-- The slots of a whole call keep the invariant and the account once they are placed. -/
theorem takeSlots_custody {loads : List (Key × Int)} {protect : List Key} (keys : List Key) :
    ∀ {manager next : SlabOffloadingManager Key groups} {taken : List (Key × Nat)} {evicted : List Key},
      manager.Custody group loads → keys.Nodup →
      (∀ key ∈ keys, (manager.index (group key)).get? key = none ∧ manager.inflightStore.get? key = none) →
      takeSlots group protect keys manager = some (taken, evicted, next) →
        (next.placeAll taken).Custody group loads ∧
          ∀ g slot, (next.placeAll taken).copies group g slot = manager.copies group g slot := by
  induction keys with
  | nil =>
      intro manager next taken evicted custody _ _ done
      simp only [takeSlots, Option.some.injEq, Prod.mk.injEq] at done
      obtain ⟨rfl, rfl, rfl⟩ := done
      exact ⟨custody, fun _ _ => rfl⟩
  | cons head tail ih =>
      intro manager next taken evicted custody nodup fresh done
      simp only [takeSlots, Option.bind_eq_some_iff, Option.map_eq_some_iff, Prod.exists, Prod.mk.injEq] at done
      obtain ⟨slot, first, middle, here, rest, later, last, there, rfl, rfl, rfl⟩ := done
      rw [List.nodup_cons] at nodup
      have frame := takeSlot_frame here
      obtain ⟨notIndexed, notStored⟩ := fresh head List.mem_cons_self
      have placed := takeSlot_custody custody notIndexed notStored here
      have stillFresh : ∀ key ∈ tail, ((middle.place head slot).index (group key)).get? key = none ∧
          (middle.place head slot).inflightStore.get? key = none := by
        intro key inside
        obtain ⟨absent, idle⟩ := fresh key (List.mem_cons_of_mem _ inside)
        constructor
        · rw [Option.eq_none_iff_forall_ne_some] at absent ⊢
          exact fun value found => absent value (frame.index _ _ _ found)
        · have different : key ≠ head := fun same => nodup.1 (same ▸ inside)
          rw [place, OrderedDict.get?_set_of_ne _ _ different, frame.stored]
          exact idle
      obtain ⟨kept, account⟩ := ih placed nodup.2 stillFresh (takeSlots_place head slot tail there)
      exact ⟨kept, fun g s => (account g s).trans (takeSlot_place_copies notStored here g s)⟩

end DgxSpark.Slab.SlabOffloadingManager

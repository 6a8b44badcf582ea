import DgxSpark.Slab.Desk

/-
This file shows what one `prepare_store` takes: the preflight decides for all groups at once, and the slots then
come from the free lists first and from the oldest entries that may be evicted after that.
-/

namespace DgxSpark.Slab.SlabOffloadingManager

variable {Key : Type} [DecidableEq Key] {groups : Nat} {group : Key → Fin groups}

/-- The entries of a group that a call may evict, oldest first. -/
def eligible (manager : SlabOffloadingManager Key groups) (g : Fin groups) (protect : List Key) : List (Key × Nat) :=
  (manager.index g).entries.filter fun entry => manager.mayEvict protect entry.1

theorem evictable_eq_length (manager : SlabOffloadingManager Key groups) (g : Fin groups) (protect : List Key) :
    manager.evictable g protect = (manager.eligible g protect).length := by
  rw [evictable_eq, OrderedDict.tally, List.countP_eq_length_filter, eligible]

/-- Without its oldest eligible entry an index keeps the other eligible entries in order. -/
theorem filter_erase_head {index : OrderedDict Key Nat} {test : Key × Nat → Bool} {key : Key} {slot : Nat}
    {rest : List (Key × Nat)} (split : index.entries.filter test = (key, slot) :: rest) :
    (index.erase key).entries.filter test = rest := by
  have distinct : ((index.entries.filter test).map Prod.fst).Nodup :=
    index.nodup.sublist (List.filter_sublist.map Prod.fst)
  rw [split, List.map_cons, List.nodup_cons] at distinct
  show (index.entries.filter fun entry => entry.1 ≠ key).filter test = rest
  rw [List.filter_comm, split, List.filter_cons_of_neg (by simp), List.filter_eq_self]
  intro entry inside
  rw [decide_eq_true_eq]
  intro same
  exact distinct.1 (List.mem_map.mpr ⟨entry, inside, same⟩)

/-- The free list of a group gives its first slot; the oldest eligible entry gives one when the list is empty. -/
theorem takeSlot_takes {manager next : SlabOffloadingManager Key groups} {changed : Fin groups} {protect : List Key}
    {slot : Nat} {evicted : List Key} (taken : manager.takeSlot changed protect = some (slot, evicted, next)) :
    (∃ rest, manager.free changed = slot :: rest ∧ evicted = [] ∧ next.free = Function.update manager.free changed rest ∧
      ∀ g, next.eligible g protect = manager.eligible g protect) ∨
    ∃ key rest, manager.free changed = [] ∧ evicted = [key] ∧ next.free = manager.free ∧
      manager.eligible changed protect = (key, slot) :: rest ∧
      ∀ g, next.eligible g protect = if g = changed then rest else manager.eligible g protect := by
  unfold takeSlot at taken
  split at taken
  · rename_i first rest available
    simp only [Option.some.injEq, Prod.mk.injEq] at taken
    obtain ⟨rfl, rfl, rfl⟩ := taken
    exact .inl ⟨rest, available, rfl, rfl, fun _ => rfl⟩
  · rename_i exhausted
    split at taken
    · rename_i key oldest found
      simp only [Option.some.injEq, Prod.mk.injEq] at taken
      obtain ⟨rfl, rfl, rfl⟩ := taken
      rw [← List.head?_filter] at found
      obtain ⟨rest, split⟩ := List.head?_eq_some_iff.mp found
      refine .inr ⟨key, rest, exhausted, rfl, rfl, split, ?_⟩
      intro g
      show (Function.update manager.index changed _ g).entries.filter _ = _
      by_cases same : g = changed
      · subst same
        rw [Function.update_self, if_pos rfl]
        exact filter_erase_head split
      · rw [Function.update_of_ne same, if_neg same]
        rfl
    · cases taken

variable (group) in
/-- The slots that the keys of a group were given, in key order. -/
def slotsGiven (taken : List (Key × Nat)) (g : Fin groups) : List Nat :=
  (taken.filter fun pair => group pair.1 == g).map Prod.snd

/-- The entries that a group loses to a call: the oldest eligible ones, past its free slots. -/
def lost (manager : SlabOffloadingManager Key groups) (g : Fin groups) (protect : List Key) (needed : Nat) :
    List (Key × Nat) :=
  (manager.eligible g protect).take (needed - (manager.free g).length)

/-- The evicted keys with the groups that lost them. -/
def Evicts (protect : List Key) (manager : SlabOffloadingManager Key groups) (needed : Fin groups → Nat)
    (evicted : List Key) : Prop :=
  ∃ losers : List (Fin groups), losers.length = evicted.length ∧
    ∀ g, ((losers.zip evicted).filter fun pair => pair.1 == g).map Prod.snd =
      (manager.lost g protect (needed g)).map Prod.fst

/-- A whole call takes the free slots of each group first, and the slots of its oldest eligible entries after. -/
theorem takeSlots_takes {protect : List Key} (keys : List Key) :
    ∀ {manager next : SlabOffloadingManager Key groups} {taken : List (Key × Nat)} {evicted : List Key},
      takeSlots group protect keys manager = some (taken, evicted, next) →
        (∀ g, slotsGiven group taken g = (manager.free g).take (need group keys g) ++
          (manager.lost g protect (need group keys g)).map Prod.snd) ∧
        Evicts protect manager (need group keys) evicted := by
  induction keys with
  | nil =>
      intro manager next taken evicted done
      simp only [takeSlots, Option.some.injEq, Prod.mk.injEq] at done
      obtain ⟨rfl, rfl, rfl⟩ := done
      refine ⟨fun g => ?_, [], rfl, fun g => ?_⟩
      · simp [slotsGiven, need, lost]
      · simp [need, lost]
  | cons head tail ih =>
      intro manager next taken evicted done
      simp only [takeSlots, Option.bind_eq_some_iff, Option.map_eq_some_iff, Prod.exists, Prod.mk.injEq] at done
      obtain ⟨slot, first, middle, here, more, later, last, there, rfl, rfl, rfl⟩ := done
      obtain ⟨slots, losers, counted, evictions⟩ := ih there
      have others : ∀ g, g ≠ group head → need group (head :: tail) g = need group tail g := by
        intro g different
        rw [need, List.countP_cons_of_neg (by simpa using different.symm), need]
      have own : need group (head :: tail) (group head) = need group tail (group head) + 1 := by
        rw [need, List.countP_cons_of_pos (by simp), need]
      have given : ∀ g, slotsGiven group ((head, slot) :: more) g =
          if g = group head then slot :: slotsGiven group more g else slotsGiven group more g := by
        intro g
        by_cases same : g = group head
        · subst same
          simp [slotsGiven]
        · rw [slotsGiven, List.filter_cons_of_neg (by simpa using fun equal => same equal.symm), if_neg same, slotsGiven]
      rcases takeSlot_takes here with ⟨rest, available, rfl, free, kept⟩ | ⟨key, rest, exhausted, rfl, free, split, kept⟩
      · have loses : ∀ g, middle.lost g protect (need group tail g) =
            manager.lost g protect (need group (head :: tail) g) := by
          intro g
          rw [lost, lost, kept, free]
          by_cases same : g = group head
          · subst same
            rw [Function.update_self, own, available, List.length_cons, Nat.add_sub_add_right]
          · rw [Function.update_of_ne same, others g same]
        refine ⟨fun g => ?_, losers, counted, fun g => ?_⟩
        · rw [given, slots, loses, free]
          by_cases same : g = group head
          · subst same
            rw [if_pos rfl, Function.update_self, own, available, List.take_succ_cons, List.cons_append]
          · rw [if_neg same, Function.update_of_ne same, others g same]
        · rw [List.nil_append, evictions, loses]
      · have loses : ∀ g, manager.lost g protect (need group (head :: tail) g) =
            if g = group head then (key, slot) :: middle.lost g protect (need group tail g)
            else middle.lost g protect (need group tail g) := by
          intro g
          rw [lost, lost, kept, free]
          by_cases same : g = group head
          · subst same
            rw [if_pos rfl, if_pos rfl, own, exhausted, split, List.length_nil, Nat.sub_zero, Nat.sub_zero,
              List.take_succ_cons]
          · rw [if_neg same, if_neg same, others g same]
        refine ⟨fun g => ?_, group head :: losers, ?_, fun g => ?_⟩
        · rw [given, slots, loses, free]
          by_cases same : g = group head
          · subst same
            rw [if_pos rfl, if_pos rfl, own, exhausted, List.take_nil, List.take_nil, List.nil_append, List.nil_append,
              List.map_cons]
          · rw [if_neg same, if_neg same, others g same]
        · rw [List.length_cons, List.singleton_append, List.length_cons, counted]
        · rw [List.singleton_append, List.zip_cons_cons, loses]
          by_cases same : g = group head
          · subst same
            rw [if_pos rfl, List.filter_cons_of_pos (by simp), List.map_cons, List.map_cons, evictions]
          · rw [if_neg same, List.filter_cons_of_neg (by simpa using fun equal => same equal.symm), evictions]

/-- The keys of a call that need a slot, in first-occurrence order. -/
def freshKeys (group : Key → Fin groups) (manager : SlabOffloadingManager Key groups) (keys : List Key) : List Key :=
  keys.eraseDups.filter (manager.isNew group)

/-- A group cannot give a slot to each of its new keys. -/
def Short (group : Key → Fin groups) (manager : SlabOffloadingManager Key groups) (keys : List Key) (g : Fin groups) :
    Prop :=
  (manager.free g).length + (manager.eligible g keys.eraseDups).length < need group (manager.freshKeys group keys) g

/-- A call that is granted stores its new keys in slots of their groups, and evicts no more than it needs. -/
structure Granted (group : Key → Fin groups) (manager : SlabOffloadingManager Key groups) (keys : List Key)
    (output : PrepareStoreOutput Key) : Prop where
  keysToStore : output.keysToStore = manager.freshKeys group keys
  specKeys : output.storeSpec.keys = output.keysToStore
  slots : ∃ taken : List (Key × Nat), taken.map Prod.fst = output.keysToStore ∧
    output.storeSpec.slots = taken.map (fun pair => (pair.2 : Int)) ∧
    ∀ g, slotsGiven group taken g =
        (manager.free g).take (need group output.keysToStore g) ++
          (manager.lost g keys.eraseDups (need group output.keysToStore g)).map Prod.snd ∧
      (slotsGiven group taken g).Nodup ∧ ∀ slot ∈ slotsGiven group taken g, slot < manager.counts g
  evicted : Evicts keys.eraseDups manager (need group output.keysToStore) output.evictedKeys
  kept : ∀ key ∈ output.evictedKeys, key ∉ keys ∧ manager.readers key = 0

/-- The slots that a call may take are held once. -/
theorem given_held {manager : SlabOffloadingManager Key groups} {loads : List (Key × Int)}
    (custody : manager.Custody group loads) (g : Fin groups) (protect : List Key) (needed : Nat) :
    ((manager.free g).take needed ++ (manager.lost g protect needed).map Prod.snd).Nodup ∧
      ∀ slot ∈ (manager.free g).take needed ++ (manager.lost g protect needed).map Prod.snd, slot < manager.counts g := by
  have part : ((manager.free g).take needed ++ (manager.lost g protect needed).map Prod.snd).Sublist
      (manager.held group g) := by
    rw [held, List.append_assoc, List.append_assoc]
    apply (List.take_sublist needed _).append
    apply List.Sublist.trans _ (List.sublist_append_left _ _)
    exact ((List.take_sublist _ _).trans List.filter_sublist).map Prod.snd
  constructor
  · exact ((held_nodup_iff group manager g).mpr (custody.once g)).sublist part
  · intro slot inside
    have positive := (mem_held_iff group manager g slot).mp (part.subset inside)
    by_contra outside
    rw [custody.within g slot (Nat.not_lt.mp outside)] at positive
    exact absurd positive (Nat.lt_irrefl 0)

/-- An evicted key is an oldest eligible entry of the group that lost it. -/
theorem Evicts.eligible {manager : SlabOffloadingManager Key groups} {protect evicted : List Key}
    {needed : Fin groups → Nat} (evicts : Evicts protect manager needed evicted) {key : Key} (gone : key ∈ evicted) :
    manager.mayEvict protect key = true := by
  obtain ⟨losers, counted, evictions⟩ := evicts
  obtain ⟨place, inside, rfl⟩ := List.mem_iff_getElem.mp gone
  have paired : (losers[place], evicted[place]) ∈ losers.zip evicted := by
    rw [List.mem_iff_getElem]
    exact ⟨place, by rw [List.length_zip]; omega, List.getElem_zip⟩
  have lost : evicted[place] ∈ (manager.lost losers[place] protect (needed losers[place])).map Prod.fst := by
    rw [← evictions]
    exact List.mem_map.mpr ⟨_, List.mem_filter.mpr ⟨paired, by simp⟩, rfl⟩
  obtain ⟨entry, listed, same⟩ := List.mem_map.mp lost
  rw [← same]
  exact (List.mem_filter.mp (List.mem_of_mem_take listed)).2

/-- A preflight that some group fails leaves the manager as it is; any other call is granted. -/
theorem prepareStore_granted {manager : SlabOffloadingManager Key groups} {loads : List (Key × Int)}
    (custody : manager.Custody group loads) (keys : List Key) :
    ((∃ g, manager.Short group keys g) ∧ manager.prepareStore group keys = (.retry, manager)) ∨
      (¬∃ g, manager.Short group keys g) ∧ ∃ output next, manager.prepareStore group keys = (.store output, next) ∧
        Granted group manager keys output := by
  by_cases short : ∃ g, manager.Short group keys g
  · refine .inl ⟨short, ?_⟩
    obtain ⟨g, lacks⟩ := short
    rw [prepareStore]
    apply if_neg
    intro preflight
    rw [List.all_eq_true] at preflight
    have positive : 0 < need group (manager.freshKeys group keys) g := Nat.zero_lt_of_lt lacks
    obtain ⟨key, inside, same⟩ := List.countP_pos_iff.mp positive
    have enough := of_decide_eq_true (preflight g (List.mem_map.mpr ⟨key, inside, by simpa using same⟩))
    rw [evictable_eq_length] at enough
    exact absurd lacks (Nat.not_lt.mpr enough)
  · refine .inr ⟨short, ?_⟩
    rcases prepareStore_cases group manager keys with same | ⟨taken, evicted, next, siblings, stats, done, same⟩
    · have preflight : ((manager.freshKeys group keys).map group).all (fun g =>
          decide (need group (manager.freshKeys group keys) g ≤
            (manager.free g).length + manager.evictable g keys.eraseDups)) = true := by
        rw [List.all_eq_true]
        intro g _
        rw [decide_eq_true_eq, evictable_eq_length]
        exact Nat.le_of_not_lt fun lacks => short ⟨g, lacks⟩
      rw [prepareStore] at same
      dsimp only at same
      rw [← freshKeys, if_pos preflight] at same
      split at same
      · cases congrArg Prod.fst same
      · cases congrArg Prod.fst same
    · obtain ⟨slots, evicts⟩ := takeSlots_takes _ done
      have named := (takeSlots_frame _ done).2
      refine ⟨_, _, same, ?_⟩
      constructor
      case keysToStore => exact named
      case specKeys => rfl
      case slots =>
          refine ⟨taken, rfl, rfl, fun g => ?_⟩
          rw [named, slots]
          exact ⟨rfl, given_held custody g _ _⟩
      case evicted =>
          rw [named]
          exact evicts
      case kept =>
          intro key gone
          have allowed := evicts.eligible gone
          rw [mayEvict, Bool.and_eq_true, beq_iff_eq, Bool.not_eq_true', List.contains_eq_mem, decide_eq_false_iff_not,
            List.mem_eraseDups] at allowed
          exact ⟨allowed.2, allowed.1⟩

end DgxSpark.Slab.SlabOffloadingManager

namespace DgxSpark.Slab.Desk
open SlabOffloadingManager

variable {Key : Type} [DecidableEq Key] {groups : Nat}

end DgxSpark.Slab.Desk

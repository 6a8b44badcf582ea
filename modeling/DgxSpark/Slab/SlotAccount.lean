import DgxSpark.Slab.Manager

namespace DgxSpark.Slab.SlabOffloadingManager

variable {Key : Type} [DecidableEq Key] {groups : Nat} (group : Key → Fin groups)

/-- The slots that a map assigns to the keys of one group. -/
def slotsOf (dict : OrderedDict Key Nat) (g : Fin groups) : List Nat :=
  (dict.entries.filter fun entry => group entry.1 == g).map Prod.snd

/-- Every place that holds a slot of the group, listed with repetition. -/
def held (manager : SlabOffloadingManager Key groups) (g : Fin groups) : List Nat :=
  manager.free g ++ (manager.index g).values ++ slotsOf group manager.inflightStore g ++
    slotsOf group manager.condemned g

/-- The entries of a map that give the slot to a key of the group. -/
def assigned (dict : OrderedDict Key Nat) (g : Fin groups) (slot : Nat) : Nat :=
  dict.tally fun entry => group entry.1 == g && entry.2 == slot

/-- The number of places that hold one slot of the group. -/
def copies (manager : SlabOffloadingManager Key groups) (g : Fin groups) (slot : Nat) : Nat :=
  (manager.free g).count slot + (manager.index g).tally (fun entry => entry.2 == slot) +
    assigned group manager.inflightStore g slot + assigned group manager.condemned g slot

omit [DecidableEq Key] in
theorem slotsOf_count (dict : OrderedDict Key Nat) (g : Fin groups) (slot : Nat) :
    (slotsOf group dict g).count slot = assigned group dict g slot := by
  rw [slotsOf, assigned, OrderedDict.tally, List.count, List.countP_map, List.countP_filter]
  apply List.countP_congr
  intro entry _
  simp [and_comm]

omit [DecidableEq Key] in
theorem held_count (manager : SlabOffloadingManager Key groups) (g : Fin groups) (slot : Nat) :
    (manager.held group g).count slot = manager.copies group g slot := by
  have indexed : (manager.index g).values.count slot = (manager.index g).tally fun entry => entry.2 == slot := by
    rw [OrderedDict.values, OrderedDict.tally, List.count, List.countP_map]
    rfl
  simp only [held, List.count_append, slotsOf_count, indexed, copies]

omit [DecidableEq Key] in
/-- A slot has at most one holder exactly when the holders list has no repetition. -/
theorem held_nodup_iff (manager : SlabOffloadingManager Key groups) (g : Fin groups) :
    (manager.held group g).Nodup ↔ ∀ slot, manager.copies group g slot ≤ 1 := by
  simp only [List.nodup_iff_count_le_one, held_count]

omit [DecidableEq Key] in
theorem mem_held_iff (manager : SlabOffloadingManager Key groups) (g : Fin groups) (slot : Nat) :
    slot ∈ manager.held group g ↔ 0 < manager.copies group g slot := by
  rw [← held_count, List.count_pos_iff]

/-- One holder counts for its own group and slot. -/
def unit (changed : Fin groups) (value : Nat) (g : Fin groups) (slot : Nat) : Nat :=
  if changed = g ∧ value = slot then 1 else 0

theorem assigned_erase (dict : OrderedDict Key Nat) {key : Key} {value : Nat}
    (found : dict.get? key = some value) (g : Fin groups) (slot : Nat) :
    assigned group (dict.erase key) g slot + unit (group key) value g slot = assigned group dict g slot := by
  have whole := dict.tally_erase key fun entry => group entry.1 == g && entry.2 == slot
  rw [found] at whole
  simpa [assigned, unit] using whole

theorem assigned_set_fresh (dict : OrderedDict Key Nat) {key : Key} (absent : dict.get? key = none)
    (value : Nat) (g : Fin groups) (slot : Nat) :
    assigned group (dict.set key value) g slot = assigned group dict g slot + unit (group key) value g slot := by
  have whole := dict.tally_set_fresh absent value fun entry => group entry.1 == g && entry.2 == slot
  simpa [assigned, unit] using whole

/-- An overwritten entry drops out of the account. -/
theorem assigned_set_over (dict : OrderedDict Key Nat) {key : Key} {old : Nat}
    (found : dict.get? key = some old) (value : Nat) (g : Fin groups) (slot : Nat) :
    assigned group (dict.set key value) g slot + unit (group key) old g slot =
      assigned group dict g slot + unit (group key) value g slot := by
  have whole := assigned_erase group dict found g slot
  have added := dict.tally_set key value fun entry => group entry.1 == g && entry.2 == slot
  have after : assigned group (dict.set key value) g slot =
      assigned group (dict.erase key) g slot + unit (group key) value g slot := by
    simpa [assigned, unit] using added
  omega

theorem assigned_pos {dict : OrderedDict Key Nat} {key : Key} {slot : Nat}
    (found : dict.get? key = some slot) : 0 < assigned group dict (group key) slot :=
  OrderedDict.tally_pos_of_get? found (by simp)

omit [DecidableEq Key] in
/-- The index part of the account after one group's index changes. -/
theorem index_tally_update (index : Fin groups → OrderedDict Key Nat) (changed : Fin groups)
    (dict : OrderedDict Key Nat) (g : Fin groups) (test : Key × Nat → Bool) :
    ((Function.update index changed dict) g).tally test =
      if g = changed then dict.tally test else (index g).tally test := by
  by_cases same : g = changed
  · rw [if_pos same, same, Function.update_self]
  · rw [if_neg same, Function.update_of_ne same]

theorem index_tally_erase (index : Fin groups → OrderedDict Key Nat) {changed : Fin groups} {key : Key}
    {value : Nat} (found : (index changed).get? key = some value) (g : Fin groups) (slot : Nat) :
    ((Function.update index changed ((index changed).erase key)) g).tally (fun entry => entry.2 == slot) +
      unit changed value g slot =
      (index g).tally fun entry => entry.2 == slot := by
  have whole := (index changed).tally_erase key fun entry => entry.2 == slot
  rw [found] at whole
  rw [index_tally_update]
  by_cases same : g = changed
  · subst same
    simpa [unit] using whole
  · rw [if_neg same, unit, if_neg (fun both => same both.1.symm), Nat.add_zero]

theorem index_tally_set (index : Fin groups → OrderedDict Key Nat) {changed : Fin groups} {key : Key}
    (absent : (index changed).get? key = none) (value : Nat) (g : Fin groups) (slot : Nat) :
    ((Function.update index changed ((index changed).set key value)) g).tally (fun entry => entry.2 == slot) =
      (index g).tally (fun entry => entry.2 == slot) + unit changed value g slot := by
  have whole := (index changed).tally_set_fresh absent value fun entry => entry.2 == slot
  rw [index_tally_update]
  by_cases same : g = changed
  · subst same
    simpa [unit] using whole
  · rw [if_neg same, unit, if_neg (fun both => same both.1.symm), Nat.add_zero]

omit [DecidableEq Key] in
theorem free_count_append (free : Fin groups → List Nat) (changed : Fin groups) (value : Nat)
    (g : Fin groups) (slot : Nat) :
    ((Function.update free changed (free changed ++ [value])) g).count slot =
      (free g).count slot + unit changed value g slot := by
  by_cases same : g = changed
  · subst same
    simp [List.count_append, List.count_singleton, unit]
  · rw [Function.update_of_ne same, unit, if_neg (fun both => same both.1.symm), Nat.add_zero]

/-- A refresh reorders the index and keeps every entry. -/
theorem refresh_get? (index : Fin groups → OrderedDict Key Nat) (keys : List Key) (g : Fin groups) (key : Key) :
    ((keys.foldl (refresh group) index) g).get? key = (index g).get? key := by
  induction keys generalizing index with
  | nil => rfl
  | cons head tail ih =>
      rw [List.foldl_cons, ih, refresh]
      by_cases same : g = group head
      · rw [same, Function.update_self, OrderedDict.get?_moveToEnd]
      · rw [Function.update_of_ne same]

theorem refresh_tally (index : Fin groups → OrderedDict Key Nat) (keys : List Key) (g : Fin groups)
    (test : Key × Nat → Bool) :
    ((keys.foldl (refresh group) index) g).tally test = (index g).tally test := by
  induction keys generalizing index with
  | nil => rfl
  | cons head tail ih =>
      rw [List.foldl_cons, ih, refresh]
      by_cases same : g = group head
      · rw [same, Function.update_self, OrderedDict.tally_moveToEnd]
      · rw [Function.update_of_ne same]

/-- A store that is placed under a new key holds its slot once more. -/
def place (manager : SlabOffloadingManager Key groups) (key : Key) (slot : Nat) :
    SlabOffloadingManager Key groups :=
  { manager with inflightStore := manager.inflightStore.set key slot }

theorem place_copies (manager : SlabOffloadingManager Key groups) {key : Key}
    (absent : manager.inflightStore.get? key = none) (value : Nat) (g : Fin groups) (slot : Nat) :
    (manager.place key value).copies group g slot = manager.copies group g slot + unit (group key) value g slot := by
  have added := assigned_set_fresh group manager.inflightStore absent value g slot
  simp only [copies, place, added]
  omega

/-- What one `_take_slot` does: it takes the first free slot, or it evicts the oldest allowed entry. -/
theorem takeSlot_cases {manager next : SlabOffloadingManager Key groups} {g : Fin groups} {protect : List Key}
    {slot : Nat} {evicted : List Key} (taken : manager.takeSlot g protect = some (slot, evicted, next)) :
    (∃ rest, manager.free g = slot :: rest ∧ evicted = [] ∧
      next = { manager with free := Function.update manager.free g rest }) ∨
    (∃ key, manager.free g = [] ∧ evicted = [key] ∧ (manager.index g).get? key = some slot ∧
      manager.mayEvict protect key = true ∧
      next = { manager with
        index := Function.update manager.index g ((manager.index g).erase key)
        siblings := manager.siblings.erase key
        stats := { manager.stats with evictions := manager.stats.evictions + 1 } }) := by
  unfold takeSlot at taken
  split at taken
  · rename_i first rest available
    simp only [Option.some.injEq, Prod.mk.injEq] at taken
    obtain ⟨rfl, rfl, rfl⟩ := taken
    exact .inl ⟨rest, available, rfl, rfl⟩
  · rename_i exhausted
    split at taken
    · rename_i key oldest found
      simp only [Option.some.injEq, Prod.mk.injEq] at taken
      obtain ⟨rfl, rfl, rfl⟩ := taken
      have inside := List.mem_of_find?_eq_some found
      have allowed := List.find?_some found
      exact .inr ⟨key, exhausted, rfl, OrderedDict.get?_eq_some_iff.mpr inside, allowed, rfl⟩
    · cases taken

/-- A taken slot loses exactly one holder. -/
theorem takeSlot_copies {manager next : SlabOffloadingManager Key groups} {changed : Fin groups}
    {protect : List Key} {value : Nat} {evicted : List Key}
    (taken : manager.takeSlot changed protect = some (value, evicted, next)) (g : Fin groups) (slot : Nat) :
    next.copies group g slot + unit changed value g slot = manager.copies group g slot := by
  rcases takeSlot_cases taken with ⟨rest, available, _, rfl⟩ | ⟨key, _, _, found, _, rfl⟩
  · simp only [copies]
    by_cases same : g = changed
    · subst same
      rw [Function.update_self, available, List.count_cons]
      by_cases equal : value = slot <;> simp [equal, unit]; omega
    · rw [Function.update_of_ne same, unit, if_neg (fun both => same both.1.symm), Nat.add_zero]
  · have dropped := index_tally_erase manager.index found g slot
    simp only [copies]
    omega

/-- A finished store moves its slot to the index or back to the free list. -/
theorem completeStoreKey_copies (manager : SlabOffloadingManager Key groups) (success : Bool) (key : Key)
    (apart : key ∈ manager.inflightStore.keys → (manager.index (group key)).get? key = none)
    (g : Fin groups) (slot : Nat) :
    (completeStoreKey group success manager key).copies group g slot = manager.copies group g slot := by
  unfold completeStoreKey
  split
  · rfl
  · rename_i value found
    have absent := apart (OrderedDict.mem_keys_iff.mpr ⟨value, found⟩)
    have dropped := assigned_erase group manager.inflightStore found g slot
    dsimp only
    split
    · have added := index_tally_set manager.index absent value g slot
      simp only [copies, added]
      omega
    · have added := free_count_append manager.free (group key) value g slot
      simp only [copies, added]
      omega

/-- The last reader moves a condemned slot to the free list. -/
theorem completeLoadKey_copies (manager : SlabOffloadingManager Key groups) (key : Key)
    (g : Fin groups) (slot : Nat) :
    (completeLoadKey group manager key).copies group g slot = manager.copies group g slot := by
  unfold completeLoadKey
  split
  · split
    · rename_i value found
      have dropped := assigned_erase group manager.condemned found g slot
      have added := free_count_append manager.free (group key) value g slot
      simp only [copies, added]
      omega
    · rfl
  · rfl

/-- The slot that `mark_load_failed` forgets: the one condemned earlier under the same key. -/
def forgotten (manager : SlabOffloadingManager Key groups) (key : Key) (g : Fin groups) (slot : Nat) : Nat :=
  if (manager.index (group key)).get? key ≠ none ∧ 0 < manager.readers key then
    match manager.condemned.get? key with
    | some old => unit (group key) old g slot
    | none => 0
  else 0

/-- A failed load moves its slot out of the index; only an overwritten condemned slot loses its holder. -/
theorem markLoadFailedKey_copies (manager : SlabOffloadingManager Key groups) (key : Key)
    (g : Fin groups) (slot : Nat) :
    (markLoadFailedKey group manager key).copies group g slot + manager.forgotten group key g slot =
      manager.copies group g slot := by
  unfold markLoadFailedKey forgotten
  split
  · rename_i absent
    rw [if_neg (fun both => both.1 absent), Nat.add_zero]
  · rename_i value found
    have dropped := index_tally_erase manager.index found g slot
    dsimp only
    split
    · rename_i read
      rw [if_pos ⟨by rw [found]; exact Option.some_ne_none _, read⟩]
      split
      · rename_i old condemnedBefore
        have replaced := assigned_set_over group manager.condemned condemnedBefore value g slot
        simp only [copies]
        omega
      · rename_i notCondemned
        have added := assigned_set_fresh group manager.condemned notCondemned value g slot
        simp only [copies, added]
        omega
    · rename_i idle
      have added := free_count_append manager.free (group key) value g slot
      rw [if_neg (fun both => idle both.2)]
      simp only [copies, added]
      omega

end DgxSpark.Slab.SlabOffloadingManager

import DgxSpark.Library.OrderedDict

/-
This file gives the rules of a dictionary of sets: its items enter one by one, and an empty set is removed.
-/

namespace DgxSpark.OrderedDict

variable {Key Item : Type} [DecidableEq Key]

/-- An item is in the set of a key. -/
def Holds (dict : OrderedDict Key (List Item)) (key : Key) (item : Item) : Prop := item ∈ (dict.get? key).getD []

/-- No set is empty, and each has its items once. -/
def Sets (dict : OrderedDict Key (List Item)) : Prop :=
  ∀ key items, dict.get? key = some items → items ≠ [] ∧ items.Nodup

theorem holds_empty (key : Key) (item : Item) : ¬(empty : OrderedDict Key (List Item)).Holds key item :=
  List.not_mem_nil

theorem sets_empty : (empty : OrderedDict Key (List Item)).Sets := by
  intro key items found
  cases found

theorem Sets.nodup {dict : OrderedDict Key (List Item)} (sets : dict.Sets) (key : Key) :
    ((dict.get? key).getD []).Nodup := by
  cases found : dict.get? key with
  | none => exact List.nodup_nil
  | some items => exact (sets key items found).2

variable [DecidableEq Item]

/-- The item enters the set of a key. -/
def enter (dict : OrderedDict Key (List Item)) (key : Key) (item : Item) : OrderedDict Key (List Item) :=
  dict.set key (((dict.get? key).getD []).insert item)

theorem holds_enter {dict : OrderedDict Key (List Item)} {key other : Key} {item found : Item} :
    (dict.enter key item).Holds other found ↔ dict.Holds other found ∨ (other = key ∧ found = item) := by
  unfold Holds enter
  rw [get?_set]
  by_cases same : other = key
  · rw [if_pos same, Option.getD_some, List.mem_insert_iff, same]
    simp [or_comm]
  · rw [if_neg same]
    simp [same]

theorem Sets.enter {dict : OrderedDict Key (List Item)} (sets : dict.Sets) (key : Key) (item : Item) :
    (dict.enter key item).Sets := by
  intro other items found
  rcases get?_set_cases found with ⟨rfl, rfl⟩ | ⟨_, found⟩
  · exact ⟨List.ne_nil_of_mem List.mem_insert_self, (sets.nodup other).insert⟩
  · exact sets other items found

theorem holds_enters {keys : List Key} {dict : OrderedDict Key (List Item)} {other : Key} {item found : Item} :
    (keys.foldl (fun dict key => dict.enter key item) dict).Holds other found ↔
      dict.Holds other found ∨ (other ∈ keys ∧ found = item) := by
  induction keys generalizing dict with
  | nil => simp
  | cons key rest ih =>
      rw [List.foldl_cons, ih, holds_enter, List.mem_cons]
      tauto

theorem Sets.enters {dict : OrderedDict Key (List Item)} (sets : dict.Sets) (keys : List Key) (item : Item) :
    (keys.foldl (fun dict key => dict.enter key item) dict).Sets := by
  induction keys generalizing dict with
  | nil => exact sets
  | cons key rest ih => exact ih (sets.enter key item)

/-- The item leaves the set of a key. -/
def leave (dict : OrderedDict Key (List Item)) (key : Key) (item : Item) : OrderedDict Key (List Item) :=
  if ((dict.get? key).getD []).erase item = [] then dict.erase key
  else dict.set key (((dict.get? key).getD []).erase item)

theorem holds_leave {dict : OrderedDict Key (List Item)} (sets : dict.Sets) {key other : Key} {item found : Item} :
    (dict.leave key item).Holds other found ↔ dict.Holds other found ∧ ¬(other = key ∧ found = item) := by
  have erased : found ∈ ((dict.get? key).getD []).erase item ↔ found ≠ item ∧ found ∈ (dict.get? key).getD [] :=
    (sets.nodup key).mem_erase_iff
  unfold Holds leave
  by_cases same : other = key
  · subst same
    have rest : found ∈ ((dict.get? other).getD []).erase item ↔
        found ∈ (dict.get? other).getD [] ∧ ¬(other = other ∧ found = item) := by
      rw [erased]
      tauto
    split
    · rename_i none
      rw [get?_erase_self, ← rest, none, Option.getD_none]
    · rw [get?_set_self, Option.getD_some, rest]
  · have kept : ((if ((dict.get? key).getD []).erase item = [] then dict.erase key
        else dict.set key (((dict.get? key).getD []).erase item)).get? other) = dict.get? other := by
      split
      · exact get?_erase_of_ne dict same
      · exact get?_set_of_ne dict _ same
    rw [kept]
    simp [same]

theorem Sets.leave {dict : OrderedDict Key (List Item)} (sets : dict.Sets) (key : Key) (item : Item) :
    (dict.leave key item).Sets := by
  intro other items found
  unfold OrderedDict.leave at found
  split at found
  · rw [get?_erase] at found
    split at found
    · cases found
    · exact sets other items found
  · rename_i some
    rcases get?_set_cases found with ⟨rfl, rfl⟩ | ⟨_, found⟩
    · exact ⟨some, (sets.nodup other).erase item⟩
    · exact sets other items found

end DgxSpark.OrderedDict

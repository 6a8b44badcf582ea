import Mathlib.Tactic

namespace DgxSpark

/-- An insertion-ordered dictionary lists each key once, oldest first. -/
structure OrderedDict (Key Value : Type) where
  entries : List (Key × Value)
  nodup : (entries.map Prod.fst).Nodup

namespace OrderedDict

variable {Key Value : Type}

def empty : OrderedDict Key Value := ⟨[], by simp⟩

def keys (dict : OrderedDict Key Value) : List Key := dict.entries.map Prod.fst

def values (dict : OrderedDict Key Value) : List Value := dict.entries.map Prod.snd

/-- The tally counts the entries that pass a test. -/
def tally (dict : OrderedDict Key Value) (test : Key × Value → Bool) : Nat := dict.entries.countP test

/-- The same keys in the same order with new values. -/
def mapValues {Other : Type} (dict : OrderedDict Key Value) (value : Value → Other) : OrderedDict Key Other where
  entries := dict.entries.map fun entry => (entry.1, value entry.2)
  nodup := by
    rw [List.map_map]
    exact dict.nodup

theorem filterMap_keys {Other : Type} (entries : List (Key × Value)) (value : Key → Value → Option Other) :
    ((entries.filterMap fun entry => (value entry.1 entry.2).map fun new => (entry.1, new)).map Prod.fst).Sublist
      (entries.map Prod.fst) := by
  induction entries with
  | nil => exact .slnil
  | cons entry rest ih =>
      rw [List.filterMap_cons]
      cases value entry.1 entry.2 with
      | none => exact ih.cons entry.1
      | some new => exact ih.cons_cons entry.1

/-- The entries to which a function gives a new value, in the same order. -/
def filterMap {Other : Type} (dict : OrderedDict Key Value) (value : Key → Value → Option Other) :
    OrderedDict Key Other where
  entries := dict.entries.filterMap fun entry => (value entry.1 entry.2).map fun new => (entry.1, new)
  nodup := dict.nodup.sublist (filterMap_keys dict.entries value)

theorem keys_nodup (dict : OrderedDict Key Value) : dict.keys.Nodup := dict.nodup

@[simp] theorem tally_empty (test : Key × Value → Bool) : (empty : OrderedDict Key Value).tally test = 0 := rfl

@[simp] theorem entries_empty : (empty : OrderedDict Key Value).entries = [] := rfl

theorem tally_pos_iff {dict : OrderedDict Key Value} {test : Key × Value → Bool} :
    0 < dict.tally test ↔ ∃ entry ∈ dict.entries, test entry = true :=
  List.countP_pos_iff

variable [DecidableEq Key]

def get? (dict : OrderedDict Key Value) (key : Key) : Option Value := dict.entries.lookup key

/-- Removing an absent key changes nothing. -/
def erase (dict : OrderedDict Key Value) (key : Key) : OrderedDict Key Value where
  entries := dict.entries.filter fun entry => entry.1 ≠ key
  nodup := dict.nodup.sublist (List.filter_sublist.map Prod.fst)

/-- The rewritten entry keeps its place and its key. -/
def replaced (entries : List (Key × Value)) (key : Key) (value : Value) : List (Key × Value) :=
  entries.map fun entry => if entry.1 = key then (key, value) else entry

theorem replaced_keys (entries : List (Key × Value)) (key : Key) (value : Value) :
    (replaced entries key value).map Prod.fst = entries.map Prod.fst := by
  rw [replaced, List.map_map]
  apply List.map_congr_left
  intro entry _
  by_cases same : entry.1 = key <;> simp [same]

/-- Assigning a present key keeps its place; a new key goes to the end. -/
def set (dict : OrderedDict Key Value) (key : Key) (value : Value) : OrderedDict Key Value :=
  if present : key ∈ dict.entries.map Prod.fst then
    ⟨replaced dict.entries key value, by rw [replaced_keys]; exact dict.nodup⟩
  else
    ⟨dict.entries ++ [(key, value)], by
      rw [List.map_append, List.map_singleton, List.nodup_append]
      refine ⟨dict.nodup, by simp, ?_⟩
      intro a inside b last same
      have atKey : a = key := same.trans (List.mem_singleton.mp last)
      exact present (atKey ▸ inside)⟩

/-- A present key goes to the newest end with its value. -/
def moveToEnd (dict : OrderedDict Key Value) (key : Key) : OrderedDict Key Value :=
  match dict.get? key with
  | some value => (dict.erase key).set key value
  | none => dict

theorem mem_of_get? {dict : OrderedDict Key Value} {key : Key} {value : Value}
    (found : dict.get? key = some value) : (key, value) ∈ dict.entries := by
  obtain ⟨before, after, split, _⟩ := List.lookup_eq_some_iff.mp found
  simp [split]

theorem lookup_of_mem {entries : List (Key × Value)} (nodup : (entries.map Prod.fst).Nodup)
    {key : Key} {value : Value} (member : (key, value) ∈ entries) : entries.lookup key = some value := by
  induction entries with
  | nil => cases member
  | cons head tail ih =>
      obtain ⟨headKey, headValue⟩ := head
      rw [List.map_cons, List.nodup_cons] at nodup
      rcases List.mem_cons.mp member with same | later
      · cases same
        simp
      · have different : key ≠ headKey := by
          intro same
          subst same
          exact nodup.1 (List.mem_map.mpr ⟨_, later, rfl⟩)
        have unequal : (key == headKey) = false := by simpa using different
        rw [List.lookup_cons, unequal]
        exact ih nodup.2 later

theorem get?_eq_some_iff {dict : OrderedDict Key Value} {key : Key} {value : Value} :
    dict.get? key = some value ↔ (key, value) ∈ dict.entries :=
  ⟨mem_of_get?, lookup_of_mem dict.nodup⟩

theorem get?_eq_none_iff {dict : OrderedDict Key Value} {key : Key} :
    dict.get? key = none ↔ key ∉ dict.keys := by
  rw [get?, List.lookup_eq_none_iff]
  simp only [keys, List.mem_map, not_exists, not_and, bne_iff_ne, ne_eq]
  constructor
  · intro absent entry inside same
    exact absent entry inside same.symm
  · intro absent entry inside same
    exact absent entry inside same.symm

theorem mem_keys_iff {dict : OrderedDict Key Value} {key : Key} :
    key ∈ dict.keys ↔ ∃ value, dict.get? key = some value := by
  rw [← Option.ne_none_iff_exists', ne_eq, get?_eq_none_iff, not_not]

theorem mem_values_iff {dict : OrderedDict Key Value} {value : Value} :
    value ∈ dict.values ↔ ∃ key, dict.get? key = some value := by
  simp only [values, List.mem_map, get?_eq_some_iff]
  constructor
  · rintro ⟨⟨key, other⟩, inside, rfl⟩
    exact ⟨key, inside⟩
  · rintro ⟨key, inside⟩
    exact ⟨(key, value), inside, rfl⟩

instance (dict : OrderedDict Key Value) (key : Key) : Decidable (key ∈ dict.keys) :=
  inferInstanceAs (Decidable (key ∈ dict.entries.map Prod.fst))

@[simp] theorem get?_empty (key : Key) : (empty : OrderedDict Key Value).get? key = none := rfl

@[simp] theorem get?_mapValues {Other : Type} (dict : OrderedDict Key Value) (value : Value → Other) (key : Key) :
    (dict.mapValues value).get? key = (dict.get? key).map value := by
  apply Option.ext
  intro found
  rw [get?_eq_some_iff, Option.map_eq_some_iff]
  simp only [mapValues, List.mem_map, Prod.mk.injEq, get?_eq_some_iff]
  constructor
  · rintro ⟨entry, inside, rfl, rfl⟩
    exact ⟨entry.2, inside, rfl⟩
  · rintro ⟨old, inside, rfl⟩
    exact ⟨(key, old), inside, rfl, rfl⟩

@[simp] theorem get?_filterMap {Other : Type} (dict : OrderedDict Key Value) (value : Key → Value → Option Other)
    (key : Key) : (dict.filterMap value).get? key = (dict.get? key).bind (value key) := by
  apply Option.ext
  intro found
  rw [get?_eq_some_iff, Option.bind_eq_some_iff]
  simp only [filterMap, List.mem_filterMap, Option.map_eq_some_iff, Prod.mk.injEq, get?_eq_some_iff]
  constructor
  · rintro ⟨entry, inside, new, given, rfl, rfl⟩
    exact ⟨entry.2, inside, given⟩
  · rintro ⟨old, inside, given⟩
    exact ⟨(key, old), inside, found, given, rfl, rfl⟩

theorem lookup_filterMap {Other : Type} {entries : List (Key × Value)} (nodup : (entries.map Prod.fst).Nodup)
    (value : Key → Value → Option Other) (key : Key) :
    (entries.filterMap fun entry => (value entry.1 entry.2).map fun new => (entry.1, new)).lookup key =
      (entries.lookup key).bind (value key) :=
  get?_filterMap ⟨entries, nodup⟩ value key

theorem lookup_filter {entries : List (Key × Value)} (nodup : (entries.map Prod.fst).Nodup)
    (test : Key × Value → Bool) (key : Key) :
    (entries.filter test).lookup key = (entries.lookup key).filter fun value => test (key, value) := by
  have kept : ((entries.filter test).map Prod.fst).Nodup := nodup.sublist (List.filter_sublist.map Prod.fst)
  apply Option.ext
  intro found
  show get? ⟨_, kept⟩ key = some found ↔ (get? ⟨_, nodup⟩ key).filter _ = some found
  rw [Option.filter_eq_some_iff, get?_eq_some_iff, get?_eq_some_iff]
  exact List.mem_filter

@[simp] theorem get?_erase_self (dict : OrderedDict Key Value) (key : Key) :
    (dict.erase key).get? key = none := by
  rw [get?_eq_none_iff]
  simp [keys, erase]

theorem get?_erase_of_ne (dict : OrderedDict Key Value) {key other : Key} (different : other ≠ key) :
    (dict.erase key).get? other = dict.get? other := by
  apply Option.ext
  intro value
  simp only [get?_eq_some_iff, erase, List.mem_filter, decide_eq_true_eq, ne_eq]
  exact ⟨fun inside => inside.1, fun inside => ⟨inside, different⟩⟩

theorem get?_erase (dict : OrderedDict Key Value) (key other : Key) :
    (dict.erase key).get? other = if other = key then none else dict.get? other := by
  by_cases same : other = key
  · rw [if_pos same, same, get?_erase_self]
  · rw [if_neg same, get?_erase_of_ne dict same]

theorem erase_of_get?_none (dict : OrderedDict Key Value) {key : Key} (absent : dict.get? key = none) :
    (dict.erase key).entries = dict.entries := by
  rw [get?_eq_none_iff] at absent
  apply List.filter_eq_self.mpr
  intro entry inside
  have different : entry.1 ≠ key := fun same => absent (List.mem_map.mpr ⟨entry, inside, same⟩)
  simpa using different

@[simp] theorem get?_set_self (dict : OrderedDict Key Value) (key : Key) (value : Value) :
    (dict.set key value).get? key = some value := by
  rw [get?_eq_some_iff, set]
  split
  · rename_i present
    obtain ⟨entry, inside, same⟩ := List.mem_map.mp present
    exact List.mem_map.mpr ⟨entry, inside, by rw [if_pos same]⟩
  · simp

/-- A new key comes last. -/
theorem set_entries_fresh {dict : OrderedDict Key Value} {key : Key} (fresh : key ∉ dict.keys) (value : Value) :
    (dict.set key value).entries = dict.entries ++ [(key, value)] := by
  rw [keys] at fresh
  rw [set, dif_neg fresh]

theorem get?_set_of_ne (dict : OrderedDict Key Value) {key other : Key} (value : Value)
    (different : other ≠ key) : (dict.set key value).get? other = dict.get? other := by
  apply Option.ext
  intro found
  simp only [get?_eq_some_iff, set]
  split
  · simp only [replaced, List.mem_map]
    constructor
    · rintro ⟨entry, inside, image⟩
      by_cases same : entry.1 = key
      · rw [if_pos same, Prod.mk.injEq] at image
        exact absurd image.1.symm different
      · rw [if_neg same] at image
        exact image ▸ inside
    · intro inside
      exact ⟨(other, found), inside, by rw [if_neg different]⟩
  · simp [different]

theorem get?_set (dict : OrderedDict Key Value) (key other : Key) (value : Value) :
    (dict.set key value).get? other = if other = key then some value else dict.get? other := by
  by_cases same : other = key
  · rw [if_pos same, same, get?_set_self]
  · rw [if_neg same, get?_set_of_ne dict value same]

/-- Assigns the entries from left to right. -/
def update (dict : OrderedDict Key Value) (entries : List (Key × Value)) : OrderedDict Key Value :=
  entries.foldl (fun dict entry => dict.set entry.1 entry.2) dict

theorem get?_update (dict : OrderedDict Key Value) {entries : List (Key × Value)}
    (nodup : (entries.map Prod.fst).Nodup) (key : Key) :
    (dict.update entries).get? key = (entries.lookup key).or (dict.get? key) := by
  induction entries generalizing dict with
  | nil => rfl
  | cons entry rest ih =>
      rw [List.map_cons, List.nodup_cons] at nodup
      have step : dict.update (entry :: rest) = (dict.set entry.1 entry.2).update rest := rfl
      rw [step, ih _ nodup.2, List.lookup_cons]
      by_cases same : key = entry.1
      · subst same
        have absent : rest.lookup entry.1 = none := by
          rw [List.lookup_eq_none_iff]
          intro other inside
          rw [bne_iff_ne]
          intro equal
          exact nodup.1 (List.mem_map.mpr ⟨other, inside, equal.symm⟩)
        simp [absent]
      · rw [beq_false_of_ne same, get?_set_of_ne _ _ same]

/-- What is found after an assignment was assigned or was there before. -/
theorem get?_set_cases {dict : OrderedDict Key Value} {key other : Key} {value found : Value}
    (present : (dict.set key value).get? other = some found) :
    (other = key ∧ found = value) ∨ (other ≠ key ∧ dict.get? other = some found) := by
  rw [get?_set] at present
  split at present
  case isTrue same => exact .inl ⟨same, (Option.some.inj present).symm⟩
  case isFalse different => exact .inr ⟨different, present⟩

/-- Assigning a present key adds no key. -/
theorem get?_set_none_iff {dict : OrderedDict Key Value} {key : Key} {old : Value}
    (found : dict.get? key = some old) (value : Value) (other : Key) :
    (dict.set key value).get? other = none ↔ dict.get? other = none := by
  rw [get?_set]
  split
  case isTrue same => simp [same, found]
  case isFalse => exact Iff.rfl

@[simp] theorem get?_moveToEnd (dict : OrderedDict Key Value) (key other : Key) :
    (dict.moveToEnd key).get? other = dict.get? other := by
  unfold moveToEnd
  split
  · rename_i value found
    rw [get?_set, get?_erase]
    by_cases same : other = key
    · rw [if_pos same, same, found]
    · rw [if_neg same, if_neg same]
  · rfl

/-- Erasing a key gives up at most its own entry. -/
theorem tally_erase (dict : OrderedDict Key Value) (key : Key) (test : Key × Value → Bool) :
    (dict.erase key).tally test +
      (match dict.get? key with
        | some value => if test (key, value) then 1 else 0
        | none => 0) = dict.tally test := by
  obtain ⟨entries, nodup⟩ := dict
  simp only [tally, erase, get?]
  induction entries with
  | nil => rfl
  | cons head tail ih =>
      obtain ⟨headKey, headValue⟩ := head
      rw [List.map_cons, List.nodup_cons] at nodup
      have rest := ih nodup.2
      by_cases same : key = headKey
      · subst same
        have absent : tail.lookup key = none := by
          rw [List.lookup_eq_none_iff]
          intro entry inside
          have different : key ≠ entry.1 := fun equal =>
            nodup.1 (List.mem_map.mpr ⟨entry, inside, equal.symm⟩)
          simpa using different
        rw [absent] at rest
        simp only [Nat.add_zero] at rest
        rw [List.filter_cons_of_neg (by simp), rest, List.countP_cons]
        simp
      · have unequal : (key == headKey) = false := by simpa using same
        have kept : decide (headKey ≠ key) = true := by simpa using Ne.symm same
        rw [List.lookup_cons, unequal, List.filter_cons_of_pos (by simpa using kept)]
        simp only [List.countP_cons]
        omega

/-- An assigned entry replaces the old entry of its key in every tally. -/
theorem tally_set (dict : OrderedDict Key Value) (key : Key) (value : Value) (test : Key × Value → Bool) :
    (dict.set key value).tally test =
      (dict.erase key).tally test + if test (key, value) then 1 else 0 := by
  have whole := tally_erase (dict.set key value) key test
  rw [get?_set_self] at whole
  have same : ((dict.set key value).erase key).entries = (dict.erase key).entries := by
    simp only [erase, set]
    split
    · simp only [replaced, List.filter_map]
      rw [List.filter_congr (q := fun entry => entry.1 ≠ key)]
      · rw [List.map_congr_left (g := id), List.map_id]
        intro entry inside
        have different := (List.mem_filter.mp inside).2
        simp only [decide_eq_true_eq] at different
        rw [if_neg different, id]
      · intro entry _
        by_cases equal : entry.1 = key <;> simp [equal]
    · simp
  simp only [tally, same] at whole ⊢
  omega

@[simp] theorem tally_moveToEnd (dict : OrderedDict Key Value) (key : Key) (test : Key × Value → Bool) :
    (dict.moveToEnd key).tally test = dict.tally test := by
  unfold moveToEnd
  split
  · rename_i value found
    have whole := tally_erase dict key test
    rw [found] at whole
    have again : ((dict.erase key).erase key).entries = (dict.erase key).entries :=
      erase_of_get?_none _ (get?_erase_self dict key)
    rw [tally_set]
    simp only [tally, again] at whole ⊢
    exact whole
  · rfl

/-- A fresh key adds exactly its own entry. -/
theorem tally_set_fresh (dict : OrderedDict Key Value) {key : Key} (absent : dict.get? key = none)
    (value : Value) (test : Key × Value → Bool) :
    (dict.set key value).tally test = dict.tally test + if test (key, value) then 1 else 0 := by
  rw [tally_set]
  simp only [tally, erase_of_get?_none dict absent]

theorem tally_pos_of_get? {dict : OrderedDict Key Value} {key : Key} {value : Value}
    {test : Key × Value → Bool} (found : dict.get? key = some value) (passes : test (key, value) = true) :
    0 < dict.tally test :=
  tally_pos_iff.mpr ⟨(key, value), mem_of_get? found, passes⟩

/-- Lists that pass every test equally often have the same elements. -/
theorem perm_of_countP {Item : Type} {first second : List Item}
    (same : ∀ test : Item → Bool, first.countP test = second.countP test) : first.Perm second := by
  classical
  exact List.perm_iff_count.mpr fun item => same _

/-- An entry and what erasing it leaves are all the entries. -/
theorem erase_perm {dict : OrderedDict Key Value} {key : Key} {value : Value}
    (found : dict.get? key = some value) : dict.entries.Perm ((key, value) :: (dict.erase key).entries) := by
  apply perm_of_countP
  intro test
  have whole := tally_erase dict key test
  rw [found] at whole
  rw [List.countP_cons]
  exact whole.symm

/-- An assigned entry and what erasing its key leaves are all the entries. -/
theorem set_perm (dict : OrderedDict Key Value) (key : Key) (value : Value) :
    (dict.set key value).entries.Perm ((key, value) :: (dict.erase key).entries) := by
  apply perm_of_countP
  intro test
  rw [List.countP_cons]
  exact tally_set dict key value test

end OrderedDict

end DgxSpark

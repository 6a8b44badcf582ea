import DgxSpark.Slab.Epoch

/-
This file says what the index rebuild makes of any content of the slabs: of several valid headers
with one key the newest wins, and the index lists the keys in the order of their stores.
-/

namespace DgxSpark.Slab

variable {Key : Type} [DecidableEq Key] {groups : Nat}

/-- The order in which the rebuild goes through the headers: by sequence number, then by slot. -/
def Scanned.Before (first second : Scanned Key) : Prop :=
  first.seq < second.seq ∨ first.seq = second.seq ∧ first.slot < second.slot

omit [DecidableEq Key] in
theorem Scanned.Before.trans {first second third : Scanned Key} (early : first.Before second)
    (late : second.Before third) : first.Before third := by
  unfold Scanned.Before at early late ⊢
  omega

omit [DecidableEq Key] in
theorem orderedInsert_before {entry : Scanned Key} {entries : List (Scanned Key)}
    (ordered : entries.Pairwise Scanned.Before)
    (ahead : ∀ other ∈ entries, entry.slot < other.slot) :
    (entries.orderedInsert (fun a b => a.seq ≤ b.seq) entry).Pairwise Scanned.Before := by
  induction entries with
  | nil => exact List.pairwise_singleton _ _
  | cons head tail ih =>
      obtain ⟨after, rest⟩ := List.pairwise_cons.mp ordered
      have headAhead := ahead head List.mem_cons_self
      rw [List.orderedInsert_cons]
      split
      case isTrue low =>
        have first : entry.Before head := by
          unfold Scanned.Before
          omega
        refine List.pairwise_cons.mpr ⟨?_, ordered⟩
        intro other inside
        rcases List.mem_cons.mp inside with same | later
        · exact same ▸ first
        · exact first.trans (after other later)
      case isFalse high =>
        refine List.pairwise_cons.mpr ⟨?_, ih rest fun other inside => ahead other (List.mem_cons_of_mem _ inside)⟩
        intro other inside
        rcases List.mem_cons.mp ((List.perm_orderedInsert _ _ _).mem_iff.mp inside) with same | later
        · rw [same]
          exact .inl (by omega)
        · exact after other later

omit [DecidableEq Key] in
/-- The sort is stable in slot order. -/
theorem bySeq_before {present : List (Scanned Key)}
    (ordered : present.Pairwise fun first second => first.slot < second.slot) :
    (bySeq present).Pairwise Scanned.Before := by
  induction present with
  | nil => exact List.Pairwise.nil
  | cons head tail ih =>
      obtain ⟨after, rest⟩ := List.pairwise_cons.mp ordered
      refine orderedInsert_before (ih rest) ?_
      intro other inside
      exact after other ((bySeq_perm tail).mem_iff.mp inside)

/-- What the rebuild keeps of the headers gone through so far: of each key the last one, in order. -/
structure Kept (gone : List (Scanned Key)) (index : OrderedDict Key Nat) (kept : List (Scanned Key)) :
    Prop where
  entries : index.entries = kept.map fun entry => (entry.key, entry.slot)
  sublist : kept.Sublist gone
  last : ∀ entry ∈ kept, ∀ other ∈ gone, other.key = entry.key → other = entry ∨ other.Before entry
  covers : ∀ other ∈ gone, ∃ entry ∈ kept, entry.key = other.key

/-- One more header pops the older one of its key and goes to the end. -/
theorem Kept.indexHeader {gone kept : List (Scanned Key)} {index : OrderedDict Key Nat}
    (before : Kept gone index kept) {entry : Scanned Key} (after : ∀ other ∈ gone, other.Before entry) :
    Kept (gone ++ [entry]) (indexHeader index entry)
      (kept.filter (fun other => other.key ≠ entry.key) ++ [entry]) where
  entries := by
    have absent : entry.key ∉ ((index.erase entry.key).entries.map Prod.fst) :=
      OrderedDict.get?_eq_none_iff.mp (OrderedDict.get?_erase_self index entry.key)
    rw [Slab.indexHeader, OrderedDict.set, dif_neg absent]
    dsimp only [OrderedDict.erase]
    rw [before.entries, List.filter_map, List.map_append]
    rfl
  sublist := (List.filter_sublist.trans before.sublist).append (List.Sublist.refl _)
  last := by
    intro chosen inside other gone same
    rcases List.mem_append.mp inside with older | newest
    · obtain ⟨chosenKept, different⟩ := List.mem_filter.mp older
      rcases List.mem_append.mp gone with earlier | here
      · exact before.last chosen chosenKept other earlier same
      · rw [List.mem_singleton.mp here] at same
        exact absurd same.symm (of_decide_eq_true different)
    · rw [List.mem_singleton.mp newest]
      rcases List.mem_append.mp gone with earlier | here
      · exact .inr (after other earlier)
      · exact .inl (List.mem_singleton.mp here)
  covers := by
    intro other gone
    by_cases same : other.key = entry.key
    · exact ⟨entry, List.mem_append_right _ List.mem_cons_self, same.symm⟩
    · rcases List.mem_append.mp gone with earlier | here
      · obtain ⟨chosen, inside, equal⟩ := before.covers other earlier
        have different : chosen.key ≠ entry.key := by rwa [equal]
        exact ⟨chosen, List.mem_append_left _ (List.mem_filter.mpr ⟨inside, decide_eq_true different⟩), equal⟩
      · exact absurd (congrArg Scanned.key (List.mem_singleton.mp here)) same

/-- The rebuilt index keeps the newest header of each key. -/
theorem rebuildIndex_kept {present : List (Scanned Key)}
    (ordered : present.Pairwise fun first second => first.slot < second.slot) :
    ∃ kept, Kept (bySeq present) (rebuildIndex present) kept := by
  have sorted := bySeq_before ordered
  unfold rebuildIndex
  generalize bySeq present = gone at sorted
  induction gone using List.reverseRecOn with
  | nil =>
      exact ⟨[], rfl, List.Sublist.slnil, fun _ inside => absurd inside List.not_mem_nil,
        fun _ inside => absurd inside List.not_mem_nil⟩
  | append_singleton front entry ih =>
      obtain ⟨early, -, cross⟩ := List.pairwise_append.mp sorted
      obtain ⟨kept, before⟩ := ih early
      rw [List.foldl_append, List.foldl_cons, List.foldl_nil]
      exact ⟨_, before.indexHeader fun other inside => cross other inside entry List.mem_cons_self⟩

omit [DecidableEq Key] in
theorem scanned_ordered (count : Nat) (header : Nat → Option (Nat × Key)) :
    (scanned count header).Pairwise fun first second => first.slot < second.slot :=
  List.pairwise_map.mp (List.pairwise_lt_range.sublist (scanned_slots count header))

omit [DecidableEq Key] in
theorem mem_scanned {count : Nat} {header : Nat → Option (Nat × Key)} {entry : Scanned Key} :
    entry ∈ scanned count header ↔
      entry.slot < count ∧ header entry.slot = some (entry.seq, entry.key) := by
  unfold scanned
  rw [List.mem_filterMap]
  constructor
  · rintro ⟨slot, inside, found⟩
    obtain ⟨pair, here, rfl⟩ := Option.map_eq_some_iff.mp found
    exact ⟨List.mem_range.mp inside, here⟩
  · rintro ⟨inside, found⟩
    exact ⟨entry.slot, List.mem_range.mpr inside, by rw [found]; rfl⟩

/-- The newest header of a key in a group: no other header of the key comes after it. -/
def Newest (count : Nat) (header : Nat → Option (Nat × Key)) (key : Key) (slot : Nat) : Prop :=
  slot < count ∧ ∃ seq, header slot = some (seq, key) ∧
    ∀ other < count, ∀ otherSeq, header other = some (otherSeq, key) →
      otherSeq < seq ∨ otherSeq = seq ∧ other ≤ slot

/-- What the rebuild of a group owes to the headers that the scan finds. -/
structure Rebuilt (count : Nat) (header : Nat → Option (Nat × Key)) (index : OrderedDict Key Nat)
    (free : List Nat) (seq : Nat) : Prop where
  covers : ∀ slot < count, ∀ found key, header slot = some (found, key) →
    ∃ latest, index.get? key = some latest
  newest : ∀ key slot, index.get? key = some slot ↔ Newest count header key slot
  order : index.entries.Pairwise fun first second => ∀ early late,
    header first.2 = some (early, first.1) → header second.2 = some (late, second.1) →
      early < late ∨ early = late ∧ first.2 < second.2
  others : ∀ slot, slot ∈ free ↔ slot < count ∧ ∀ key, index.get? key ≠ some slot
  increasing : free.Pairwise (· < ·)
  above : ∀ slot < count, ∀ found key, header slot = some (found, key) → found ≤ seq

/-- A fold of maxima is at least its start and every number it meets. -/
theorem le_foldl_max {Item : Type} {step : Nat → Item → Nat} {bound : Nat}
    (grows : ∀ seq item, seq ≤ step seq item) (items : List Item) {start : Nat}
    (met : bound ≤ start ∨ ∃ item ∈ items, ∀ seq, bound ≤ step seq item) :
    bound ≤ items.foldl step start := by
  induction items generalizing start with
  | nil =>
      rcases met with early | ⟨item, inside, -⟩
      · exact early
      · cases inside
  | cons head tail ih =>
      apply ih
      rcases met with early | ⟨item, inside, here⟩
      · exact .inl (early.trans (grows start head))
      · rcases List.mem_cons.mp inside with rfl | later
        · exact .inl (here start)
        · exact .inr ⟨item, later, here⟩

omit [DecidableEq Key] in
theorem le_highestSeq {present : Fin groups → List (Scanned Key)} {g : Fin groups} {entry : Scanned Key}
    (inside : entry ∈ present g) : entry.seq ≤ highestSeq present := by
  have grows : ∀ (entries : List (Scanned Key)) (seq : Nat),
      seq ≤ entries.foldl (fun seq entry => max seq entry.seq) seq := fun entries seq =>
    le_foldl_max (fun _ _ => le_max_left _ _) entries (.inl (le_refl seq))
  apply le_foldl_max (fun seq group => grows (present group) seq)
  exact .inr ⟨g, List.mem_finRange g, fun seq =>
    le_foldl_max (fun _ _ => le_max_left _ _) (present g)
      (.inr ⟨entry, inside, fun _ => le_max_right _ _⟩)⟩

/-- The index and the free list of a fresh manager, for any headers. -/
theorem attach_rebuilt (counts : Fin groups → Nat) (epoch : Int)
    (header : Fin groups → Nat → Option (Nat × Key)) (g : Fin groups) :
    Rebuilt (counts g) (header g) ((SlabOffloadingManager.attach counts epoch header).index g)
      ((SlabOffloadingManager.attach counts epoch header).free g)
      (SlabOffloadingManager.attach counts epoch header).seq := by
  obtain ⟨kept, done⟩ := rebuildIndex_kept (scanned_ordered (counts g) (header g))
  have mem : ∀ {entry}, entry ∈ kept → entry.slot < counts g ∧
      header g entry.slot = some (entry.seq, entry.key) := fun inside =>
    mem_scanned.mp ((bySeq_perm _).mem_iff.mp (done.sublist.subset inside))
  have gone : ∀ {slot seq key}, slot < counts g → header g slot = some (seq, key) →
      (⟨slot, seq, key⟩ : Scanned Key) ∈ bySeq (scanned (counts g) (header g)) :=
    fun inside found => (bySeq_perm _).mem_iff.mpr (mem_scanned.mpr ⟨inside, found⟩)
  constructor
  case covers =>
    intro slot within seq key found
    obtain ⟨entry, inside, same⟩ := done.covers _ (gone within found)
    refine ⟨entry.slot, OrderedDict.get?_eq_some_iff.mpr ?_⟩
    change (key, entry.slot) ∈ (rebuildIndex (scanned (counts g) (header g))).entries
    rw [done.entries]
    exact List.mem_map.mpr ⟨entry, inside, by rw [same]⟩
  case newest =>
    intro key slot
    change (rebuildIndex (scanned (counts g) (header g))).get? key = some slot ↔ _
    rw [OrderedDict.get?_eq_some_iff, done.entries, List.mem_map]
    constructor
    · rintro ⟨entry, inside, same⟩
      cases same
      obtain ⟨within, found⟩ := mem inside
      refine ⟨within, entry.seq, found, ?_⟩
      intro other otherWithin otherSeq otherFound
      rcases done.last entry inside _ (gone otherWithin otherFound) rfl with same | before
      · have sameSeq := congrArg Scanned.seq same
        have sameSlot := congrArg Scanned.slot same
        exact .inr ⟨sameSeq, sameSlot.le⟩
      · unfold Scanned.Before at before
        dsimp only at before
        omega
    · rintro ⟨within, seq, found, newest⟩
      obtain ⟨entry, inside, same⟩ := done.covers _ (gone within found)
      dsimp only at same
      obtain ⟨entryWithin, entryFound⟩ := mem inside
      refine ⟨entry, inside, ?_⟩
      have upper := newest entry.slot entryWithin entry.seq (by rw [entryFound, same])
      rcases done.last entry inside _ (gone within found) same.symm with equal | before
      · rw [← equal]
      · unfold Scanned.Before at before
        dsimp only at before
        omega
  case order =>
    change (rebuildIndex (scanned (counts g) (header g))).entries.Pairwise _
    rw [done.entries, List.pairwise_map]
    have sorted := (bySeq_before (scanned_ordered (counts g) (header g))).sublist done.sublist
    refine sorted.imp_of_mem ?_
    intro first second firstIn secondIn before early late firstFound secondFound
    rw [(mem firstIn).2] at firstFound
    rw [(mem secondIn).2] at secondFound
    cases firstFound
    cases secondFound
    exact before
  case others =>
    intro slot
    change slot ∈ rebuildFree (counts g) (rebuildIndex (scanned (counts g) (header g))) ↔
      slot < counts g ∧ ∀ key, (rebuildIndex (scanned (counts g) (header g))).get? key ≠ some slot
    rw [rebuildFree, List.mem_filter, List.mem_range, Bool.not_eq_true', List.contains_eq_mem,
      decide_eq_false_iff_not, OrderedDict.mem_values_iff, not_exists]
  case increasing => exact List.pairwise_lt_range.sublist List.filter_sublist
  case above =>
    intro slot within found key here
    have inside : (⟨slot, found, key⟩ : Scanned Key) ∈ scanned (counts g) (header g) :=
      mem_scanned.mpr ⟨within, here⟩
    exact @le_highestSeq _ _ (fun g => scanned (counts g) (header g)) g _ inside

end DgxSpark.Slab

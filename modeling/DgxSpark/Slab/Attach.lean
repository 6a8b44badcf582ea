import DgxSpark.Slab.Operations
import Mathlib.Data.List.Sort

/-
This file embeds the index rebuild of `SlabOffloadingManager._attach`.
-/

namespace DgxSpark.Slab

/-- One valid header that the scan yields: its slot, its write sequence number and its key. -/
structure Scanned (Key : Type) where
  slot : Nat
  seq : Nat
  key : Key

variable {Key : Type} [DecidableEq Key]

/-- The scan yields the current headers of a group in slot order. -/
def scanned (count : Nat) (header : Nat → Option (Nat × Key)) : List (Scanned Key) :=
  (List.range count).filterMap fun slot => (header slot).map fun found => ⟨slot, found.1, found.2⟩

/-- `sorted` by sequence number, stable in slot order. -/
def bySeq (present : List (Scanned Key)) : List (Scanned Key) :=
  present.insertionSort fun a b => a.seq ≤ b.seq

/-- A duplicate key is popped first, so the newer write wins and goes to the end. -/
def indexHeader (index : OrderedDict Key Nat) (entry : Scanned Key) : OrderedDict Key Nat :=
  (index.erase entry.key).set entry.key entry.slot

def rebuildIndex (present : List (Scanned Key)) : OrderedDict Key Nat :=
  (bySeq present).foldl indexHeader .empty

/-- The free list takes every slot that the rebuilt index does not use. -/
def rebuildFree (count : Nat) (index : OrderedDict Key Nat) : List Nat :=
  (List.range count).filter fun slot => !index.values.contains slot

/-- The highest sequence number that the rebuild reads. -/
def highestSeq {groups : Nat} (present : Fin groups → List (Scanned Key)) : Nat :=
  (List.finRange groups).foldl (fun seq g => (present g).foldl (fun seq entry => max seq entry.seq) seq) 0

/-- The manager of a fresh process once the scan of rank 0 gave the headers of the epoch. -/
def SlabOffloadingManager.attach {groups : Nat} (counts : Fin groups → Nat) (epoch : Int)
    (header : Fin groups → Nat → Option (Nat × Key)) : SlabOffloadingManager Key groups where
  counts := counts
  index g := rebuildIndex (scanned (counts g) (header g))
  free g := rebuildFree (counts g) (rebuildIndex (scanned (counts g) (header g)))
  inflightStore := .empty
  inflightLoad := .empty
  condemned := .empty
  failedStore := ∅
  siblings := .empty
  seq := highestSeq fun g => scanned (counts g) (header g)
  epoch := epoch
  stats := ⟨0, 0, 0, 0, 0⟩

omit [DecidableEq Key] in
theorem scanned_slots (count : Nat) (header : Nat → Option (Nat × Key)) :
    ((scanned count header).map Scanned.slot).Sublist (List.range count) := by
  unfold scanned
  generalize List.range count = slots
  induction slots with
  | nil => exact List.Sublist.slnil
  | cons slot rest ih =>
      rw [List.filterMap_cons]
      cases header slot with
      | none => exact ih.cons slot
      | some found => exact ih.cons_cons slot

omit [DecidableEq Key] in
theorem bySeq_perm (present : List (Scanned Key)) : (bySeq present).Perm present :=
  List.perm_insertionSort _ present

/-- Every entry of the rebuilt index comes from a scanned header. -/
theorem indexHeader_entries (entries : List (Scanned Key)) :
    ∀ (index : OrderedDict Key Nat) (key : Key) (slot : Nat),
      (entries.foldl indexHeader index).get? key = some slot →
        index.get? key = some slot ∨ ∃ entry ∈ entries, entry.key = key ∧ entry.slot = slot := by
  induction entries with
  | nil => exact fun index key slot found => .inl found
  | cons head tail ih =>
      intro index key slot found
      rcases ih _ key slot found with earlier | ⟨entry, inside, same⟩
      · rw [indexHeader, OrderedDict.get?_set] at earlier
        split at earlier
        · rename_i here
          exact .inr ⟨head, List.mem_cons_self, here.symm, Option.some.inj earlier⟩
        · rename_i different
          rw [OrderedDict.get?_erase_of_ne _ different] at earlier
          exact .inl earlier
      · exact .inr ⟨entry, List.mem_cons_of_mem _ inside, same⟩

theorem rebuildIndex_entries {present : List (Scanned Key)} {key : Key} {slot : Nat}
    (found : (rebuildIndex present).get? key = some slot) :
    ∃ entry ∈ present, entry.key = key ∧ entry.slot = slot := by
  rcases indexHeader_entries _ _ key slot found with absent | ⟨entry, inside, same⟩
  · cases absent
  · exact ⟨entry, (bySeq_perm present).mem_iff.mp inside, same⟩

/-- Distinct slots in the scan give distinct slots in the rebuilt index. -/
theorem rebuildIndex_once {present : List (Scanned Key)} (distinct : (present.map Scanned.slot).Nodup)
    (slot : Nat) : (rebuildIndex present).tally (fun entry => entry.2 == slot) ≤ 1 := by
  by_contra many
  have some : 0 < (rebuildIndex present).tally fun entry => entry.2 == slot := by omega
  obtain ⟨⟨key, value⟩, inside, same⟩ := OrderedDict.tally_pos_iff.mp some
  obtain rfl : value = slot := by simpa using same
  have found := OrderedDict.get?_eq_some_iff.mpr inside
  have split := (rebuildIndex present).tally_erase key fun entry => entry.2 == value
  rw [found] at split
  simp only [beq_self_eq_true, if_true] at split
  have second : 0 < ((rebuildIndex present).erase key).tally fun entry => entry.2 == value := by omega
  obtain ⟨⟨other, again⟩, elsewhere, equal⟩ := OrderedDict.tally_pos_iff.mp second
  obtain rfl : again = value := by simpa using equal
  have present' := OrderedDict.get?_eq_some_iff.mpr elsewhere
  rw [OrderedDict.get?_erase] at present'
  split at present'
  · cases present'
  · rename_i different
    obtain ⟨first, firstIn, firstKey, firstSlot⟩ := rebuildIndex_entries found
    obtain ⟨later, laterIn, laterKey, laterSlot⟩ := rebuildIndex_entries present'
    have one := List.inj_on_of_nodup_map distinct firstIn laterIn (firstSlot.trans laterSlot.symm)
    exact different (by rw [← laterKey, ← firstKey, one])

theorem attach_copies {groups : Nat} (group : Key → Fin groups) (counts : Fin groups → Nat) (epoch : Int)
    (header : Fin groups → Nat → Option (Nat × Key)) (g : Fin groups) (slot : Nat) :
    (SlabOffloadingManager.attach counts epoch header).copies group g slot =
      if slot < counts g then 1 else 0 := by
  have sublist := scanned_slots (counts g) (header g)
  have once := rebuildIndex_once (List.nodup_range.sublist sublist) slot
  have free : (rebuildFree (counts g) (rebuildIndex (scanned (counts g) (header g)))).count slot =
      if slot < counts g ∧ slot ∉ (rebuildIndex (scanned (counts g) (header g))).values then 1 else 0 := by
    rw [rebuildFree, (List.nodup_range.filter _).count]
    simp
  have whole : (SlabOffloadingManager.attach counts epoch header).copies group g slot =
      (rebuildFree (counts g) (rebuildIndex (scanned (counts g) (header g)))).count slot +
        (rebuildIndex (scanned (counts g) (header g))).tally fun entry => entry.2 == slot := by
    simp [SlabOffloadingManager.attach, SlabOffloadingManager.copies, SlabOffloadingManager.assigned]
  rw [whole, free]
  by_cases indexed : slot ∈ (rebuildIndex (scanned (counts g) (header g))).values
  · obtain ⟨key, found⟩ := OrderedDict.mem_values_iff.mp indexed
    obtain ⟨entry, inside, _, same⟩ := rebuildIndex_entries found
    have inRange := List.mem_range.mp (sublist.subset (List.mem_map.mpr ⟨entry, inside, same⟩))
    have positive : 0 < (rebuildIndex (scanned (counts g) (header g))).tally fun entry => entry.2 == slot :=
      OrderedDict.tally_pos_of_get? found (by simp)
    rw [if_neg (fun both => both.2 indexed), if_pos inRange]
    omega
  · have none : (rebuildIndex (scanned (counts g) (header g))).tally (fun entry => entry.2 == slot) = 0 := by
      by_contra some
      obtain ⟨entry, inside, same⟩ := OrderedDict.tally_pos_iff.mp (Nat.pos_of_ne_zero some)
      exact indexed (List.mem_map.mpr ⟨entry, inside, by simpa using same⟩)
    rw [none, Nat.add_zero]
    simp only [indexed, not_false_eq_true, and_true]

/-- A freshly attached manager has every slot in exactly one place and no load. -/
theorem attach_custody {groups : Nat} (group : Key → Fin groups) (counts : Fin groups → Nat) (epoch : Int)
    (header : Fin groups → Nat → Option (Nat × Key)) :
    (SlabOffloadingManager.attach counts epoch header).Custody group [] where
  once g slot := by
    rw [attach_copies]
    split <;> omega
  within g slot outside := by
    rw [attach_copies]
    exact if_neg (Nat.not_lt.mpr outside)
  apart key inside := by cases inside
  covered key := Nat.zero_le _
  guarded key slot inside := by cases inside

end DgxSpark.Slab

import Mathlib.Data.Finset.Card
import Mathlib.Data.Finset.Union
import Mathlib.Data.Multiset.Sort
import Mathlib.Data.Set.Function

/-
This file defines the choices of a number of items with the largest scores, under any tie-break, and says
how such choices are made from the choices of shards.
-/

namespace DgxSpark.Library

variable {Item Other Score : Type} [DecidableEq Item] [DecidableEq Other] [LinearOrder Score]

/-- A choice of the items with the largest scores, as many as there are places. -/
structure IsTop (score : Item → Score) (places : Nat) (items top : Finset Item) : Prop where
  subset : top ⊆ items
  card : top.card = min places items.card
  largest : ∀ inside ∈ top, ∀ outside ∈ items, outside ∉ top → score outside ≤ score inside

/-- The largest scores, with their multiplicities. -/
def largestScores (places : Nat) (scores : Multiset Score) : Multiset Score :=
  ((scores.sort (· ≥ ·)).take places : List Score)

namespace IsTop

variable {score : Item → Score} {places : Nat} {items top : Finset Item}

/-- The scores of a choice are the largest ones. -/
theorem scores_eq (chosen : IsTop score places items top) :
    top.val.map score = largestScores places (items.val.map score) := by
  have parts : top.val.map score + (items \ top).val.map score = items.val.map score := by
    rw [← Multiset.map_add, Finset.sdiff_val, add_tsub_cancel_of_le (Finset.val_le_iff.mpr chosen.subset)]
  have sorted : (((top.val.map score).sort (· ≥ ·)) ++ (((items \ top).val.map score).sort (· ≥ ·))).Pairwise
      (· ≥ ·) := by
    rw [List.pairwise_append]
    refine ⟨Multiset.pairwise_sort _ _, Multiset.pairwise_sort _ _, ?_⟩
    intro high highIn low lowIn
    rw [Multiset.mem_sort, Multiset.mem_map] at highIn lowIn
    obtain ⟨inside, insideIn, rfl⟩ := highIn
    obtain ⟨outside, outsideIn, rfl⟩ := lowIn
    obtain ⟨member, left⟩ := Finset.mem_sdiff.mp outsideIn
    exact chosen.largest inside insideIn outside member left
  have whole : (items.val.map score).sort (· ≥ ·) =
      ((top.val.map score).sort (· ≥ ·)) ++ (((items \ top).val.map score).sort (· ≥ ·)) := by
    apply List.Perm.eq_of_pairwise' (Multiset.pairwise_sort _ _) sorted
    rw [← Multiset.coe_eq_coe, ← Multiset.coe_add, Multiset.sort_eq, Multiset.sort_eq, Multiset.sort_eq, parts]
  have length : ((top.val.map score).sort (· ≥ ·)).length = top.card := by simp
  rw [largestScores, whole]
  by_cases room : items.card ≤ places
  · have everything : top = items := by
      apply Finset.eq_of_subset_of_card_le chosen.subset
      rw [chosen.card, Nat.min_eq_right room]
    subst everything
    rw [Finset.sdiff_self, List.take_of_length_le]
    · simp
    · simpa using room
  · have full : top.card = places := by
      rw [chosen.card]
      omega
    rw [List.take_append_of_le_length (by omega), List.take_of_length_le (by omega), Multiset.sort_eq]

/-- What is left of a choice above a threshold is a choice of the items above it. -/
theorem filter (chosen : IsTop score places items top) (above : Item → Prop) [DecidablePred above]
    (upward : ∀ low high, score low ≤ score high → above low → above high) :
    IsTop score places (items.filter above) (top.filter above) := by
  constructor
  · exact Finset.filter_subset_filter _ chosen.subset
  · have within : (top.filter above).card ≤ (items.filter above).card :=
      Finset.card_le_card (Finset.filter_subset_filter _ chosen.subset)
    have fits : (top.filter above).card ≤ places := by
      have := Finset.card_filter_le top above
      have := chosen.card
      omega
    by_cases low : ∃ inside ∈ top, ¬above inside
    · obtain ⟨inside, member, below⟩ := low
      have same : top.filter above = items.filter above := by
        apply Finset.Subset.antisymm (Finset.filter_subset_filter _ chosen.subset)
        intro item itemIn
        obtain ⟨itemIn, high⟩ := Finset.mem_filter.mp itemIn
        apply Finset.mem_filter.mpr
        refine ⟨?_, high⟩
        by_contra left
        exact below (upward item inside (chosen.largest inside member item itemIn left) high)
      rw [← same, Nat.min_eq_right fits]
    · have all : top.filter above = top := by
        apply Finset.filter_true_of_mem
        intro inside member
        by_contra below
        exact low ⟨inside, member, below⟩
      rw [all] at within ⊢
      have := chosen.card
      have := Finset.card_filter_le items above
      omega
  · intro inside member outside outsideIn left
    obtain ⟨member, -⟩ := Finset.mem_filter.mp member
    obtain ⟨outsideIn, high⟩ := Finset.mem_filter.mp outsideIn
    apply chosen.largest inside member outside outsideIn
    intro also
    exact left (Finset.mem_filter.mpr ⟨also, high⟩)

omit [DecidableEq Item] in
/-- A choice under other names. -/
theorem image {rename : Item → Other} {otherScore : Other → Score} (chosen : IsTop score places items top)
    (injective : Set.InjOn rename items) (same : ∀ item ∈ items, otherScore (rename item) = score item) :
    IsTop otherScore places (items.image rename) (top.image rename) := by
  constructor
  · exact Finset.image_subset_image chosen.subset
  · rw [Finset.card_image_of_injOn injective, Finset.card_image_of_injOn
      (injective.mono (Finset.coe_subset.mpr chosen.subset)), chosen.card]
  · intro inside insideIn outside outsideIn left
    obtain ⟨insideItem, member, rfl⟩ := Finset.mem_image.mp insideIn
    obtain ⟨outsideItem, among, rfl⟩ := Finset.mem_image.mp outsideIn
    rw [same insideItem (chosen.subset member), same outsideItem among]
    apply chosen.largest insideItem member outsideItem among
    intro also
    exact left (Finset.mem_image_of_mem rename also)

/-- A choice among the choices of shards is a choice among all items. -/
theorem exchange {Shard : Type} {shards : Finset Shard} {shard kept : Shard → Finset Item}
    (local_ : ∀ index ∈ shards, IsTop score places (shard index) (kept index))
    (chosen : IsTop score places (shards.biUnion kept) top) : IsTop score places (shards.biUnion shard) top := by
  have within : shards.biUnion kept ⊆ shards.biUnion shard :=
    Finset.biUnion_mono fun index member => (local_ index member).subset
  -- A shard that has left an item out has filled its places with items that are no smaller.
  have crowded : ∀ item ∈ shards.biUnion shard, item ∉ shards.biUnion kept →
      ∃ index ∈ shards, (kept index).card = places ∧ ∀ inside ∈ kept index, score item ≤ score inside := by
    intro item member left
    obtain ⟨index, indexIn, here⟩ := Finset.mem_biUnion.mp member
    have out : item ∉ kept index := fun also => left (Finset.mem_biUnion.mpr ⟨index, indexIn, also⟩)
    refine ⟨index, indexIn, ?_, fun inside insideIn => (local_ index indexIn).largest inside insideIn item here out⟩
    have card := (local_ index indexIn).card
    have fewer : (kept index).card < (shard index).card :=
      Finset.card_lt_card (Finset.ssubset_iff_subset_ne.mpr
        ⟨(local_ index indexIn).subset, fun same => out (same ▸ here)⟩)
    omega
  constructor
  · exact chosen.subset.trans within
  · rw [chosen.card]
    by_cases all : shards.biUnion shard ⊆ shards.biUnion kept
    · rw [Finset.Subset.antisymm within all]
    · obtain ⟨item, member, left⟩ := Finset.not_subset.mp all
      obtain ⟨index, indexIn, full, -⟩ := crowded item member left
      have enough : places ≤ (shards.biUnion kept).card := by
        rw [← full]
        exact Finset.card_le_card (Finset.subset_biUnion_of_mem kept indexIn)
      have := Finset.card_le_card within
      omega
  · intro inside insideIn outside outsideIn left
    by_cases candidate : outside ∈ shards.biUnion kept
    · exact chosen.largest inside insideIn outside candidate left
    · obtain ⟨index, indexIn, full, larger⟩ := crowded outside outsideIn candidate
      by_cases taken : kept index ⊆ top
      · have same : kept index = top := by
          apply Finset.eq_of_subset_of_card_le taken
          rw [full, chosen.card]
          exact Nat.min_le_left _ _
        apply larger
        rw [same]
        exact insideIn
      · obtain ⟨other, otherIn, passed⟩ := Finset.not_subset.mp taken
        calc
          score outside ≤ score other := larger other otherIn
          _ ≤ score inside :=
            chosen.largest inside insideIn other (Finset.mem_biUnion.mpr ⟨index, indexIn, otherIn⟩) passed

end IsTop

end DgxSpark.Library

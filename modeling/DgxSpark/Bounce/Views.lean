import DgxSpark.Bounce.Routing
import Mathlib.Data.List.GetD

/-
This file says what a read leaves in the views of a bounce slot, and which pages a copy moves for the
keys of a chunk.
-/

namespace DgxSpark.Bounce.BounceController

variable {Key : Type} {groups : Nat} {setup : Setup Key groups}

/-! ### Reads into views -/

theorem putRow_other (bounce : Buffer) {tensor slot other otherSlot : Nat} (data : List UInt8) (offset : Nat)
    (different : ¬(other = tensor ∧ otherSlot = slot)) :
    putRow bounce tensor slot data other otherSlot offset = bounce other otherSlot offset := if_neg different

theorem putRow_here (bounce : Buffer) (tensor slot : Nat) (data : List UInt8) (offset : Nat) :
    putRow bounce tensor slot data tensor slot offset = data.getD offset (bounce tensor slot offset) :=
  if_pos ⟨rfl, rfl⟩

/-- A read changes no other slot. -/
theorem scatter_other (layout : List (Nat × Nat)) (bytes : List UInt8) (bounce : Buffer) {slot other : Nat}
    (different : other ≠ slot) (tensor offset : Nat) :
    scatter bounce slot layout bytes tensor other offset = bounce tensor other offset := by
  induction layout generalizing bounce bytes with
  | nil => rfl
  | cons view rest ih =>
      rw [scatter, ih]
      exact putRow_other bounce _ offset fun same => different same.2

/-- A byte that no view covers stays. -/
theorem scatter_uncovered (layout : List (Nat × Nat)) (bytes : List UInt8) (bounce : Buffer)
    (slot : Nat) {tensor offset : Nat} (outside : ∀ view ∈ layout, view.1 = tensor → view.2 ≤ offset) :
    scatter bounce slot layout bytes tensor slot offset = bounce tensor slot offset := by
  induction layout generalizing bounce bytes with
  | nil => rfl
  | cons view rest ih =>
      rw [scatter, ih _ _ fun other inside => outside other (List.mem_cons_of_mem _ inside)]
      by_cases same : tensor = view.1
      · subst same
        rw [putRow_here, List.getD_eq_default]
        rw [List.length_take]
        exact (Nat.min_le_left _ _).trans (outside view List.mem_cons_self rfl)
      · exact putRow_other bounce _ offset fun both => same both.1

/-- A byte that a view covers is one that was read, whatever was there before. -/
theorem scatter_covered (layout : List (Nat × Nat)) (bytes : List UInt8) (bounce other : Buffer)
    (slot otherSlot : Nat) {tensor offset : Nat} (fits : bytes.length = (layout.map Prod.snd).sum)
    (covered : ∃ view ∈ layout, view.1 = tensor ∧ offset < view.2) :
    scatter bounce slot layout bytes tensor slot offset =
      scatter other otherSlot layout bytes tensor otherSlot offset := by
  induction layout generalizing bounce other bytes with
  | nil => exact absurd covered (by simp)
  | cons view rest ih =>
      rw [List.map_cons, List.sum_cons] at fits
      rw [scatter, scatter]
      by_cases later : ∃ view ∈ rest, view.1 = tensor ∧ offset < view.2
      · exact ih _ _ _ (by rw [List.length_drop]; omega) later
      · -- the head view wrote the byte and no later one touches it
        obtain ⟨here, inside, same, within⟩ := covered
        have first : here = view := by
          rcases List.mem_cons.mp inside with equal | there
          · exact equal
          · exact absurd ⟨here, there, same, within⟩ later
        subst first
        subst same
        have outside : ∀ next ∈ rest, next.1 = here.1 → next.2 ≤ offset := fun next there equal =>
          Nat.le_of_not_lt fun below => later ⟨next, there, equal, below⟩
        rw [scatter_uncovered _ _ _ _ outside, scatter_uncovered _ _ _ _ outside, putRow_here, putRow_here]
        have enough : offset < (bytes.take here.2).length := by
          rw [List.length_take]
          omega
        rw [List.getD_eq_getElem _ _ enough, List.getD_eq_getElem _ _ enough]

variable (setup) in
/-- The page of a tensor after a read of the bytes into the views of a key. -/
def pageOf (key : Key) (bytes : List UInt8) (tensor nbytes : Nat) : List UInt8 :=
  row (fillViews setup (fun _ _ _ => 0) key 0 bytes) tensor 0 nbytes

variable (setup) in
/-- The views of a key at a slot hold the bytes of a read. -/
def Holds (bounce : Buffer) (key : Key) (slot : Nat) (bytes : List UInt8) : Prop :=
  ∀ view ∈ setup.groupLayout (setup.group key), row bounce view.1 slot view.2 = pageOf setup key bytes view.1 view.2

theorem fillViews_holds (bounce : Buffer) {key : Key} (slot : Nat) {bytes : List UInt8}
    (fits : bytes.length = blockNbytes setup key) :
    Holds setup (fillViews setup bounce key slot bytes) key slot bytes := by
  intro view inside
  refine List.map_congr_left fun offset bound => ?_
  exact scatter_covered _ _ _ _ _ _ fits ⟨view, inside, rfl, List.mem_range.mp bound⟩

theorem fillViews_other (bounce : Buffer) (key : Key) (bytes : List UInt8) {slot other : Nat}
    (different : other ≠ slot) (tensor offset : Nat) :
    fillViews setup bounce key slot bytes tensor other offset = bounce tensor other offset :=
  scatter_other _ _ _ different tensor offset

theorem Holds.congr {bounce other : Buffer} {key : Key} {slot : Nat} {bytes : List UInt8}
    (holds : Holds setup bounce key slot bytes)
    (same : ∀ tensor offset, other tensor slot offset = bounce tensor slot offset) :
    Holds setup other key slot bytes := by
  intro view inside
  rw [← holds view inside]
  exact List.map_congr_left fun offset _ => same view.1 offset

/-- With one view for a tensor, its page is the piece of the bytes at the view's place. -/
theorem pageOf_eq_slice {key : Key} {bytes : List UInt8} {before later : List (Nat × Nat)} {tensor nbytes : Nat}
    (layout : setup.groupLayout (setup.group key) = before ++ (tensor, nbytes) :: later)
    (fits : bytes.length = blockNbytes setup key)
    (single : ∀ view ∈ before ++ later, view.1 ≠ tensor) :
    pageOf setup key bytes tensor nbytes = (bytes.drop (before.map Prod.snd).sum).take nbytes := by
  rw [blockNbytes, layout] at fits
  rw [pageOf, fillViews, layout]
  have slice : ∀ (front : List (Nat × Nat)) (bytes : List UInt8) (bounce : Buffer),
      (∀ view ∈ front ++ later, view.1 ≠ tensor) →
        bytes.length = ((front ++ (tensor, nbytes) :: later).map Prod.snd).sum →
          row (scatter bounce 0 (front ++ (tensor, nbytes) :: later) bytes) tensor 0 nbytes =
            (bytes.drop (front.map Prod.snd).sum).take nbytes := by
    intro front
    induction front with
    | nil =>
        intro bytes bounce apart length
        rw [List.nil_append, scatter]
        have long : nbytes ≤ bytes.length := by
          rw [length, List.nil_append, List.map_cons, List.sum_cons]
          exact Nat.le_add_right _ _
        refine List.ext_getElem (by simp [row, long]) fun offset left right => ?_
        have within : offset < nbytes := by simpa [row] using left
        have outside : ∀ view ∈ later, view.1 = tensor → view.2 ≤ offset := fun view inside same =>
          absurd same (apart view inside)
        simp only [row, List.getElem_map, List.getElem_range]
        rw [scatter_uncovered _ _ _ _ outside, putRow_here]
        have bound : offset < (bytes.take nbytes).length := by
          rw [List.length_take]
          omega
        rw [List.getD_eq_getElem _ _ bound]
        simp
    | cons view rest ih =>
        intro bytes bounce apart length
        rw [List.cons_append, scatter, ih (bytes.drop view.2) _
          (fun other inside => apart other (List.mem_cons_of_mem _ inside)) ?_, List.map_cons, List.sum_cons,
          List.drop_drop]
        rw [List.cons_append, List.map_cons, List.sum_cons] at length
        rw [List.length_drop]
        omega
  exact slice before bytes _ single fits

/-! ### The pages of a chunk -/

variable (setup) in
/-- The copy handler moves, block by block, the tensors of the group that the sizes assign to it. -/
def PagesByGroup : Prop := ∀ (spec : GPULoadStoreSpec groups) (slots : List Nat),
  spec.blockIds.length = slots.length → ∑ g, spec.groupSizes g = slots.length →
    (setup.pages spec slots).Perm (groupPages setup.groupLayout spec slots)

/-- The groups of a chunk by its sizes: each group as often as it occurs. -/
def owners (labels : List (Fin groups)) : List (Fin groups) :=
  (List.finRange groups).flatMap fun g => List.replicate (labels.count g) g

theorem owners_perm (labels : List (Fin groups)) : (owners labels).Perm labels := by
  refine List.perm_iff_count.mpr fun g => ?_
  rw [owners, List.count_flatMap]
  have each : List.map (List.count g ∘ fun other => List.replicate (labels.count other) other)
      (List.finRange groups) = (List.finRange groups).map fun other => if other = g then labels.count g else 0 := by
    refine List.map_congr_left fun other _ => ?_
    rw [Function.comp_apply, List.count_replicate]
    by_cases same : other = g
    · simp [same]
    · simp [same]
  rw [each, ← Fin.sum_univ_def, Finset.sum_ite_eq', if_pos (Finset.mem_univ g)]

/-- Keys listed group by group are split by the sizes into their own groups. -/
theorem owners_of_sorted {labels : List (Fin groups)} (sorted : labels.Pairwise (· ≤ ·)) : owners labels = labels := by
  refine List.Perm.eq_of_pairwise' ?_ sorted (owners_perm labels)
  rw [owners, List.pairwise_flatMap]
  refine ⟨fun g _ => List.pairwise_replicate.mpr (.inr le_rfl), ?_⟩
  refine (List.pairwise_lt_finRange groups).imp fun below one inside other there => ?_
  rw [List.eq_of_mem_replicate inside, List.eq_of_mem_replicate there]
  exact below.le

theorem groupPages_gpuSpec (keys : List Key) (gpuIds : List Int) (slots : List Nat) :
    groupPages setup.groupLayout (gpuSpec setup keys gpuIds) slots =
      ((owners (keys.map setup.group)).zip (slots.zip gpuIds)).flatMap fun (g, slot, block) =>
        (setup.groupLayout g).map fun (tensor, nbytes) => ⟨tensor, nbytes, slot, block⟩ := by
  have sizes : ∀ g, (keys.countP fun key => setup.group key == g) = (keys.map setup.group).count g := by
    intro g
    rw [List.count, List.countP_map]
    rfl
  simp only [groupPages, gpuSpec, owners, sizes]

theorem sizes_sum (keys : List Key) (gpuIds : List Int) :
    ∑ g, (gpuSpec setup keys gpuIds).groupSizes g = keys.length := by
  have whole := (owners_perm (keys.map setup.group)).length_eq
  rw [owners, List.length_flatMap, List.length_map] at whole
  rw [← whole, Fin.sum_univ_def]
  refine congrArg List.sum (List.map_congr_left fun g _ => ?_)
  rw [List.length_replicate, List.count, List.countP_map]
  rfl

/-- Every page of a chunk is in one of its slots. -/
theorem page_slot (byGroup : PagesByGroup setup) {keys : List Key} {gpuIds : List Int} {slots : List Nat}
    (keyCount : keys.length = slots.length) (idCount : gpuIds.length = slots.length) {copy : PageCopy}
    (listed : copy ∈ setup.pages (gpuSpec setup keys gpuIds) slots) : copy.slot ∈ slots := by
  have grouped := (byGroup _ slots idCount ((sizes_sum keys gpuIds).trans keyCount)).mem_iff.mp listed
  rw [groupPages_gpuSpec, List.mem_flatMap] at grouped
  obtain ⟨⟨g, slot, block⟩, row, inside⟩ := grouped
  obtain ⟨view, -, rfl⟩ := List.mem_map.mp inside
  exact (List.of_mem_zip (List.of_mem_zip row).2).1

/-- For keys listed group by group, the pages are those of each key's group between its slot and its
block. -/
theorem mem_pages_iff (byGroup : PagesByGroup setup) {items : List (Key × Int)} {slots : List Nat}
    (count : items.length = slots.length)
    (sorted : (items.map fun item => setup.group item.1).Pairwise (· ≤ ·)) {copy : PageCopy} :
    copy ∈ setup.pages (gpuSpec setup (items.map Prod.fst) (items.map Prod.snd)) slots ↔
      ∃ row ∈ items.zip slots, ∃ view ∈ setup.groupLayout (setup.group row.1.1),
        copy = ⟨view.1, view.2, row.2, row.1.2⟩ := by
  have labels : (items.map Prod.fst).map setup.group = items.map fun item => setup.group item.1 :=
    List.map_map
  have grouped := byGroup (gpuSpec setup (items.map Prod.fst) (items.map Prod.snd)) slots
    ((List.length_map _).trans count) (by rw [sizes_sum, List.length_map, count])
  rw [grouped.mem_iff, groupPages_gpuSpec, labels, owners_of_sorted sorted, List.mem_flatMap]
  have rows : (items.map fun item => setup.group item.1).zip (slots.zip (items.map Prod.snd)) =
      (items.zip slots).map fun row => (setup.group row.1.1, row.2, row.1.2) := by
    refine List.ext_getElem (by simp [count]) fun place left right => ?_
    simp
  rw [rows]
  constructor
  · rintro ⟨triple, inside, there⟩
    obtain ⟨row, listed, rfl⟩ := List.mem_map.mp inside
    obtain ⟨view, viewed, rfl⟩ := List.mem_map.mp there
    exact ⟨row, listed, view, viewed, rfl⟩
  · rintro ⟨row, listed, view, viewed, rfl⟩
    exact ⟨_, List.mem_map.mpr ⟨row, listed, rfl⟩, List.mem_map.mpr ⟨view, viewed, rfl⟩⟩

end DgxSpark.Bounce.BounceController

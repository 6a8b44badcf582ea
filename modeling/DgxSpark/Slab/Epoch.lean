import DgxSpark.Slab.Attach
import DgxSpark.Slab.SlabIo

/-
This file gives the epoch that `_attach` goes on with, and the index it rebuilds from the headers
of rank 0 under that epoch.
-/

namespace DgxSpark.Slab

/-- The epoch of an attached manager: the published one, raised by a pending reset, or one above
everything on the disk when there is no usable epoch file. -/
def attachEpoch (published : Option Int) (pendingReset : Bool) (top : Option Nat) : Int :=
  match published with
  | some epoch => if pendingReset then epoch + 1 else epoch
  | none =>
      match top with
      | none => 0
      | some top => top + 1

variable {groups : Nat}

/-- What the rebuild takes from a slot: sequence number and key of a header of the epoch. -/
def currentEntry (view : Fin groups → Nat → Option Header) (epoch : Int) (g : Fin groups) (slot : Nat) :
    Option (Nat × List UInt8) :=
  (view g slot).bind fun header =>
    if header.group ≠ g ∨ (header.epoch : Int) ≠ epoch then none else some (header.seq, header.key)

/-- The valid headers among the first slots. -/
def listing (count : Nat) (header : Nat → Option Header) : List (Nat × Header) :=
  (List.range count).filterMap fun slot => (header slot).map fun found => (slot, found)

/-- The highest epoch among the valid headers of all groups. -/
def topEpoch (counts : Fin groups → Nat) (view : Fin groups → Nat → Option Header) : Option Nat :=
  (List.finRange groups).foldl (fun best group =>
    (listing (counts group) (view group)).foldl (fun best found => raiseEpoch best found.2) best) none

/-- The manager that `_attach` makes of the epoch file and the headers of rank 0. -/
def SlabOffloadingManager.attachView (counts : Fin groups → Nat)
    (view : Fin groups → Nat → Option Header) (published : Option Int) (pendingReset rebuild : Bool) :
    SlabOffloadingManager (List UInt8) groups :=
  let epoch := attachEpoch published pendingReset (topEpoch counts view)
  .attach counts epoch fun g slot => if rebuild then currentEntry view epoch g slot else none

/-! ### The scans see every header -/

/-- A scan that stops early misses nothing when nothing behind its stop counts. -/
theorem filterMap_takeWhile {Item Result : Type} {items : List Item} {go : Item → Bool}
    {found : Item → Option Result} (stop : ∀ item, go item = false → found item = none)
    (behind : items.Pairwise fun first later => go first = false → go later = false) :
    (items.takeWhile go).filterMap found = items.filterMap found := by
  induction items with
  | nil => rfl
  | cons item rest ih =>
      obtain ⟨after, later⟩ := List.pairwise_cons.mp behind
      cases here : go item with
      | true => rw [List.takeWhile_cons_of_pos here, List.filterMap_cons, List.filterMap_cons, ih later]
      | false =>
          rw [List.takeWhile_cons_of_neg (by simp [here])]
          symm
          rw [List.filterMap_nil, List.filterMap_eq_nil_iff]
          intro other inside
          rcases List.mem_cons.mp inside with same | tail
          · exact stop other (same ▸ here)
          · exact stop other (after other tail here)

namespace SlabIo

variable {io : SlabIo groups} {disk : Disk groups}

/-- The scan lists the valid headers of all slots. -/
theorem headers_eq_listing (g : Fin groups) :
    io.headers disk g = listing (io.slotCounts g) (io.view disk g) := by
  apply filterMap_takeWhile
  · intro slot short
    have small : ((disk g).pread slabHeaderBytes (slot * io.slotBytes g)).length < slabHeaderBytes := by
      simpa using short
    rw [SlabIo.view, parseHeader, if_pos small]
    rfl
  · refine List.pairwise_lt_range.imp ?_
    intro first later before short
    have below : first * io.slotBytes g ≤ later * io.slotBytes g := Nat.mul_le_mul_right _ before.le
    simp only [decide_eq_false_iff_not, Medium.pread_length] at short ⊢
    omega

theorem maxEpoch_eq_topEpoch : io.maxEpoch disk = topEpoch io.slotCounts (io.view disk) := by
  simp only [SlabIo.maxEpoch, topEpoch, headers_eq_listing]

/-- The scan of an epoch yields the entries that the rebuild sorts. -/
theorem scan_eq_scanned (g : Fin groups) (epoch : Int) :
    io.scan disk g epoch = (scanned (io.slotCounts g) (currentEntry (io.view disk) epoch g)).map
      fun entry => (entry.slot, entry.seq, entry.key) := by
  rw [SlabIo.scan, headers_eq_listing, listing, scanned, List.filterMap_filterMap, List.map_filterMap]
  congr 1
  funext slot
  unfold currentEntry
  cases io.view disk g slot with
  | none => rfl
  | some header =>
      simp only [Option.map_some, Option.bind_some]
      split
      · rfl
      · rfl

end SlabIo

/-- The dictionary of a list of tagged items gives every tag its item. -/
theorem find?_tagged {Item : Type} (found : Nat → Option Item) (slots : List Nat) (slot : Nat) :
    ((slots.filterMap fun slot => (found slot).map fun item => (slot, item)).find?
      fun entry => entry.1 == slot) =
        if slot ∈ slots then (found slot).map fun item => (slot, item) else none := by
  induction slots with
  | nil => rfl
  | cons head tail ih =>
      rw [List.filterMap_cons]
      by_cases same : head = slot
      · subst same
        cases here : found head with
        | none =>
            rw [Option.map_none, ih, here]
            simp
        | some item =>
            rw [Option.map_some, List.find?_cons_of_pos (by simp)]
            simp
      · have other : slot ≠ head := fun equal => same equal.symm
        cases here : found head with
        | none =>
            rw [Option.map_none, ih]
            simp [other]
        | some item =>
            rw [Option.map_some, List.find?_cons_of_neg (by simpa using same), ih]
            simp [other]

/-- A scan depends on the entries of its own slots only. -/
theorem scanned_congr {count : Nat} {first second : Nat → Option (Nat × List UInt8)}
    (same : ∀ slot < count, first slot = second slot) : scanned count first = scanned count second := by
  apply List.filterMap_congr
  intro slot inside
  rw [same slot (List.mem_range.mp inside)]

/-- `_attach` on the open slabs of rank 0: the scan of the epoch fills `present`. -/
def SlabOffloadingManager.attachDisk (io : SlabIo groups) (disk : Disk groups) (published : Option Int)
    (pendingReset rebuild : Bool) : SlabOffloadingManager (List UInt8) groups :=
  let epoch := attachEpoch published pendingReset (io.maxEpoch disk)
  .attach io.slotCounts epoch fun g slot =>
    if rebuild then
      ((io.scan disk g epoch).find? fun entry => entry.1 == slot).map fun entry => entry.2
    else none

theorem attachDisk_eq_attachView (io : SlabIo groups) (disk : Disk groups) (published : Option Int)
    (pendingReset rebuild : Bool) :
    SlabOffloadingManager.attachDisk io disk published pendingReset rebuild =
      .attachView io.slotCounts (io.view disk) published pendingReset rebuild := by
  unfold SlabOffloadingManager.attachDisk SlabOffloadingManager.attachView
  dsimp only
  rw [SlabIo.maxEpoch_eq_topEpoch]
  generalize attachEpoch published pendingReset (topEpoch io.slotCounts (io.view disk)) = epoch
  have same : (fun g => scanned (io.slotCounts g) fun slot =>
      if rebuild then
        ((io.scan disk g epoch).find? fun entry => entry.1 == slot).map fun entry => entry.2
      else none) = fun g => scanned (io.slotCounts g) fun slot =>
        if rebuild then currentEntry (io.view disk) epoch g slot else none := by
    funext g
    apply scanned_congr
    intro slot inside
    split
    · have tagged : io.scan disk g epoch = (List.range (io.slotCounts g)).filterMap fun slot =>
          (currentEntry (io.view disk) epoch g slot).map fun item => (slot, item) := by
        rw [SlabIo.scan_eq_scanned, scanned, List.map_filterMap]
        apply List.filterMap_congr
        intro slot _
        cases currentEntry (io.view disk) epoch g slot with
        | none => rfl
        | some item => rfl
      rw [tagged, find?_tagged, if_pos (List.mem_range.mpr inside)]
      cases currentEntry (io.view disk) epoch g slot with
      | none => rfl
      | some item => rfl
    · rfl
  have each := congrFun same
  unfold SlabOffloadingManager.attach
  simp only [each]

/-! ### Above everything on the disk -/

/-- An epoch is reached when the best one found is at least as high. -/
def Reached (best : Option Nat) (epoch : Nat) : Prop := ∃ top, best = some top ∧ epoch ≤ top

theorem raiseEpoch_here (best : Option Nat) (header : Header) :
    Reached (raiseEpoch best header) header.epoch := by
  unfold raiseEpoch
  split
  · exact ⟨header.epoch, rfl, le_refl _⟩
  case isFalse higher =>
    cases best with
    | none => exact absurd rfl higher
    | some top => exact ⟨top, rfl, by simpa using higher⟩

theorem raiseEpoch_keeps {best : Option Nat} {epoch : Nat} (header : Header)
    (reached : Reached best epoch) : Reached (raiseEpoch best header) epoch := by
  obtain ⟨top, rfl, below⟩ := reached
  unfold raiseEpoch
  split
  case isTrue higher =>
    have above : top < header.epoch := by simpa using higher
    exact ⟨header.epoch, rfl, by omega⟩
  · exact ⟨top, rfl, below⟩

theorem foldl_keeps_reached {Item : Type} {step : Option Nat → Item → Option Nat} {epoch : Nat}
    (keeps : ∀ best item, Reached best epoch → Reached (step best item) epoch)
    (items : List Item) {best : Option Nat} (reached : Reached best epoch) :
    Reached (items.foldl step best) epoch := by
  induction items generalizing best with
  | nil => exact reached
  | cons item rest ih => exact ih (keeps best item reached)

/-- A fold that reaches an epoch at one item and keeps it at every other one reaches it. -/
theorem foldl_reached {Item : Type} {step : Option Nat → Item → Option Nat} {epoch : Nat}
    (keeps : ∀ best item, Reached best epoch → Reached (step best item) epoch)
    {items : List Item} (item : Item) (inside : item ∈ items)
    (here : ∀ best, Reached (step best item) epoch) (best : Option Nat) :
    Reached (items.foldl step best) epoch := by
  obtain ⟨before, after, rfl⟩ := List.append_of_mem inside
  rw [List.foldl_append, List.foldl_cons]
  exact foldl_keeps_reached keeps after (here _)

/-- No valid header lies above the top epoch. -/
theorem topEpoch_reached {counts : Fin groups → Nat} {view : Fin groups → Nat → Option Header}
    {g : Fin groups} {slot : Nat} {header : Header} (inside : slot < counts g)
    (found : view g slot = some header) : Reached (topEpoch counts view) header.epoch := by
  have keeps : ∀ best (found : Nat × Header), Reached best header.epoch →
      Reached (raiseEpoch best found.2) header.epoch := fun best found => raiseEpoch_keeps found.2
  apply foldl_reached (fun best group => foldl_keeps_reached keeps _) g (List.mem_finRange g)
  intro best
  refine foldl_reached keeps (slot, header) ?_
    (fun best => raiseEpoch_here best header) best
  refine List.mem_filterMap.mpr ⟨slot, List.mem_range.mpr inside, ?_⟩
  rw [found]
  rfl

/-- Without a usable epoch file the epoch goes above every valid header of rank 0. -/
theorem attachView_above {counts : Fin groups → Nat} {view : Fin groups → Nat → Option Header}
    (pendingReset rebuild : Bool) {g : Fin groups} {slot : Nat} {header : Header}
    (inside : slot < counts g) (found : view g slot = some header) :
    (header.epoch : Int) <
      (SlabOffloadingManager.attachView counts view none pendingReset rebuild).epoch := by
  obtain ⟨top, best, below⟩ := topEpoch_reached inside found
  change (header.epoch : Int) < attachEpoch none pendingReset (topEpoch counts view)
  rw [best]
  change (header.epoch : Int) < (top : Int) + 1
  omega

/-- Without a usable epoch file nothing on rank 0 is indexed. -/
theorem attachView_index {counts : Fin groups → Nat} {view : Fin groups → Nat → Option Header}
    {pendingReset rebuild : Bool} (g : Fin groups) :
    (SlabOffloadingManager.attachView counts view none pendingReset rebuild).index g = .empty := by
  have nothing : ∀ slot < counts g,
      (if rebuild = true then
        currentEntry view (attachEpoch none pendingReset (topEpoch counts view)) g slot else none) =
          none := by
    intro slot inside
    split
    · unfold currentEntry
      cases found : view g slot with
      | none => rfl
      | some header =>
          have above := attachView_above pendingReset rebuild inside found
          change (header.epoch : Int) < attachEpoch none pendingReset (topEpoch counts view) at above
          exact if_pos (.inr (by omega))
    · rfl
  have empty : scanned (counts g) (fun slot => if rebuild = true then
      currentEntry view (attachEpoch none pendingReset (topEpoch counts view)) g slot else none) = [] := by
    rw [scanned, List.filterMap_eq_nil_iff]
    intro slot inside
    rw [nothing slot (List.mem_range.mp inside)]
    rfl
  change rebuildIndex (scanned (counts g) (fun slot => if rebuild = true then
      currentEntry view (attachEpoch none pendingReset (topEpoch counts view)) g slot else none)) = _
  rw [empty]
  rfl

end DgxSpark.Slab

import Mathlib.Algebra.Group.Nat.Defs
import Mathlib.Data.List.Basic
import Mathlib.Data.Nat.Log
import Mathlib.Logic.Function.Basic
import Mathlib.Order.Monotone.Basic

/-
This file models the launch of a grid of programs that store into one memory. Programs run at once, so
their stores are taken in any order.
-/

namespace DgxSpark.Library

/-- The starts of a loop over a range with a step. -/
def rangeStep (start stop step : Nat) : List Nat :=
  (List.range ((stop - start + step - 1) / step)).map fun tile => start + tile * step

/-- The lanes of a tile. -/
def arange (start width : Nat) : List Nat := (List.range width).map (start + ·)

/-- `triton.next_power_of_2`. -/
def nextPowerOf2 (size : Nat) : Nat := 2 ^ Nat.clog 2 size

theorem le_nextPowerOf2 (size : Nat) : size ≤ nextPowerOf2 size := Nat.le_pow_clog (by decide) size

variable {Place Value : Type}

/-- A store of a lane under its mask. -/
def maskedStore (mask : Prop) [Decidable mask] (place : Place) (value : Value) : List (Place × Value) :=
  if mask then [(place, value)] else []

/-- A load of a lane under its mask. -/
def maskedLoad (mask : Prop) [Decidable mask] (value other : Value) : Value := if mask then value else other

theorem mem_maskedStore {mask : Prop} [Decidable mask] {place : Place} {value : Value} {store : Place × Value} :
    store ∈ maskedStore mask place value ↔ mask ∧ store = (place, value) := by
  by_cases held : mask <;> simp [maskedStore, held]

/-- The lanes of the tiles cover the range. -/
theorem exists_lane {start stop step offset : Nat} (positive : 0 < step) (lower : start ≤ offset)
    (upper : offset < stop) : ∃ tile ∈ rangeStep start stop step, offset ∈ arange tile step := by
  have rest : (offset - start) % step < step := Nat.mod_lt _ positive
  have parts := Nat.div_add_mod (offset - start) step
  refine ⟨start + (offset - start) / step * step, ?_, ?_⟩
  · simp only [rangeStep, List.mem_map, List.mem_range]
    refine ⟨(offset - start) / step, ?_, rfl⟩
    rw [Nat.lt_div_iff_mul_lt positive, Nat.mul_comm]
    omega
  · simp only [arange, List.mem_map, List.mem_range]
    refine ⟨(offset - start) % step, rest, ?_⟩
    rw [Nat.mul_comm] at parts
    omega

theorem le_of_mem_rangeStep {start stop step tile : Nat} (member : tile ∈ rangeStep start stop step) :
    start ≤ tile := by
  simp only [rangeStep, List.mem_map] at member
  obtain ⟨index, -, rfl⟩ := member
  exact Nat.le_add_right _ _

theorem le_of_mem_arange {start width offset : Nat} (member : offset ∈ arange start width) : start ≤ offset := by
  simp only [arange, List.mem_map] at member
  obtain ⟨lane, -, rfl⟩ := member
  exact Nat.le_add_right _ _

/-- The tiles one after another are one range. -/
theorem rangeStep_flatMap_arange (start count step : Nat) :
    ((List.range count).map fun tile => start + tile * step).flatMap (fun tile => arange tile step) =
      List.range' start (count * step) := by
  induction count with
  | zero => simp
  | succ count ih =>
      rw [List.range_succ, List.map_append, List.flatMap_append, ih, Nat.succ_mul, ← List.range'_append_1]
      simp [arange, List.range'_eq_map_range]

/-- What the lanes below the end do, tile after tile, is what the range does. -/
theorem flatMap_lanes {Result : Type} (start stop step : Nat) (positive : 0 < step) (lane : Nat → List Result)
    (masked : ∀ offset, stop ≤ offset → lane offset = []) :
    (rangeStep start stop step).flatMap (fun tile => (arange tile step).flatMap lane) =
      (List.range' start (stop - start)).flatMap lane := by
  have whole := Nat.div_add_mod (stop - start + step - 1) step
  have rest := Nat.mod_lt (stop - start + step - 1) positive
  have covered : stop - start ≤ (stop - start + step - 1) / step * step := by
    rw [Nat.mul_comm]
    omega
  obtain ⟨extra, total⟩ := Nat.exists_eq_add_of_le covered
  rw [← List.flatMap_assoc, rangeStep, rangeStep_flatMap_arange, total, ← List.range'_append_1, List.flatMap_append]
  have beyond : (List.range' (start + (stop - start)) extra).flatMap lane = [] := by
    rw [List.flatMap_eq_nil_iff]
    intro offset member
    rw [List.mem_range'_1] at member
    apply masked
    omega
  rw [beyond, List.append_nil]

theorem mem_rangeStep {start stop step tile : Nat} (positive : 0 < step) :
    tile ∈ rangeStep start stop step ↔ tile < stop ∧ ∃ index, tile = start + index * step := by
  simp only [rangeStep, List.mem_map, List.mem_range, Nat.lt_div_iff_mul_lt positive]
  constructor
  · rintro ⟨index, below, rfl⟩
    rw [Nat.mul_comm] at below
    exact ⟨by rw [Nat.mul_comm]; omega, index, rfl⟩
  · rintro ⟨below, index, rfl⟩
    refine ⟨index, ?_, rfl⟩
    rw [Nat.mul_comm] at below ⊢
    omega

theorem getElem?_rangeStep {start stop step place tile : Nat} (positive : 0 < step) :
    (rangeStep start stop step)[place]? = some tile ↔ start + place * step < stop ∧ tile = start + place * step := by
  simp only [rangeStep, List.getElem?_map, Option.map_eq_some_iff, List.getElem?_eq_some_iff, List.length_range,
    List.getElem_range]
  have below : place < (stop - start + step - 1) / step ↔ start + place * step < stop := by
    rw [Nat.lt_div_iff_mul_lt positive, Nat.mul_comm]
    omega
  constructor
  · rintro ⟨_, ⟨inside, rfl⟩, rfl⟩
    exact ⟨below.mp inside, rfl⟩
  · rintro ⟨inside, rfl⟩
    exact ⟨place, ⟨below.mpr inside, rfl⟩, rfl⟩

/-- No more tiles than asked for, when so many of them are enough. -/
theorem length_rangeStep_le {stop step count : Nat} (positive : 0 < step) (enough : stop ≤ count * step) :
    (rangeStep 0 stop step).length ≤ count := by
  rw [rangeStep, List.length_map, List.length_range, ← Nat.lt_succ_iff, Nat.div_lt_iff_lt_mul positive,
    Nat.succ_mul]
  omega

/-- The tiles stand one step apart. -/
theorem rangeStep_pairwise (start stop step : Nat) :
    (rangeStep start stop step).Pairwise fun first second => first + step ≤ second := by
  rw [rangeStep, List.pairwise_map]
  refine List.pairwise_lt_range.imp ?_
  intro first second order
  have next : (first + 1) * step ≤ second * step := Nat.mul_le_mul_right step order
  rw [Nat.succ_mul] at next
  omega

/-- The pieces that the tiles cut off the range are the range. -/
theorem rangeStep_pieces (stop : Nat) {step : Nat} (positive : 0 < step) :
    ((rangeStep 0 stop step).flatMap fun tile => List.range' tile (min step (stop - tile))) = List.range stop := by
  have lanes := flatMap_lanes 0 stop step positive (fun offset => if offset < stop then [offset] else [])
    fun offset beyond => if_neg (by omega)
  have whole : (List.range' 0 (stop - 0)).flatMap (fun offset => if offset < stop then [offset] else []) =
      List.range stop := by
    rw [Nat.sub_zero, ← List.range_eq_range']
    have single : ∀ offset ∈ List.range stop, (if offset < stop then [offset] else []) = [offset] := by
      intro offset member
      exact if_pos (List.mem_range.mp member)
    rw [List.flatMap_congr single, List.flatMap_singleton']
  rw [whole] at lanes
  rw [← lanes]
  apply List.flatMap_congr
  intro tile _
  obtain ⟨excess, total⟩ := Nat.exists_eq_add_of_le (Nat.min_le_left step (stop - tile))
  have cut : arange tile step = List.range' tile (min step (stop - tile) + excess) := by
    rw [← total, arange, List.range'_eq_map_range]
  have inside : (List.range' tile (min step (stop - tile))).flatMap
      (fun offset => if offset < stop then [offset] else []) = List.range' tile (min step (stop - tile)) := by
    have single : ∀ offset ∈ List.range' tile (min step (stop - tile)),
        (if offset < stop then [offset] else []) = [offset] := by
      intro offset member
      rw [List.mem_range'_1] at member
      exact if_pos (by omega)
    rw [List.flatMap_congr single, List.flatMap_singleton']
  have beyond : (List.range' (tile + min step (stop - tile)) excess).flatMap
      (fun offset => if offset < stop then [offset] else []) = [] := by
    rw [List.flatMap_eq_nil_iff]
    intro offset member
    rw [List.mem_range'_1] at member
    exact if_neg (by omega)
  rw [cut, ← List.range'_append_1, List.flatMap_append, inside, beyond, List.append_nil]

section Segments

variable {starts : Nat → Nat}

/-- A place in consecutive segments is in one of them only. -/
theorem segment_unique (ordered : Monotone starts) {first second place : Nat} (firstLower : starts first ≤ place)
    (firstUpper : place < starts (first + 1)) (secondLower : starts second ≤ place)
    (secondUpper : place < starts (second + 1)) : first = second := by
  by_contra different
  cases Nat.lt_or_gt_of_ne different with
  | inl before =>
      have := ordered (show first + 1 ≤ second from before)
      omega
  | inr after =>
      have := ordered (show second + 1 ≤ first from after)
      omega

/-- Consecutive segments are one range. -/
theorem flatMap_segments {Result : Type} (ordered : Monotone starts) (zero : starts 0 = 0) (count : Nat)
    (place : Nat → List Result) :
    ((List.range count).flatMap fun segment =>
        (List.range' 0 (starts (segment + 1) - starts segment)).flatMap fun offset => place (starts segment + offset)) =
      (List.range (starts count)).flatMap place := by
  induction count with
  | zero => simp [zero]
  | succ count ih =>
      have step := ordered (Nat.le_succ count)
      obtain ⟨extra, total⟩ := Nat.exists_eq_add_of_le step
      rw [List.range_succ, List.flatMap_append, ih, List.flatMap_singleton, total, Nat.add_sub_cancel_left,
        List.range_add, List.flatMap_append, List.flatMap_map, ← List.range_eq_range']

/-- The places of a slice, counted from its start. -/
theorem flatMap_slice {start stop total : Nat} (within : stop ≤ total) :
    ((List.range total).flatMap fun place => if start ≤ place ∧ place < stop then [place - start] else []) =
      List.range (stop - start) := by
  obtain ⟨after, rfl⟩ := Nat.exists_eq_add_of_le within
  have beyond : ((List.range after).map (stop + ·)).flatMap
      (fun place => if start ≤ place ∧ place < stop then [place - start] else []) = [] := by
    simp [List.flatMap_eq_nil_iff]
  rw [List.range_add, List.flatMap_append, beyond, List.append_nil]
  by_cases order : start ≤ stop
  · obtain ⟨length, rfl⟩ := Nat.exists_eq_add_of_le order
    have before : (List.range start).flatMap
        (fun place => if start ≤ place ∧ place < start + length then [place - start] else []) = [] := by
      rw [List.flatMap_eq_nil_iff]
      intro place member
      rw [List.mem_range] at member
      apply if_neg
      omega
    have inside : ((List.range length).map (start + ·)).flatMap
        (fun place => if start ≤ place ∧ place < start + length then [place - start] else []) = List.range length := by
      rw [List.flatMap_map]
      have single : ∀ place ∈ List.range length,
          (if start ≤ start + place ∧ start + place < start + length then [start + place - start] else []) =
            [place] := by
        intro place member
        rw [List.mem_range] at member
        rw [if_pos (by omega), Nat.add_sub_cancel_left]
      rw [List.flatMap_congr single, List.flatMap_singleton']
    rw [List.range_add, List.flatMap_append, before, inside, Nat.add_sub_cancel_left, List.nil_append]
  · have noneInside : ∀ place, ¬(start ≤ place ∧ place < stop) := by omega
    have empty : stop - start = 0 := by omega
    simp [noneInside, empty]

end Segments

/-- Blocks of one length, one after another. -/
theorem flatMap_blocks {Result : Type} (blocks length : Nat) (value : Nat → Nat → Result) :
    ((List.range blocks).flatMap fun block => (List.range length).map (value block)) =
      (List.range (blocks * length)).map fun place => value (place / length) (place % length) := by
  induction blocks with
  | zero => simp
  | succ blocks ih =>
      rw [List.range_succ, List.flatMap_append, ih, Nat.succ_mul, List.range_add, List.map_append,
        List.flatMap_singleton, List.map_map]
      congr 1
      apply List.map_congr_left
      intro place member
      rw [List.mem_range] at member
      have positive : 0 < length := by omega
      show value blocks place = value ((blocks * length + place) / length) ((blocks * length + place) % length)
      rw [Nat.mul_comm, Nat.mul_add_div positive, Nat.mul_add_mod, Nat.div_eq_of_lt member, Nat.mod_eq_of_lt member,
        Nat.add_zero]

variable [DecidableEq Place]

/-- The memory after some stores, one after another. -/
def storeAll (memory : Place → Value) (stores : List (Place × Value)) : Place → Value :=
  stores.foldl (fun memory store => Function.update memory store.1 store.2) memory

theorem storeAll_append (memory : Place → Value) (first second : List (Place × Value)) :
    storeAll memory (first ++ second) = storeAll (storeAll memory first) second :=
  List.foldl_append

/-- A place that no store names keeps its value. -/
theorem storeAll_other {memory : Place → Value} {stores : List (Place × Value)} {place : Place}
    (other : ∀ store ∈ stores, store.1 ≠ place) : storeAll memory stores place = memory place := by
  induction stores generalizing memory with
  | nil => rfl
  | cons head rest ih =>
      show storeAll (Function.update memory head.1 head.2) rest place = memory place
      rw [ih fun store member => other store (List.mem_cons_of_mem _ member)]
      apply Function.update_of_ne
      exact (other head (List.mem_cons_self ..)).symm

/-- A place holds the value that all stores to it agree on. -/
theorem storeAll_written {memory : Place → Value} {stores : List (Place × Value)} {place : Place} {value : Value}
    (written : ∃ store ∈ stores, store.1 = place)
    (agreed : ∀ store ∈ stores, store.1 = place → store.2 = value) : storeAll memory stores place = value := by
  induction stores generalizing memory with
  | nil => simp at written
  | cons head rest ih =>
      show storeAll (Function.update memory head.1 head.2) rest place = value
      by_cases later : ∃ store ∈ rest, store.1 = place
      · apply ih later
        intro store member
        exact agreed store (List.mem_cons_of_mem _ member)
      · rw [storeAll_other fun store member same => later ⟨store, member, same⟩]
        obtain ⟨store, member, here⟩ := written
        cases List.mem_cons.mp member with
        | inl same =>
            subst same
            rw [← here, Function.update_self]
            exact agreed store (List.mem_cons_self ..) here
        | inr more => exact absurd ⟨store, more, here⟩ later

variable {Program : Type}

/-- The programs of a grid have run, their stores in any order. -/
def Launched (grid : List Program) (program : Program → List (Place × Value)) (memory final : Place → Value) : Prop :=
  ∃ stores : List (Place × Value), stores.Perm (grid.flatMap program) ∧ final = storeAll memory stores

namespace Launched

variable {grid : List Program} {program : Program → List (Place × Value)} {memory final : Place → Value}
  {place : Place} {value : Value}

/-- A place that the programs store one value to holds it. -/
theorem written (launched : Launched grid program memory final)
    (written : ∃ index ∈ grid, (place, value) ∈ program index)
    (agreed : ∀ index ∈ grid, ∀ other, (place, other) ∈ program index → other = value) : final place = value := by
  obtain ⟨stores, order, rfl⟩ := launched
  obtain ⟨index, inside, member⟩ := written
  apply storeAll_written
  · exact ⟨(place, value), order.mem_iff.mpr (List.mem_flatMap.mpr ⟨index, inside, member⟩), rfl⟩
  · rintro ⟨there, other⟩ among rfl
    obtain ⟨index, inside, member⟩ := List.mem_flatMap.mp (order.mem_iff.mp among)
    exact agreed index inside other member

/-- A place that no program stores to keeps its value. -/
theorem other (launched : Launched grid program memory final)
    (other : ∀ index ∈ grid, ∀ value, (place, value) ∉ program index) : final place = memory place := by
  obtain ⟨stores, order, rfl⟩ := launched
  apply storeAll_other
  rintro ⟨there, value⟩ among rfl
  obtain ⟨index, inside, member⟩ := List.mem_flatMap.mp (order.mem_iff.mp among)
  exact other index inside value member

/-- Any order will do for a run. -/
theorem serial (grid : List Program) (program : Program → List (Place × Value)) (memory : Place → Value) :
    Launched grid program memory (storeAll memory (grid.flatMap program)) := ⟨_, List.Perm.refl _, rfl⟩

end Launched

section Compaction

variable {Item : Type} {items : List Item} {keep : Item → Bool} {place : Nat} {item : Item}

/-- An item that is kept comes after as many kept items as are before it. -/
theorem filter_getElem?_countP (found : items[place]? = some item) (kept : keep item = true) :
    (items.filter keep)[(items.take place).countP keep]? = some item := by
  obtain ⟨inside, rfl⟩ := List.getElem?_eq_some_iff.mp found
  have split : items = items.take place ++ items[place] :: items.drop (place + 1) := by
    rw [List.getElem_cons_drop, List.take_append_drop]
  have filtered : items.filter keep = (items.take place).filter keep ++ items[place] :: (items.drop (place + 1)).filter keep := by
    conv_lhs => rw [split]
    rw [List.filter_append, List.filter_cons_of_pos kept]
  rw [filtered, List.countP_eq_length_filter, List.getElem?_append_right le_rfl, Nat.sub_self, List.getElem?_cons_zero]

/-- Every place of the kept items is that of one of them. -/
theorem exists_countP_take {target : Nat} (inside : target < (items.filter keep).length) :
    ∃ place item, items[place]? = some item ∧ keep item = true ∧ (items.take place).countP keep = target := by
  induction items generalizing target with
  | nil => cases inside
  | cons head tail ih =>
      by_cases kept : keep head = true
      · cases target with
        | zero => exact ⟨0, head, rfl, kept, rfl⟩
        | succ target =>
            rw [List.filter_cons_of_pos kept, List.length_cons] at inside
            obtain ⟨place, item, found, holds, count⟩ := ih (Nat.lt_of_succ_lt_succ inside)
            exact ⟨place + 1, item, found, holds, by rw [List.take_succ_cons, List.countP_cons_of_pos kept, count]⟩
      · rw [List.filter_cons_of_neg kept] at inside
        obtain ⟨place, item, found, holds, count⟩ := ih inside
        exact ⟨place + 1, item, found, holds, by rw [List.take_succ_cons, List.countP_cons_of_neg kept, count]⟩

end Compaction

end DgxSpark.Library

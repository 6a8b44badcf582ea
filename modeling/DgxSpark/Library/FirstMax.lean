import Mathlib.Data.List.Basic
import Mathlib.Order.BoundedOrder.Lattice
import Mathlib.Order.MinMax

/-
This file says which place of a row is its first maximum, and how the first maximum of a row is found from
those of its blocks.
-/

namespace DgxSpark.Library

section Lists

variable {Value : Type} [LinearOrder Value] [OrderBot Value]

/-- The largest of some values. -/
def maxOf (values : List Value) : Value := values.foldr max ⊥

/-- The first place of a largest value. -/
def argmaxOf (values : List Value) : Nat := values.findIdx fun value => decide (value = maxOf values)

theorem maxOf_le_iff {values : List Value} {bound : Value} : maxOf values ≤ bound ↔ ∀ value ∈ values, value ≤ bound := by
  induction values with
  | nil => simp [maxOf]
  | cons head tail ih =>
      show max head (maxOf tail) ≤ bound ↔ _
      rw [max_le_iff, ih, List.forall_mem_cons]

theorem le_maxOf {values : List Value} {value : Value} (member : value ∈ values) : value ≤ maxOf values :=
  maxOf_le_iff.mp (le_refl _) value member

theorem maxOf_mem {values : List Value} (some : values ≠ []) : maxOf values ∈ values := by
  induction values with
  | nil => exact absurd rfl some
  | cons head tail ih =>
      show max head (maxOf tail) ∈ head :: tail
      by_cases last : tail = []
      · subst last
        simp [maxOf]
      · rcases max_choice head (maxOf tail) with first | later
        · rw [first]
          exact List.mem_cons_self
        · rw [later]
          exact List.mem_cons_of_mem _ (ih last)

end Lists

section Rows

variable {Value : Type} [LinearOrder Value]

/-- A place holds a largest value of a row, and no earlier place does. -/
structure IsFirstMax (row : Nat → Value) (size place : Nat) : Prop where
  inside : place < size
  largest : ∀ other, other < size → row other ≤ row place
  first : ∀ earlier, earlier < place → row earlier < row place

theorem IsFirstMax.unique {row : Nat → Value} {size place other : Nat} (here : IsFirstMax row size place)
    (there : IsFirstMax row size other) : place = other := by
  rcases Nat.lt_trichotomy place other with before | same | after
  · exact absurd (here.largest other there.inside) (not_le.mpr (there.first place before))
  · exact same
  · exact absurd (there.largest place here.inside) (not_le.mpr (here.first other after))

theorem isFirstMax_congr {row other : Nat → Value} {size place : Nat} (same : ∀ column, column < size → row column = other column)
    (here : IsFirstMax row size place) : IsFirstMax other size place := by
  constructor
  · exact here.inside
  · intro column inside
    rw [← same column inside, ← same place here.inside]
    exact here.largest column inside
  · intro column earlier
    rw [← same column (earlier.trans here.inside), ← same place here.inside]
    exact here.first column earlier

/-- The lanes of a row have their first maximum where `argmaxOf` finds it. -/
theorem argmaxOf_isFirstMax [OrderBot Value] (row : Nat → Value) {size : Nat} (positive : 0 < size) :
    IsFirstMax row size (argmaxOf ((List.range size).map row)) ∧
      maxOf ((List.range size).map row) = row (argmaxOf ((List.range size).map row)) := by
  have nonempty : (List.range size).map row ≠ [] := by simpa using positive.ne'
  have found : ((List.range size).map row).findIdx (fun value => decide (value = maxOf ((List.range size).map row))) <
      ((List.range size).map row).length :=
    List.findIdx_lt_length.mpr ⟨_, maxOf_mem nonempty, by simp⟩
  have value := List.findIdx_getElem (w := found)
  rw [List.getElem_map, List.getElem_range, decide_eq_true_eq] at value
  have stands : row (argmaxOf ((List.range size).map row)) = maxOf ((List.range size).map row) := value
  rw [List.length_map, List.length_range] at found
  refine ⟨⟨found, ?_, ?_⟩, stands.symm⟩
  · intro other inside
    rw [stands]
    exact le_maxOf (List.mem_map_of_mem (List.mem_range.mpr inside))
  · intro earlier before
    have missed := List.not_of_lt_findIdx before
    rw [List.getElem_map, List.getElem_range, decide_eq_false_iff_not] at missed
    rw [stands]
    apply lt_of_le_of_ne _ missed
    exact le_maxOf (List.mem_map_of_mem (List.mem_range.mpr (before.trans found)))

/-- The lanes of a block; those past the end of the row hold the floor. -/
def blockRow (row : Nat → Value) (size width : Nat) (floor : Value) (block lane : Nat) : Value :=
  if block * width + lane < size then row (block * width + lane) else floor

/-- The blocks of a row, by their values; those past the last block hold the floor. -/
def paddedRow (row : Nat → Value) (size : Nat) (floor : Value) (place : Nat) : Value :=
  if place < size then row place else floor

/-- A first maximum above the floor is inside the row. -/
theorem IsFirstMax.ofPadded {row : Nat → Value} {size padded place : Nat} {floor : Value} (positive : 0 < size)
    (within : size ≤ padded) (above : ∀ column, column < size → floor < row column)
    (here : IsFirstMax (paddedRow row size floor) padded place) : IsFirstMax row size place := by
  have inside : place < size := by
    by_contra outside
    have least := here.largest 0 (positive.trans_le within)
    rw [paddedRow, paddedRow, if_pos positive, if_neg outside] at least
    exact absurd (above 0 positive) (not_lt.mpr least)
  constructor
  · exact inside
  · intro column columnInside
    have := here.largest column (columnInside.trans_le within)
    rwa [paddedRow, paddedRow, if_pos columnInside, if_pos inside] at this
  · intro column earlier
    have := here.first column earlier
    rwa [paddedRow, paddedRow, if_pos (earlier.trans inside), if_pos inside] at this

/-- The first maximum of the block with the first maximum is the first maximum of the row. -/
theorem IsFirstMax.ofBlocks {row : Nat → Value} {size width blocks block : Nat} {lane : Nat → Nat} {floor : Value}
    (positive : 0 < width) (covered : size ≤ blocks * width) (started : ∀ block, block < blocks → block * width < size)
    (above : ∀ column, column < size → floor < row column)
    (inner : ∀ block, block < blocks → IsFirstMax (blockRow row size width floor block) width (lane block))
    (outer : IsFirstMax (fun block => blockRow row size width floor block (lane block)) blocks block) :
    IsFirstMax row size (block * width + lane block) ∧
      ∀ other, other < blocks → other * width + lane other < size := by
  have lanes : ∀ other, other < blocks → other * width + lane other < size := by
    intro other inside
    by_contra outside
    have least := (inner other inside).largest 0 positive
    rw [blockRow, blockRow, Nat.add_zero, if_pos (started other inside), if_neg outside] at least
    exact absurd (above _ (started other inside)) (not_lt.mpr least)
  have here : blockRow row size width floor block (lane block) = row (block * width + lane block) :=
    if_pos (lanes block outer.inside)
  have split : ∀ column, column < size → column / width < blocks ∧ column % width < width ∧
      blockRow row size width floor (column / width) (column % width) = row column := by
    intro column inside
    have whole := Nat.div_add_mod' column width
    refine ⟨Nat.div_lt_of_lt_mul (by rw [Nat.mul_comm]; omega), Nat.mod_lt _ positive, ?_⟩
    rw [blockRow, whole, if_pos inside]
  refine ⟨⟨lanes block outer.inside, ?_, ?_⟩, lanes⟩
  · intro column inside
    obtain ⟨blockInside, laneInside, value⟩ := split column inside
    rw [← value, ← here]
    exact ((inner _ blockInside).largest _ laneInside).trans (outer.largest _ blockInside)
  · intro column earlier
    obtain ⟨blockInside, laneInside, value⟩ := split column (earlier.trans (lanes block outer.inside))
    have whole := Nat.div_add_mod' column width
    have laneBelow := (inner block outer.inside).inside
    rw [← value, ← here]
    rcases Nat.lt_trichotomy (column / width) block with before | same | after
    · exact ((inner _ blockInside).largest _ laneInside).trans_lt (outer.first _ before)
    · subst same
      exact (inner _ blockInside).first _ (by omega)
    · have := Nat.mul_le_mul_right width (Nat.succ_le_of_lt after)
      rw [Nat.succ_mul] at this
      omega

section Reduced

variable [OrderBot Value] {row : Nat → Value} {size width blocks padded : Nat} {floor : Value}

/-- A reduction finds no place past the last block where the first block reaches the floor. -/
theorem argmaxOf_padded_lt {cells : Nat → Value} (some : 0 < blocks) (within : blocks ≤ padded)
    (reaches : floor ≤ cells 0) : argmaxOf ((List.range padded).map (paddedRow cells blocks floor)) < blocks := by
  have here := (argmaxOf_isFirstMax (paddedRow cells blocks floor) (some.trans_le within)).1
  by_contra outside
  have before := here.first 0 (by omega)
  rw [paddedRow, paddedRow, if_pos some, if_neg outside] at before
  exact absurd reaches (not_le.mpr before)

/-- The reduction of a row by the maxima of its blocks finds the first maximum of the row. -/
theorem argmaxOf_blocks (positive : 0 < width) (some : 0 < blocks) (within : blocks ≤ padded)
    (covered : size ≤ blocks * width) (started : ∀ block, block < blocks → block * width < size)
    (above : ∀ column, column < size → floor < row column) {maxima : Nat → Value}
    (reduced : ∀ block, block < blocks →
      maxima block = maxOf ((List.range width).map (blockRow row size width floor block))) {block lane : Nat}
    (chosen : block = argmaxOf ((List.range padded).map (paddedRow maxima blocks floor)))
    (inner : lane = argmaxOf ((List.range width).map (blockRow row size width floor block))) :
    block < blocks ∧ lane < width ∧ IsFirstMax row size (block * width + lane) ∧
      maxOf ((List.range padded).map (paddedRow maxima blocks floor)) = row (block * width + lane) := by
  have lanes := fun other => argmaxOf_isFirstMax (blockRow row size width floor other) positive
  have reaches : ∀ other, other < blocks → floor < maxima other := by
    intro other inside
    have first := (lanes other).1.largest 0 positive
    rw [blockRow, Nat.add_zero, if_pos (started other inside)] at first
    rw [reduced other inside, (lanes other).2]
    exact (above _ (started other inside)).trans_le first
  obtain ⟨outer, value⟩ := argmaxOf_isFirstMax (paddedRow maxima blocks floor) (some.trans_le within)
  rw [← chosen] at outer value
  have inside := (outer.ofPadded some within reaches)
  have placed : IsFirstMax (fun other => blockRow row size width floor other
      (argmaxOf ((List.range width).map (blockRow row size width floor other)))) blocks block := by
    apply isFirstMax_congr _ inside
    intro other otherInside
    rw [reduced other otherInside, (lanes other).2]
  obtain ⟨here, -⟩ := IsFirstMax.ofBlocks positive covered started above (fun other _ => (lanes other).1) placed
  rw [← inner] at here
  have same : blockRow row size width floor block lane = row (block * width + lane) := if_pos here.inside
  have laneInside := (lanes block).1.inside
  rw [← inner] at laneInside
  refine ⟨inside.inside, laneInside, here, ?_⟩
  rw [value, paddedRow, if_pos inside.inside, reduced block inside.inside, (lanes block).2, ← inner, same]

end Reduced

end Rows

end DgxSpark.Library

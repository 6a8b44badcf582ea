import Mathlib.Data.List.Basic

/-
This file models memory that is written and read in pieces.
-/

namespace DgxSpark.Library

abbrev Buffer (Cell : Type) := Nat → Cell

namespace Buffer

variable {Cell : Type}

/-- The memory after a piece of data is written at a place. -/
def write (buffer : Buffer Cell) (place : Nat) (data : List Cell) : Buffer Cell := fun cell =>
  if place ≤ cell then data[cell - place]?.getD (buffer cell) else buffer cell

def read (buffer : Buffer Cell) (place length : Nat) : List Cell :=
  (List.range length).map fun cell => buffer (place + cell)

theorem write_outside {buffer : Buffer Cell} {place cell : Nat} {data : List Cell}
    (outside : cell < place ∨ place + data.length ≤ cell) : buffer.write place data cell = buffer cell := by
  unfold write
  split
  case isTrue above =>
    have beyond : data[cell - place]? = none := List.getElem?_eq_none (by omega)
    rw [beyond, Option.getD_none]
  case isFalse => rfl

theorem write_inside {buffer : Buffer Cell} {place offset : Nat} {data : List Cell} {value : Cell}
    (found : data[offset]? = some value) : buffer.write place data (place + offset) = value := by
  rw [write, if_pos (Nat.le_add_right _ _), Nat.add_sub_cancel_left, found, Option.getD_some]

@[simp] theorem write_nil (buffer : Buffer Cell) (place : Nat) : buffer.write place [] = buffer := by
  funext cell
  simp [write]

/-- A range of cells written with the values of a function. -/
theorem write_range (buffer : Buffer Cell) (place count : Nat) (value : Nat → Cell) :
    buffer.write place ((List.range count).map fun offset => value (place + offset)) =
      fun cell => if place ≤ cell ∧ cell < place + count then value cell else buffer cell := by
  funext cell
  by_cases inside : place ≤ cell ∧ cell < place + count
  · obtain ⟨offset, rfl⟩ := Nat.exists_eq_add_of_le inside.1
    have found : ((List.range count).map fun offset => value (place + offset))[offset]? = some (value (place + offset)) := by
      rw [List.getElem?_map, List.getElem?_range (by omega)]
      rfl
    rw [if_pos inside, write_inside found]
  · rw [if_neg inside]
    exact write_outside (by rw [List.length_map, List.length_range]; omega)

theorem length_read (buffer : Buffer Cell) (place length : Nat) : (buffer.read place length).length = length := by
  simp [read]

theorem getElem?_read (buffer : Buffer Cell) (place : Nat) {length cell : Nat} (inside : cell < length) :
    (buffer.read place length)[cell]? = some (buffer (place + cell)) := by
  simp [read, inside]

/-- What is read depends on the cells of the piece only. -/
theorem read_congr {first second : Buffer Cell} {place length : Nat}
    (same : ∀ cell, place ≤ cell → cell < place + length → first cell = second cell) :
    first.read place length = second.read place length := by
  apply List.map_congr_left
  intro cell member
  rw [List.mem_range] at member
  exact same (place + cell) (Nat.le_add_right _ _) (by omega)

/-- A piece of the buffer is what the data has from an offset on. -/
def Holds (buffer : Buffer Cell) (place : Nat) (data : List Cell) (offset length : Nat) : Prop :=
  ∀ cell < length, data[offset + cell]? = some (buffer (place + cell))

variable {buffer : Buffer Cell} {place offset length : Nat} {data : List Cell}

theorem holds_zero (buffer : Buffer Cell) (place : Nat) (data : List Cell) (offset : Nat) :
    buffer.Holds place data offset 0 := by
  intro cell below
  cases below

theorem Holds.read (holds : buffer.Holds place data offset length) :
    buffer.read place length = (data.drop offset).take length := by
  apply List.ext_getElem?
  intro cell
  by_cases inside : cell < length
  · rw [getElem?_read buffer place inside, List.getElem?_take_of_lt inside, List.getElem?_drop, holds cell inside]
  · rw [List.getElem?_eq_none (by rw [length_read]; omega), List.getElem?_eq_none]
    rw [List.length_take]
    omega

/-- The piece of the data that comes next makes the piece longer. -/
theorem Holds.extend (holds : buffer.Holds place data offset length) {more : Nat}
    (inside : offset + length + more ≤ data.length) :
    (buffer.write (place + length) ((data.drop (offset + length)).take more)).Holds place data offset
      (length + more) := by
  intro cell below
  by_cases old : cell < length
  · rw [write_outside (.inl (by omega))]
    exact holds cell old
  · obtain ⟨later, rfl⟩ := Nat.exists_eq_add_of_le (Nat.le_of_not_lt old)
    have found : ((data.drop (offset + length)).take more)[later]? = some (data[offset + length + later]) := by
      rw [List.getElem?_take_of_lt (by omega), List.getElem?_drop, List.getElem?_eq_getElem (by omega)]
    rw [← Nat.add_assoc place, write_inside found, ← Nat.add_assoc offset, List.getElem?_eq_getElem (by omega)]

/-- A write beside the piece leaves it. -/
theorem Holds.beside (holds : buffer.Holds place data offset length) {other : Nat} {piece : List Cell}
    (apart : place + length ≤ other ∨ other + piece.length ≤ place) :
    (buffer.write other piece).Holds place data offset length := by
  intro cell below
  rw [write_outside (by omega)]
  exact holds cell below

end Buffer

end DgxSpark.Library

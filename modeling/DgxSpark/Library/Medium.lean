import Mathlib.Tactic

namespace DgxSpark

/-- A patch gives new contents to some positions of a file. -/
abbrev Patch := Nat → Option UInt8

/-- A file as its readers see it, with the patches that are not yet durable. -/
structure Medium where
  size : Nat
  content : Nat → UInt8
  durable : Nat → UInt8
  pending : List Patch

namespace Medium

def empty : Medium where
  size := 0
  content := fun _ => 0
  durable := fun _ => 0
  pending := []

/-- The bytes from `offset` on, fewer than `count` at the end of the file. -/
def pread (medium : Medium) (count offset : Nat) : List UInt8 :=
  (List.range (min count (medium.size - offset))).map fun i => medium.content (offset + i)

/-- The patch of a write gives the written positions their bytes. -/
def writePatch (data : List UInt8) (offset : Nat) : Patch := fun position =>
  if offset ≤ position then data[position - offset]? else none

def pwrite (medium : Medium) (data : List UInt8) (offset : Nat) : Medium :=
  { medium with
    size := if data = [] then medium.size else max medium.size (offset + data.length)
    content := fun position => (writePatch data offset position).getD (medium.content position)
    pending := writePatch data offset :: medium.pending }

/-- The patch of a truncation clears everything behind the new end. -/
def truncatePatch (length : Nat) : Patch := fun position =>
  if length ≤ position then some 0 else none

def truncate (medium : Medium) (length : Nat) : Medium :=
  { medium with
    size := length
    content := fun position => (truncatePatch length position).getD (medium.content position)
    pending := truncatePatch length :: medium.pending }

/-- A sync makes the whole content durable. -/
def sync (medium : Medium) : Medium :=
  { medium with durable := medium.content, pending := [] }

/-- The byte a power loss leaves: the durable one, or the one of a chosen pending patch. -/
def survivor (medium : Medium) (choice : Nat → Option Nat) (position : Nat) : UInt8 :=
  (((choice position).bind fun index => medium.pending[index]?).bind fun patch =>
    patch position).getD (medium.durable position)

/-- A power loss keeps, drops or tears every pending patch, position by position. -/
def powerLoss (medium : Medium) (choice : Nat → Option Nat) (size : Nat) : Medium where
  size := size
  content := fun position => if position < size then medium.survivor choice position else 0
  durable := fun position => if position < size then medium.survivor choice position else 0
  pending := []

/-- Every byte that the file holds, held or may come to hold is allowed at its position. -/
structure Within (medium : Medium) (allowed : Nat → UInt8 → Prop) : Prop where
  content : ∀ position, allowed position (medium.content position)
  durable : ∀ position, allowed position (medium.durable position)
  pending : ∀ patch ∈ medium.pending, ∀ position byte, patch position = some byte →
    allowed position byte

variable {medium : Medium} {allowed more : Nat → UInt8 → Prop}

theorem Within.empty (blank : ∀ position, allowed position 0) : Medium.empty.Within allowed where
  content := blank
  durable := blank
  pending := fun _ present => absurd present List.not_mem_nil

theorem Within.mono (within : medium.Within allowed)
    (wider : ∀ position byte, allowed position byte → more position byte) :
    medium.Within more where
  content := fun position => wider _ _ (within.content position)
  durable := fun position => wider _ _ (within.durable position)
  pending := fun patch present position byte covered =>
    wider _ _ (within.pending patch present position byte covered)

/-- A change that shows a patch and keeps it pending stays within what the patch may hold. -/
theorem Within.patched (within : medium.Within allowed) {patch : Patch} (size : Nat)
    (covered : ∀ position byte, patch position = some byte → allowed position byte) :
    ({ medium with
        size := size
        content := fun position => (patch position).getD (medium.content position)
        pending := patch :: medium.pending } : Medium).Within allowed where
  content := by
    intro position
    change allowed position ((patch position).getD (medium.content position))
    cases found : patch position with
    | none => exact within.content position
    | some byte => exact covered position byte found
  durable := within.durable
  pending := by
    intro other present position byte holds
    rcases List.mem_cons.mp present with same | older
    · rw [same] at holds
      exact covered position byte holds
    · exact within.pending other older position byte holds

theorem writePatch_eq_some {data : List UInt8} {offset position : Nat} {byte : UInt8} :
    writePatch data offset position = some byte ↔
      offset ≤ position ∧ data[position - offset]? = some byte := by
  unfold writePatch
  split
  case isTrue inside => simp only [inside, true_and]
  case isFalse outside => simp only [outside, false_and, reduceCtorEq]

theorem Within.pwrite (within : medium.Within allowed) {data : List UInt8} {offset : Nat}
    (covered : ∀ index byte, data[index]? = some byte → allowed (offset + index) byte) :
    (medium.pwrite data offset).Within allowed := by
  apply within.patched
  intro position byte holds
  obtain ⟨inside, found⟩ := writePatch_eq_some.mp holds
  have moved := covered _ _ found
  rwa [Nat.add_sub_cancel' inside] at moved

theorem Within.truncate (within : medium.Within allowed) (length : Nat)
    (blank : ∀ position, allowed position 0) : (medium.truncate length).Within allowed := by
  apply within.patched
  intro position byte holds
  unfold truncatePatch at holds
  split at holds
  · cases holds
    exact blank position
  · cases holds

theorem Within.sync (within : medium.Within allowed) : medium.sync.Within allowed where
  content := within.content
  durable := within.content
  pending := fun _ present => absurd present List.not_mem_nil

theorem Within.survivor (within : medium.Within allowed) (choice : Nat → Option Nat)
    (position : Nat) : allowed position (medium.survivor choice position) := by
  unfold Medium.survivor
  cases kept : ((choice position).bind fun index => medium.pending[index]?).bind
      fun patch => patch position with
  | none => exact within.durable position
  | some byte =>
      obtain ⟨patch, chosen, covers⟩ := Option.bind_eq_some_iff.mp kept
      obtain ⟨index, -, found⟩ := Option.bind_eq_some_iff.mp chosen
      exact within.pending patch (List.mem_of_getElem? found) position byte covers

theorem Within.powerLoss (within : medium.Within allowed) (choice : Nat → Option Nat) (size : Nat)
    (blank : ∀ position, allowed position 0) : (medium.powerLoss choice size).Within allowed := by
  have kept : ∀ position, allowed position
      (if position < size then medium.survivor choice position else 0) := by
    intro position
    split
    · exact within.survivor choice position
    · exact blank position
  exact ⟨kept, kept, fun _ present => absurd present List.not_mem_nil⟩

theorem pread_length (medium : Medium) (count offset : Nat) :
    (medium.pread count offset).length = min count (medium.size - offset) := by
  simp only [pread, List.length_map, List.length_range]

theorem pread_getElem? (medium : Medium) (count offset index : Nat) :
    (medium.pread count offset)[index]? =
      if index < count ∧ offset + index < medium.size then
        some (medium.content (offset + index)) else none := by
  unfold pread
  rw [List.getElem?_map]
  by_cases inside : index < count ∧ offset + index < medium.size
  · rw [if_pos inside, List.getElem?_range (by omega)]
    rfl
  · rw [if_neg inside, List.getElem?_eq_none (by rw [List.length_range]; omega)]
    rfl

/-- A byte that a read returns is the content of the file at its position. -/
theorem pread_getElem?_eq_some {count offset index : Nat} {byte : UInt8}
    (found : (medium.pread count offset)[index]? = some byte) :
    index < count ∧ medium.content (offset + index) = byte := by
  rw [pread_getElem?] at found
  split at found
  case isTrue inside => exact ⟨inside.1, Option.some.inj found⟩
  case isFalse => cases found

/-- Reading a stretch in two parts reads it whole. -/
theorem pread_append (medium : Medium) {first offset : Nat} (second : Nat)
    (complete : (medium.pread first offset).length = first) :
    medium.pread (first + second) offset =
      medium.pread first offset ++ medium.pread second (offset + first) := by
  rw [pread_length] at complete
  apply List.ext_getElem?
  intro index
  rw [List.getElem?_append, pread_length, pread_getElem?, pread_getElem?, pread_getElem?]
  have inside : min first (medium.size - offset) = first := complete
  rw [inside]
  by_cases early : index < first
  · rw [if_pos early]
    congr 1
    simp only [eq_iff_iff]
    omega
  · rw [if_neg early, show offset + first + (index - first) = offset + index by omega]
    congr 1
    simp only [eq_iff_iff]
    omega

theorem pread_take {count offset : Nat} (length : Nat) :
    (medium.pread count offset).take length = medium.pread (min length count) offset := by
  apply List.ext_getElem?
  intro index
  rw [List.getElem?_take, pread_getElem?, pread_getElem?]
  by_cases early : index < length
  · rw [if_pos early]
    congr 1
    simp only [eq_iff_iff]
    omega
  · rw [if_neg early, if_neg (by omega)]

/-- Asking only for the bytes that a read returns returns the same bytes. -/
theorem pread_self (medium : Medium) (count offset : Nat) :
    medium.pread (medium.pread count offset).length offset = medium.pread count offset := by
  apply List.ext_getElem?
  intro index
  rw [pread_length, pread_getElem?, pread_getElem?]
  congr 1
  simp only [eq_iff_iff]
  omega

/-- The file holds the data from the offset on. -/
def Holds (medium : Medium) (data : List UInt8) (offset : Nat) : Prop :=
  ∀ index byte, data[index]? = some byte →
    offset + index < medium.size ∧ medium.content (offset + index) = byte

/-- Outside a stretch nothing changes, and the file does not shrink. -/
structure Frame (first last : Nat) (before after : Medium) : Prop where
  size : before.size ≤ after.size
  content : ∀ position, position < first ∨ last ≤ position →
    after.content position = before.content position

theorem Frame.refl (first last : Nat) (medium : Medium) : Frame first last medium medium :=
  ⟨le_refl _, fun _ _ => rfl⟩

theorem Frame.trans {first last : Nat} {before middle after : Medium}
    (early : Frame first last before middle) (late : Frame first last middle after) :
    Frame first last before after :=
  ⟨early.size.trans late.size, fun position outside =>
    (late.content position outside).trans (early.content position outside)⟩

theorem Frame.mono {first last lower higher : Nat} {before after : Medium}
    (frame : Frame first last before after) (below : lower ≤ first) (above : last ≤ higher) :
    Frame lower higher before after :=
  ⟨frame.size, fun position outside => frame.content position (by omega)⟩

/-- Data outside the stretch stays where it is. -/
theorem Holds.frame {before after : Medium} {first last offset : Nat} {data : List UInt8}
    (holds : before.Holds data offset) (frame : Frame first last before after)
    (apart : offset + data.length ≤ first ∨ last ≤ offset) : after.Holds data offset := by
  intro index byte found
  have inside := (List.getElem?_eq_some_iff.mp found).1
  obtain ⟨reached, same⟩ := holds index byte found
  have untouched := frame.content (offset + index) (by omega)
  exact ⟨reached.trans_le frame.size, untouched.trans same⟩

theorem pread_of_holds {data : List UInt8} {offset : Nat} (holds : medium.Holds data offset) :
    medium.pread data.length offset = data := by
  apply List.ext_getElem?
  intro index
  rw [pread_getElem?]
  cases found : data[index]? with
  | none =>
      have outside := List.getElem?_eq_none_iff.mp found
      rw [if_neg (by omega)]
  | some byte =>
      have inside := (List.getElem?_eq_some_iff.mp found).1
      obtain ⟨reached, same⟩ := holds index byte found
      rw [if_pos ⟨inside, reached⟩, same]

theorem pwrite_frame (medium : Medium) (data : List UInt8) (offset : Nat) :
    Frame offset (offset + data.length) medium (medium.pwrite data offset) where
  size := by
    unfold pwrite
    dsimp only
    split
    · exact le_refl _
    · exact le_max_left _ _
  content := by
    intro position outside
    have uncovered : writePatch data offset position = none := by
      unfold writePatch
      split
      · exact List.getElem?_eq_none (by omega)
      · rfl
    unfold pwrite
    dsimp only
    rw [uncovered]
    rfl

theorem pwrite_holds (medium : Medium) (data : List UInt8) (offset : Nat) :
    (medium.pwrite data offset).Holds data offset := by
  intro index byte found
  have inside := (List.getElem?_eq_some_iff.mp found).1
  have covered : writePatch data offset (offset + index) = some byte :=
    writePatch_eq_some.mpr ⟨Nat.le_add_right _ _, by rwa [Nat.add_sub_cancel_left]⟩
  have some : data ≠ [] := List.ne_nil_of_length_pos (by omega)
  unfold pwrite
  dsimp only
  rw [if_neg some, covered]
  exact ⟨by omega, rfl⟩

/-- All that was written lies in one stretch, and the file grows no further than the stretch. -/
structure Touched (first last : Nat) (before after : Medium) : Prop where
  written : ∃ patches, after.pending = patches ++ before.pending ∧
    ∀ patch ∈ patches, ∀ position byte, patch position = some byte →
      first ≤ position ∧ position < last
  size : after.size ≤ max before.size last
  frame : Frame first last before after

theorem Touched.refl (first last : Nat) (medium : Medium) : Touched first last medium medium where
  written := ⟨[], rfl, fun _ present => absurd present List.not_mem_nil⟩
  size := le_max_left _ _
  frame := Frame.refl first last medium

/-- One more write inside the stretch. -/
theorem Touched.pwrite {first last offset : Nat} {before after : Medium} {data : List UInt8}
    (touched : Touched first last before after) (low : first ≤ offset)
    (high : offset + data.length ≤ last) : Touched first last before (after.pwrite data offset) where
  written := by
    obtain ⟨patches, stacked, inside⟩ := touched.written
    refine ⟨writePatch data offset :: patches, congrArg (writePatch data offset :: ·) stacked, ?_⟩
    intro patch present position byte covers
    rcases List.mem_cons.mp present with same | older
    · rw [same] at covers
      obtain ⟨behind, found⟩ := writePatch_eq_some.mp covers
      have bound := (List.getElem?_eq_some_iff.mp found).1
      omega
    · exact inside patch older position byte covers
  size := by
    have grown := touched.size
    unfold Medium.pwrite
    dsimp only
    split
    · exact grown
    · omega
  frame := touched.frame.trans ((pwrite_frame after data offset).mono low high)

/-- Two parts one behind the other make the whole. -/
theorem Holds.append {first second : List UInt8} {offset : Nat} (front : medium.Holds first offset)
    (back : medium.Holds second (offset + first.length)) : medium.Holds (first ++ second) offset := by
  intro index byte found
  by_cases early : index < first.length
  · rw [List.getElem?_append_left early] at found
    exact front index byte found
  · rw [List.getElem?_append_right (by omega)] at found
    have moved := back _ _ found
    rwa [show offset + first.length + (index - first.length) = offset + index by omega] at moved

end Medium

end DgxSpark

import DgxSpark.Slab.Slot
import DgxSpark.Slab.Manager

/-
This file gives the sizes and the numbers of the slots from the disk budget, and bounds what any
sequence of slot writes does to the slab files.
-/

namespace DgxSpark.Slab

/-- `_round_up` gives the first multiple of `m` from `n` on. -/
def roundUp (n m : Nat) : Nat := (n + m - 1) / m * m

/-- The bytes of a row: one target slot, and four slots of every other group. -/
def perRow : List Nat → Nat
  | [] => 0
  | target :: rest => target + (rest.map (drafterPerTarget * ·)).sum

/-- `slab_geometry` gives slot sizes and slot counts; it fails when there is no target group. -/
def slabGeometry (groupBytes : List Nat) (diskBytesPerRank : Int) : Option (List Nat × List Nat) :=
  let slotBytes := groupBytes.map fun bytes => roundUp (slabHeaderBytes + bytes) 4096
  match slotBytes with
  | [] => none
  | _ :: rest =>
      let n := (max 1 (diskBytesPerRank / (perRow slotBytes : Int))).toNat
      some (slotBytes, n :: List.replicate rest.length (drafterPerTarget * n))

/-- The bytes that all slots of all groups take. -/
def slabTotal (slotBytes counts : List Nat) : Nat := (List.zipWith (· * ·) slotBytes counts).sum

theorem roundUp_bounds (n : Nat) {m : Nat} (positive : 0 < m) :
    n ≤ roundUp n m ∧ roundUp n m < n + m ∧ m ∣ roundUp n m := by
  have parts := Nat.div_add_mod (n + m - 1) m
  have below := Nat.mod_lt (n + m - 1) positive
  have swapped := Nat.mul_comm m ((n + m - 1) / m)
  unfold roundUp
  refine ⟨by omega, by omega, Dvd.intro_left _ rfl⟩

/-- `n` rows take `n` times the bytes of a row. -/
theorem slabTotal_rows (target : Nat) (rest : List Nat) (n : Nat) :
    slabTotal (target :: rest) (n :: List.replicate rest.length (drafterPerTarget * n)) =
      n * perRow (target :: rest) := by
  have drafters : (List.zipWith (· * ·) rest (List.replicate rest.length (drafterPerTarget * n))).sum =
      n * (rest.map (drafterPerTarget * ·)).sum := by
    induction rest with
    | nil => rfl
    | cons bytes rest ih =>
        rw [List.length_cons, List.replicate_succ, List.zipWith_cons_cons, List.sum_cons, ih,
          List.map_cons, List.sum_cons, Nat.mul_add]
        ring
  rw [slabTotal, List.zipWith_cons_cons, List.sum_cons, drafters, perRow, Nat.mul_add,
    Nat.mul_comm target]

/-- The number of rows that a budget of at least one row pays for. -/
theorem rows_budget {each : Nat} {budget : Int} (positive : 0 < each) (row : (each : Int) ≤ budget) :
    (((max 1 (budget / each)).toNat * each : Nat) : Int) ≤ budget ∧
      budget < (((max 1 (budget / each)).toNat * each : Nat) : Int) + each := by
  have wide : (0 : Int) < each := Int.natCast_pos.mpr positive
  have some : 1 ≤ budget / each := (Int.le_ediv_iff_mul_le wide).mpr (by omega)
  have count : ((max 1 (budget / each)).toNat : Int) = budget / each := by omega
  rw [Nat.cast_mul, count]
  constructor
  · exact Int.ediv_mul_le budget (by omega)
  · have next := Int.lt_ediv_add_one_mul_self budget wide
    rwa [Int.add_mul, Int.one_mul] at next

/-- What the geometry of a non-empty list of groups is. -/
theorem slabGeometry_eq_some {groupBytes slotBytes counts : List Nat} {budget : Int}
    (given : slabGeometry groupBytes budget = some (slotBytes, counts)) :
    slotBytes = groupBytes.map (fun bytes => roundUp (slabHeaderBytes + bytes) 4096) ∧
      counts.length = slotBytes.length ∧ 0 < perRow slotBytes ∧
      slabTotal slotBytes counts = (max 1 (budget / perRow slotBytes)).toNat * perRow slotBytes := by
  unfold slabGeometry at given
  cases groupBytes with
  | nil => cases given
  | cons bytes rest =>
      cases given
      have slot := roundUp_bounds (slabHeaderBytes + bytes) (show 0 < 4096 by decide)
      have total : slabHeaderBytes = 128 := rfl
      refine ⟨rfl, ?_, ?_, slabTotal_rows _ _ _⟩
      · rw [List.length_cons, List.length_replicate, List.map_cons, List.length_cons]
      · exact Nat.add_pos_left (Nat.lt_of_lt_of_le (by omega) slot.1) _

/-- The slots keep to a budget of at least one row and leave less than a row of it. -/
theorem slabGeometry_budget {groupBytes slotBytes counts : List Nat} {budget : Int}
    (given : slabGeometry groupBytes budget = some (slotBytes, counts))
    (row : (perRow slotBytes : Int) ≤ budget) :
    (slabTotal slotBytes counts : Int) ≤ budget ∧
      budget < slabTotal slotBytes counts + perRow slotBytes := by
  obtain ⟨-, -, positive, total⟩ := slabGeometry_eq_some given
  rw [total]
  exact rows_budget positive row

/-- Every slot has room for the header and the payload of its group. -/
theorem slabGeometry_room {groupBytes slotBytes counts : List Nat} {budget : Int}
    (given : slabGeometry groupBytes budget = some (slotBytes, counts)) {g bytes : Nat}
    (size : groupBytes[g]? = some bytes) :
    ∃ slot, slotBytes[g]? = some slot ∧ slabHeaderBytes + bytes ≤ slot ∧ 4096 ∣ slot := by
  obtain ⟨rfl, -⟩ := slabGeometry_eq_some given
  have bounds := roundUp_bounds (slabHeaderBytes + bytes) (show 0 < 4096 by decide)
  refine ⟨roundUp (slabHeaderBytes + bytes) 4096, ?_, bounds.1, bounds.2.2⟩
  rw [List.getElem?_map, size]
  rfl

/-! ### The bytes that writes touch -/

section Keeps

variable {kept : Medium → Prop} {first last : Nat}

theorem pwriteAll_keeps
    (step : ∀ medium data offset, kept medium → first ≤ offset → offset + data.length ≤ last →
      kept (medium.pwrite data offset))
    {medium : Medium} {data : List UInt8} {offset : Nat} (replies : List Nat) (start : kept medium)
    (low : first ≤ offset) (high : offset + data.length ≤ last) :
    kept (pwriteAll medium data offset replies).medium := by
  induction replies generalizing medium data offset with
  | nil =>
      unfold pwriteAll
      split
      · exact start
      · exact start
  | cons reply rest ih =>
      unfold pwriteAll
      dsimp only
      split
      · exact start
      · split
        · exact start
        · have taken : (data.take (min reply data.length)).length = min reply data.length :=
            List.length_take_of_le (Nat.min_le_right _ _)
          apply ih
          · exact step _ _ _ start low (by omega)
          · omega
          · rw [List.length_drop]
            omega

theorem pwritevAll_keeps
    (step : ∀ medium data offset, kept medium → first ≤ offset → offset + data.length ≤ last →
      kept (medium.pwrite data offset))
    {medium : Medium} {views : List (List UInt8)} {pos : Nat} (replies : List Nat)
    (start : kept medium) (low : first ≤ pos) (high : pos + views.flatten.length ≤ last) :
    kept (pwritevAll medium views pos replies).medium := by
  induction replies generalizing medium views pos with
  | nil =>
      unfold pwritevAll
      split
      · exact start
      · exact start
  | cons reply rest ih =>
      unfold pwritevAll
      dsimp only
      split
      · exact start
      · split
        · exact start
        · have taken : (views.flatten.take (min reply views.flatten.length)).length =
              min reply views.flatten.length := List.length_take_of_le (Nat.min_le_right _ _)
          apply ih
          · exact step _ _ _ start low (by omega)
          · omega
          · rw [drainIov_flatten, List.length_drop]
            omega

/-- What every write inside the slot keeps, the three passes of a slot write keep. -/
theorem writeSlot_keeps
    (step : ∀ medium data offset, kept medium → first ≤ offset → offset + data.length ≤ last →
      kept (medium.pwrite data offset))
    {medium : Medium} {views : List (List UInt8)} {header : Option Header}
    (fits : ∀ sealed, header = some sealed → sealed.Fits) (replies : List Nat) (start : kept medium)
    (room : first + slabHeaderBytes + views.flatten.length ≤ last) :
    kept (writeSlot medium first views header replies).medium := by
  have next : ∀ (progress : Progress) (loop : Medium → List Nat → Progress), kept progress.medium →
      (∀ medium replies, kept medium → kept (loop medium replies).medium) →
      kept (progress.next loop).medium := by
    intro progress loop before keeps
    unfold Progress.next
    split
    · exact before
    · exact keeps _ _ before
  apply next
  · apply next
    · apply pwriteAll_keeps step replies start (le_refl first)
      rw [List.length_replicate]
      omega
    · intro medium replies before
      exact pwritevAll_keeps step replies before (Nat.le_add_right _ _) room
  · intro medium replies before
    cases header with
    | none => exact before
    | some sealed =>
        apply pwriteAll_keeps step replies before (le_refl first)
        rw [Header.pack_length (fits sealed rfl)]
        omega

end Keeps

/-- The arguments of one call of `write`, with the replies it gets. -/
structure WriteRequest where
  key : List UInt8
  slot : Nat
  views : List (List UInt8)
  seq : Int
  epoch : Option Int
  replies : List Nat

namespace SlabIo

variable {groups : Nat} (group : List UInt8 → Option (Fin groups))

/-- The slabs after one call. -/
def writeOne (io : SlabIo groups) (disk : Disk groups) (request : WriteRequest) : Disk groups :=
  (io.write group disk request.key request.slot request.views request.seq request.epoch
    request.replies).1

/-- The slabs after a sequence of calls. -/
def writeSequence (io : SlabIo groups) (disk : Disk groups) (requests : List WriteRequest) :
    Disk groups := requests.foldl (io.writeOne group) disk

/-- The slabs whose geometry two lists give. -/
def ofGeometry (slotBytes counts : List Nat) (epoch : Int) : SlabIo slotBytes.length where
  slotBytes := fun g => slotBytes.get g
  slotCounts := fun g => counts.getD g 0
  epoch := epoch

variable {group}

/-- One call touches the bytes of its slot in the file of its group and nothing else. -/
theorem writeOne_touched (io : SlabIo groups) (disk : Disk groups) (request : WriteRequest)
    (g : Fin groups) :
    io.writeOne group disk request g = disk g ∨
      group request.key = some g ∧ request.slot < io.slotCounts g ∧
        Medium.Touched (request.slot * io.slotBytes g) ((request.slot + 1) * io.slotBytes g) (disk g)
          (io.writeOne group disk request g) := by
  unfold writeOne SlabIo.write
  split
  · exact .inl rfl
  case h_2 own grouped =>
    split
    · exact .inl rfl
    case h_2 offset found =>
      obtain ⟨inside, rfl⟩ := offset_eq_some found
      dsimp only
      split
      case isFalse => exact .inl rfl
      case isTrue room =>
        by_cases same : g = own
        · subst same
          refine .inr ⟨grouped, inside, ?_⟩
          dsimp only
          rw [Function.update_self]
          apply writeSlot_keeps fun medium data offset touched low high =>
            Medium.Touched.pwrite touched low high
          · exact fun sealed packed => (sealedHeader_eq_some packed).1
          · exact Medium.Touched.refl _ _ _
          · rw [Nat.succ_mul]
            omega
        · exact .inl (Function.update_of_ne same _ _)

variable (group) in
/-- No call of the sequence addresses the slot. -/
def Spared (g : Fin groups) (slot : Nat) (requests : List WriteRequest) : Prop :=
  ∀ request ∈ requests, group request.key = some g → request.slot ≠ slot

theorem writeOne_size {io : SlabIo groups} {disk : Disk groups} (request : WriteRequest) {g : Fin groups}
    (small : (disk g).size ≤ io.capacity g) :
    (io.writeOne group disk request g).size ≤ io.capacity g := by
  rcases io.writeOne_touched disk request g with same | ⟨-, inside, touched⟩
  · rwa [same]
  · have last : (request.slot + 1) * io.slotBytes g ≤ io.slotCounts g * io.slotBytes g :=
      Nat.mul_le_mul_right _ inside
    have grown := touched.size
    unfold capacity at small ⊢
    rw [Nat.mul_comm] at small ⊢
    omega

theorem writeOne_spared {io : SlabIo groups} {disk : Disk groups} {request : WriteRequest}
    {g : Fin groups} {slot position : Nat} (other : group request.key = some g → request.slot ≠ slot)
    (low : slot * io.slotBytes g ≤ position) (high : position < (slot + 1) * io.slotBytes g) :
    (io.writeOne group disk request g).content position = (disk g).content position := by
  rcases io.writeOne_touched disk request g with same | ⟨grouped, -, touched⟩
  · rw [same]
  · apply touched.frame.content
    rcases Nat.lt_or_gt_of_ne (other grouped) with before | behind
    · exact .inr ((Nat.mul_le_mul_right _ before).trans low)
    · exact .inl (high.trans_le (Nat.mul_le_mul_right _ behind))

theorem writeSequence_size {io : SlabIo groups} {disk : Disk groups} (requests : List WriteRequest)
    {g : Fin groups} (small : (disk g).size ≤ io.capacity g) :
    (io.writeSequence group disk requests g).size ≤ io.capacity g := by
  induction requests generalizing disk with
  | nil => exact small
  | cons request rest ih => exact ih (writeOne_size request small)

theorem writeSequence_spared {io : SlabIo groups} {disk : Disk groups} {requests : List WriteRequest}
    {g : Fin groups} {slot position : Nat} (spared : Spared group g slot requests)
    (low : slot * io.slotBytes g ≤ position) (high : position < (slot + 1) * io.slotBytes g) :
    (io.writeSequence group disk requests g).content position = (disk g).content position := by
  induction requests generalizing disk with
  | nil => rfl
  | cons request rest ih =>
      have tail := @ih (io.writeOne group disk request) fun later present =>
        spared later (List.mem_cons_of_mem _ present)
      exact tail.trans (writeOne_spared (spared request List.mem_cons_self) low high)

theorem opened_size (io : SlabIo groups) (disk : Disk groups) (g : Fin groups) :
    (io.opened disk g).size ≤ io.capacity g := by
  unfold opened
  split
  · exact le_refl _
  · omega

/-- The slots that the geometry gives fit the budget, and whatever sequence of writes follows the
opening of the slabs, each call stays in its own slot and no file outgrows its slots. -/
theorem disk_cap_and_slots_apart (groupBytes : List Nat) (target : groupBytes ≠ [])
    (diskBytesPerRank : Int) :
    ∃ slotBytes counts, slabGeometry groupBytes diskBytesPerRank = some (slotBytes, counts) ∧
      slotBytes.length = groupBytes.length ∧ counts.length = groupBytes.length ∧
      ((perRow slotBytes : Int) ≤ diskBytesPerRank →
        (slabTotal slotBytes counts : Int) ≤ diskBytesPerRank ∧
          diskBytesPerRank < slabTotal slotBytes counts + perRow slotBytes) ∧
      ∀ (group : List UInt8 → Option (Fin slotBytes.length)) (epoch : Int) (disk : Disk slotBytes.length)
        (requests : List WriteRequest),
        let io := ofGeometry slotBytes counts epoch
        let written := io.writeSequence group (io.opened disk) requests
        (∀ request g, io.writeOne group written request g = written g ∨
          group request.key = some g ∧ request.slot < io.slotCounts g ∧
            Medium.Touched (request.slot * io.slotBytes g) ((request.slot + 1) * io.slotBytes g)
              (written g) (io.writeOne group written request g)) ∧
        (∀ g, (written g).size ≤ io.capacity g) ∧
        ∀ g slot position, Spared group g slot requests → slot * io.slotBytes g ≤ position →
          position < (slot + 1) * io.slotBytes g →
          (written g).content position = (io.opened disk g).content position := by
  obtain ⟨slotBytes, counts, given⟩ : ∃ slotBytes counts,
      slabGeometry groupBytes diskBytesPerRank = some (slotBytes, counts) := by
    cases groupBytes with
    | nil => exact absurd rfl target
    | cons bytes rest => exact ⟨_, _, rfl⟩
  obtain ⟨sizes, numbers, -⟩ := slabGeometry_eq_some given
  have groups : slotBytes.length = groupBytes.length := by rw [sizes, List.length_map]
  refine ⟨slotBytes, counts, given, groups, numbers.trans groups, slabGeometry_budget given, ?_⟩
  intro group epoch disk requests io written
  refine ⟨?_, ?_, ?_⟩
  · intro request g
    exact writeOne_touched io written request g
  · intro g
    exact writeSequence_size requests (opened_size io disk g)
  · intro g slot position spared low high
    exact writeSequence_spared spared low high

/-- A target and a drafter group under a budget of three rows and a half. -/
theorem disk_cap_and_slots_apart_twoGroups :
    ∃ slotBytes counts, slabGeometry [4000, 100] 85000 = some (slotBytes, counts) ∧
      (slabTotal slotBytes counts : Int) ≤ 85000 ∧
        85000 < (slabTotal slotBytes counts : Int) + perRow slotBytes := by
  obtain ⟨slotBytes, counts, given, -, -, capped, -⟩ :=
    disk_cap_and_slots_apart [4000, 100] (List.cons_ne_nil _ _) 85000
  have same : slabGeometry [4000, 100] 85000 = some ([8192, 4096], [3, 12]) := by decide
  have both := given.symm.trans same
  cases both
  exact ⟨_, _, given, capped (by decide)⟩

end SlabIo

end DgxSpark.Slab

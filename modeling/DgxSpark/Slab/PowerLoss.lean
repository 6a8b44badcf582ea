import Mathlib.Tactic
import DgxSpark.Library.Run
import DgxSpark.Slab.SlabIo

/-
This file follows the slabs of one rank through writes, syncs, reopenings and power losses.
-/

namespace DgxSpark.Slab

open LittleEndian Crc32

/-- A call of `write` that passed its asserts, with the epoch it was made under. -/
structure WriteCall (groups : Nat) where
  group : Fin groups
  slot : Nat
  key : List UInt8
  payload : List UInt8
  seq : Int
  epoch : Int

variable {groups : Nat}

namespace WriteCall

/-- The header that seals the block, when the fields are in range. -/
def header (call : WriteCall groups) : Option Header :=
  sealedHeader call.group call.key call.payload.length call.seq call.epoch
    (crc32 call.payload).toNat

/-- The header region of the slot behind a completed call. -/
def headerImage (call : WriteCall groups) : List UInt8 :=
  match call.header with
  | none => List.replicate slabHeaderBytes 0
  | some header => header.pack

/-- The bytes that the call puts from the start of its slot on. -/
def image (call : WriteCall groups) : List UInt8 := call.headerImage ++ call.payload

end WriteCall

/-- One rank: its open directory, its slab files, and the write calls made so far. -/
structure Rank (groups : Nat) where
  io : Option (SlabIo groups)
  disk : Disk groups
  calls : List (WriteCall groups)

/-- What may happen to a rank. -/
inductive RankEvent (groups : Nat) where
  | write (key : List UInt8) (slot : Nat) (views : List (List UInt8)) (seq : Int)
      (epoch : Option Int) (replies : List Nat)
  | sync (group : Fin groups)
  | close
  | reopen (slotCounts : Fin groups → Nat) (epoch : Int)
  | powerLoss (choice : Fin groups → Nat → Option Nat) (size : Fin groups → Nat)

namespace Rank

def initial : Rank groups where
  io := none
  disk := fun _ => Medium.empty
  calls := []

variable (slotBytes : Fin groups → Nat) (group : List UInt8 → Option (Fin groups))

/-- The call that a `write` makes, if it passes its asserts. -/
def callOf (io : SlabIo groups) (key : List UInt8) (slot : Nat) (views : List (List UInt8))
    (seq : Int) (epoch : Option Int) : Option (WriteCall groups) := do
  let g ← group key
  let _ ← io.offset g slot
  if slabHeaderBytes + views.flatten.length ≤ io.slotBytes g then
    some { group := g, slot := slot, key := key, payload := views.flatten, seq := seq,
           epoch := epoch.getD io.epoch }
  else none

/-- One event; writes, syncs and closes need an open directory. -/
def step (rank : Rank groups) : RankEvent groups → Option (Rank groups)
  | .write key slot views seq epoch replies =>
      rank.io.map fun io =>
        { rank with
          disk := (io.write group rank.disk key slot views seq epoch replies).1
          calls := (callOf group io key slot views seq epoch).toList ++ rank.calls }
  | .sync g => rank.io.map fun _ => { rank with disk := SlabIo.sync rank.disk g }
  | .close => rank.io.map fun _ => { rank with io := none }
  | .reopen slotCounts epoch =>
      let io : SlabIo groups := { slotBytes := slotBytes, slotCounts := slotCounts, epoch := epoch }
      some { rank with io := some io, disk := io.opened rank.disk }
  | .powerLoss choice size =>
      some { rank with
        io := none
        disk := fun g => (rank.disk g).powerLoss (choice g) (size g) }

/-- A byte at a position of a slab is blank, or a write call of that slot put it there. -/
def Traced (calls : List (WriteCall groups)) (g : Fin groups) (position : Nat) (byte : UInt8) : Prop :=
  byte = 0 ∨ ∃ call ∈ calls, call.group = g ∧ call.slot = position / slotBytes g ∧
    call.image[position % slotBytes g]? = some byte

/-- Every byte of every slab is traced, and the directory has the rank's slot sizes. -/
structure Sound (rank : Rank groups) : Prop where
  traced : ∀ g, (rank.disk g).Within (Traced slotBytes rank.calls g)
  geometry : ∀ io, rank.io = some io → io.slotBytes = slotBytes
  room : ∀ call ∈ rank.calls, slabHeaderBytes + call.payload.length ≤ slotBytes call.group

variable {slotBytes group}

theorem traced_zero {calls : List (WriteCall groups)} {g : Fin groups} (position : Nat) :
    Traced slotBytes calls g position 0 := .inl rfl

/-- More calls only allow more bytes. -/
theorem Traced.mono {calls more : List (WriteCall groups)} {g : Fin groups} {position : Nat}
    {byte : UInt8} (wider : ∀ call ∈ calls, call ∈ more)
    (traced : Traced slotBytes calls g position byte) : Traced slotBytes more g position byte := by
  rcases traced with blank | ⟨call, made, rest⟩
  · exact .inl blank
  · exact .inr ⟨call, wider call made, rest⟩

/-- A byte of the image of a call is traced where the call puts it. -/
theorem traced_image {calls : List (WriteCall groups)} {call : WriteCall groups} {index : Nat}
    {byte : UInt8} (made : call ∈ calls) (inside : index < slotBytes call.group)
    (found : call.image[index]? = some byte) :
    Traced slotBytes calls call.group (call.slot * slotBytes call.group + index) byte := by
  refine .inr ⟨call, made, rfl, ?_, ?_⟩
  · rw [Nat.mul_comm, Nat.mul_add_div (by omega), Nat.div_eq_of_lt inside, Nat.add_zero]
  · rw [Nat.mul_comm, Nat.mul_add_mod, Nat.mod_eq_of_lt inside]
    exact found

end Rank

theorem WriteCall.headerImage_length (call : WriteCall groups) :
    call.headerImage.length = slabHeaderBytes := by
  unfold WriteCall.headerImage
  cases sealing : call.header with
  | none => exact List.length_replicate
  | some header => exact Header.pack_length (sealedHeader_eq_some sealing).1

theorem WriteCall.image_header {call : WriteCall groups} {header : Header}
    (sealing : call.header = some header) {index : Nat} {byte : UInt8}
    (found : header.pack[index]? = some byte) : call.image[index]? = some byte := by
  have size := Header.pack_length (sealedHeader_eq_some sealing).1
  have inside : index < header.pack.length := (List.getElem?_eq_some_iff.mp found).1
  unfold WriteCall.image WriteCall.headerImage
  rw [sealing]
  dsimp only
  rw [List.getElem?_append_left inside, found]

theorem WriteCall.image_payload {call : WriteCall groups} {index : Nat} {byte : UInt8}
    (found : call.payload[index]? = some byte) :
    call.image[slabHeaderBytes + index]? = some byte := by
  unfold WriteCall.image
  rw [List.getElem?_append_right (by rw [call.headerImage_length]; omega), call.headerImage_length,
    Nat.add_sub_cancel_left]
  exact found

namespace Rank

theorem callOf_eq_some {io : SlabIo groups} {key : List UInt8} {slot : Nat}
    {views : List (List UInt8)} {seq : Int} {epoch : Option Int} {call : WriteCall groups} :
    callOf group io key slot views seq epoch = some call ↔
      ∃ g, group key = some g ∧ slot < io.slotCounts g ∧
        slabHeaderBytes + views.flatten.length ≤ io.slotBytes g ∧
        call = { group := g, slot := slot, key := key, payload := views.flatten, seq := seq,
                 epoch := epoch.getD io.epoch } := by
  simp only [callOf, Option.bind_eq_bind, Option.bind_eq_some_iff]
  constructor
  · rintro ⟨g, grouped, offset, found, rest⟩
    split at rest
    case isTrue room =>
      exact ⟨g, grouped, (SlabIo.offset_eq_some found).1, room, (Option.some.inj rest).symm⟩
    case isFalse => cases rest
  · rintro ⟨g, grouped, inside, room, rfl⟩
    exact ⟨g, grouped, slot * io.slotBytes g, if_pos inside, if_pos room⟩

/-- A write leaves every slab within the bytes of the calls made, its own included. -/
theorem write_traced {io : SlabIo groups} {disk : Disk groups} {calls : List (WriteCall groups)}
    (traced : ∀ g, (disk g).Within (Traced io.slotBytes calls g)) (key : List UInt8) (slot : Nat)
    (views : List (List UInt8)) (seq : Int) (epoch : Option Int) (replies : List Nat)
    (g : Fin groups) :
    ((io.write group disk key slot views seq epoch replies).1 g).Within
      (Traced io.slotBytes ((callOf group io key slot views seq epoch).toList ++ calls) g) := by
  have wider : (disk g).Within
      (Traced io.slotBytes ((callOf group io key slot views seq epoch).toList ++ calls) g) :=
    (traced g).mono fun _ _ => Traced.mono fun call made => List.mem_append_right _ made
  unfold SlabIo.write
  split
  · exact wider
  case h_2 owner grouped =>
    split
    · exact wider
    case h_2 offset found =>
      obtain ⟨inside, rfl⟩ := SlabIo.offset_eq_some found
      dsimp only
      split
      case isFalse => exact wider
      case isTrue room =>
        dsimp only
        by_cases own : g = owner
        · subst own
          rw [Function.update_self]
          have made : callOf group io key slot views seq epoch = some _ :=
            callOf_eq_some.mpr ⟨g, grouped, inside, room, rfl⟩
          rw [made] at wider ⊢
          have first : ∀ call, call ∈ (some call).toList ++ calls := fun call =>
            List.mem_append_left _ (Option.mem_toList.mpr rfl)
          refine writeSlot_within replies wider traced_zero ?_ ?_
          · intro index byte found
            have within := (List.getElem?_eq_some_iff.mp found).1
            have inside : slabHeaderBytes + index < io.slotBytes g := by omega
            rw [Nat.add_assoc]
            exact traced_image (first _) inside (WriteCall.image_payload found)
          · intro sealed packed index byte found
            rw [foldl_update] at packed
            have size := Header.pack_length (sealedHeader_eq_some packed).1
            have within := (List.getElem?_eq_some_iff.mp found).1
            have inside : index < io.slotBytes g := by omega
            refine traced_image (first _) inside ?_
            apply WriteCall.image_header _ found
            exact packed
        · rw [Function.update_of_ne own]
          exact wider

theorem opened_traced {io : SlabIo groups} {disk : Disk groups} {calls : List (WriteCall groups)}
    {g : Fin groups} (traced : (disk g).Within (Traced slotBytes calls g)) :
    (io.opened disk g).Within (Traced slotBytes calls g) := by
  unfold SlabIo.opened
  split
  · exact traced.truncate _ traced_zero
  · exact traced

/-- Every event keeps every byte traced. -/
theorem step_sound {rank next : Rank groups} {event : RankEvent groups} (sound : rank.Sound slotBytes)
    (taken : step slotBytes group rank event = some next) : next.Sound slotBytes := by
  cases event with
  | write key slot views seq epoch replies =>
      obtain ⟨io, opened, rfl⟩ := Option.map_eq_some_iff.mp taken
      have geometry := sound.geometry io opened
      subst geometry
      refine ⟨write_traced sound.traced key slot views seq epoch replies, sound.geometry, ?_⟩
      intro call made
      rcases List.mem_append.mp made with new | old
      · obtain ⟨g, -, -, room, rfl⟩ := callOf_eq_some.mp (Option.mem_toList.mp new)
        exact room
      · exact sound.room call old
  | sync g =>
      obtain ⟨io, opened, rfl⟩ := Option.map_eq_some_iff.mp taken
      refine ⟨?_, sound.geometry, sound.room⟩
      intro other
      change (SlabIo.sync rank.disk g other).Within _
      unfold SlabIo.sync
      by_cases same : other = g
      · rw [same, Function.update_self]
        exact (sound.traced g).sync
      · rw [Function.update_of_ne same]
        exact sound.traced other
  | close =>
      obtain ⟨io, opened, rfl⟩ := Option.map_eq_some_iff.mp taken
      exact ⟨sound.traced, (fun _ closed => absurd closed (Option.some_ne_none _).symm), sound.room⟩
  | reopen slotCounts epoch =>
      cases taken
      refine ⟨fun g => opened_traced (sound.traced g), ?_, sound.room⟩
      intro io same
      cases same
      rfl
  | powerLoss choice size =>
      cases taken
      exact ⟨fun g => (sound.traced g).powerLoss _ _ traced_zero, (fun _ closed => absurd closed (Option.some_ne_none _).symm), sound.room⟩

theorem initial_sound : (initial : Rank groups).Sound slotBytes where
  traced := fun _ => Medium.Within.empty traced_zero
  geometry := fun _ closed => absurd closed (Option.some_ne_none _).symm
  room := fun _ made => absurd made List.not_mem_nil

theorem run_sound {rank : Rank groups} {history : List (RankEvent groups)}
    (reached : Run.run (step slotBytes group) initial history = some rank) : rank.Sound slotBytes :=
  Run.run_invariant (fun _ _ _ => step_sound) initial_sound reached

/-! ### What a read finds -/

/-- Every byte of a header image is blank or stands there in a header sealed in the slot. -/
def Torn (calls : List (WriteCall groups)) (g : Fin groups) (slot : Nat) (image : List UInt8) : Prop :=
  ∀ (index : Nat) (byte : UInt8), image[index]? = some byte → byte = 0 ∨
    ∃ call ∈ calls, call.group = g ∧ call.slot = slot ∧
      ∃ header, call.header = some header ∧ header.pack[index]? = some byte

/-- No torn header passes its own check under a checksum that no call sealed in the slot. -/
def NoForgery (calls : List (WriteCall groups)) (g : Fin groups) (slot : Nat) (image : List UInt8) :
    Prop :=
  Torn calls g slot image → ∀ header ∈ parseHeader image,
    ∃ call ∈ calls, call.group = g ∧ call.slot = slot ∧
      call.header.map Header.headerCrc = some header.headerCrc

/-- No two different strings have one checksum. -/
def NoCollision (strings : List (List UInt8)) : Prop :=
  ∀ first ∈ strings, ∀ second ∈ strings, crc32 first = crc32 second → first = second

instance (strings : List (List UInt8)) : Decidable (NoCollision strings) :=
  inferInstanceAs (Decidable (∀ first ∈ strings, ∀ second ∈ strings,
    crc32 first = crc32 second → first = second))

/-- The strings that the write calls took checksums of, and those that a read of a slot does. -/
def checkedStrings (calls : List (WriteCall groups)) (medium : Medium) (offset length : Nat) :
    List (List UInt8) :=
  (Header.unpack (medium.pread slabHeaderBytes offset)).base.pack ::
    medium.pread length (offset + slabHeaderBytes) ::
    calls.flatMap fun call =>
      call.payload :: (call.header.map fun header => header.base.pack).toList

theorem payload_mem_checkedStrings {calls : List (WriteCall groups)} {call : WriteCall groups}
    (made : call ∈ calls) (medium : Medium) (offset length : Nat) :
    call.payload ∈ checkedStrings calls medium offset length := by
  refine List.mem_cons_of_mem _ (List.mem_cons_of_mem _ (List.mem_flatMap.mpr ⟨call, made, ?_⟩))
  exact List.mem_cons_self

theorem header_mem_checkedStrings {calls : List (WriteCall groups)} {call : WriteCall groups}
    {header : Header} (made : call ∈ calls) (sealing : call.header = some header) (medium : Medium)
    (offset length : Nat) : header.base.pack ∈ checkedStrings calls medium offset length := by
  refine List.mem_cons_of_mem _ (List.mem_cons_of_mem _ (List.mem_flatMap.mpr ⟨call, made, ?_⟩))
  rw [sealing]
  exact List.mem_cons_of_mem _ List.mem_cons_self

/-- The header image of a slot is a torn mixture of the headers sealed in that slot. -/
theorem Sound.header_torn {rank : Rank groups} (sound : rank.Sound slotBytes) (g : Fin groups)
    (slot : Nat) :
    Torn rank.calls g slot ((rank.disk g).pread slabHeaderBytes (slot * slotBytes g)) := by
  intro index byte found
  obtain ⟨inside, rfl⟩ := Medium.pread_getElem?_eq_some found
  rcases (sound.traced g).content (slot * slotBytes g + index) with blank | ⟨call, made, owner, place, put⟩
  · exact .inl blank
  · have room := sound.room call made
    rw [owner] at room
    have within : index < slotBytes g := by omega
    rw [Nat.mul_comm, Nat.mul_add_div (by omega), Nat.div_eq_of_lt within, Nat.add_zero] at place
    rw [Nat.mul_comm, Nat.mul_add_mod, Nat.mod_eq_of_lt within, WriteCall.image,
      List.getElem?_append_left (by rw [call.headerImage_length]; exact inside),
      WriteCall.headerImage] at put
    rw [Nat.mul_comm]
    cases sealing : call.header with
    | none =>
        rw [sealing] at put
        exact .inl (List.eq_of_mem_replicate (List.mem_of_getElem? put))
    | some header =>
        rw [sealing] at put
        exact .inr ⟨call, made, owner, place, header, sealing, put⟩

theorem base_fits {header : Header} (fits : header.Fits) : header.base.Fits where
  magic := fits.magic
  version := fits.version
  group := fits.group
  epoch := fits.epoch
  length := fits.length
  seq := fits.seq
  key := fits.key
  payloadCrc := fits.payloadCrc
  headerCrc := Nat.pow_pos (by decide)

/-- Where the checksums tell the strings apart, whatever the history of writes, syncs, reopenings
and power losses was, a read that returns returns the payload of one call with its key, slot and
epoch. -/
theorem read_returns_one_write {history : List (RankEvent groups)} {rank : Rank groups}
    {io : SlabIo groups} {g : Fin groups} {key : List UInt8} {slot : Nat}
    {views result : List (List UInt8)} {epoch : Int} {replies : List Nat}
    (reached : Run.run (step slotBytes group) initial history = some rank)
    (opened : rank.io = some io) (grouped : group key = some g)
    (distinct : NoCollision
      (checkedStrings rank.calls (rank.disk g) (slot * slotBytes g) views.flatten.length))
    (genuine : NoForgery rank.calls g slot
      ((rank.disk g).pread slabHeaderBytes (slot * slotBytes g)))
    (returned : io.read group rank.disk key slot views (some epoch) replies = some result) :
    result.map List.length = views.map List.length ∧
      ∃ call ∈ rank.calls, call.key = key ∧ call.slot = slot ∧ call.epoch = epoch ∧
        call.payload = result.flatten := by
  have sound := run_sound reached
  have geometry := sound.geometry io opened
  obtain ⟨owner, header, located, served⟩ := SlabIo.read_eq_some returned
  rw [grouped] at located
  cases located
  have parsed := served.parsed
  have filled := served.payload
  rw [geometry] at parsed filled
  obtain ⟨call, made, -, place, found⟩ := genuine (sound.header_torn g slot) header parsed
  obtain ⟨sealed, sealing, sameCrc⟩ := Option.map_eq_some_iff.mp found
  obtain ⟨size, unpacked, -, -, whole⟩ := parseHeader_eq_some parsed
  have exactly : (rank.disk g).pread slabHeaderBytes (slot * slotBytes g) =
      ((rank.disk g).pread slabHeaderBytes (slot * slotBytes g)).take slabHeaderBytes := by
    rw [List.take_of_length_le]
    rw [Medium.pread_length]
    omega
  rw [← exactly] at unpacked
  obtain ⟨fits, intact, -, -, -, ownKey, -, -, ownEpoch, ownCrc⟩ := sealedHeader_eq_some sealing
  -- the header on the disk is the one that the call sealed
  have sameBase : header.base.pack = sealed.base.pack := by
    apply distinct
    · rw [unpacked]
      exact List.mem_cons_self
    · exact header_mem_checkedStrings made sealing _ _ _
    · apply BitVec.eq_of_toNat_eq
      rw [whole, intact, sameCrc]
  have headerFits : header.Fits := by
    rw [unpacked]
    apply Header.unpack_fits
    rw [exactly, List.length_take]
    omega
  have same := Header.pack_inj (base_fits headerFits) (base_fits fits) sameBase
  have sameKey : header.base.key = sealed.base.key := congrArg Header.key same
  have sameEpoch : header.base.epoch = sealed.base.epoch := congrArg Header.epoch same
  have samePayloadCrc : header.base.payloadCrc = sealed.base.payloadCrc := congrArg Header.payloadCrc same
  -- the payload on the disk is the one that the call wrote
  have samePayload : call.payload = result.flatten := by
    apply distinct
    · exact payload_mem_checkedStrings made _ _ _
    · rw [filled]
      exact List.mem_cons_of_mem _ List.mem_cons_self
    · apply BitVec.eq_of_toNat_eq
      rw [served.crc, ← ownCrc]
      exact samePayloadCrc.symm
  refine ⟨served.sizes, call, made, ?_, place, ?_, samePayload⟩
  · rw [← ownKey, ← served.key]
    exact sameKey.symm
  · rw [← ownEpoch, ← served.epoch epoch rfl]
    exact congrArg Nat.cast sameEpoch.symm

/-- The key names its group in its last four bytes; there is one group. -/
def onlyGroup (key : List UInt8) : Option (Fin 1) :=
  if decode (key.drop 32) = 0 then some (Fin.last 0) else none

def someKey : List UInt8 := List.replicate 32 7 ++ List.replicate 4 0

/-- A block is stored under epoch 257, and the power goes before it is synced. -/
def storedThenLost (choice : Nat → Option Nat) : List (RankEvent 1) :=
  [.reopen (fun _ => 4) 0,
    .write someKey 0 [[1, 2], [3]] 4083882257 (some 257) [128, 3, 128],
    .powerLoss (fun _ => choice) (fun _ => 4096), .reopen (fun _ => 4) 0]

/-- The rank that the events lead to from an empty directory. -/
def lostRank (choice : Nat → Option Nat) : Rank 1 :=
  ((Run.run (step (fun _ => 4096) onlyGroup) initial (storedThenLost choice)).getD initial)

/-- The seal and the payload both reach the disk. -/
def keptWhole (position : Nat) : Option Nat := if position < 128 then some 0 else some 1

/-- The seal loses its checksum and the second byte of its epoch. -/
def keptTorn (position : Nat) : Option Nat :=
  if position = 17 ∨ (72 ≤ position ∧ position < 76) then none else keptWhole position

theorem lostRank_reached (choice : Nat → Option Nat) :
    Run.run (step (fun _ => 4096) onlyGroup) initial (storedThenLost choice) =
      some (lostRank choice) := rfl

set_option maxRecDepth 100000 in
/-- A write that survives whole is read back. -/
theorem read_returns_one_write_keptWhole :
    ([[1, 2], [3]] : List (List UInt8)).map List.length = [[0, 0], [0]].map List.length ∧
      ∃ call ∈ (lostRank keptWhole).calls, call.key = someKey ∧ call.slot = 0 ∧
        call.epoch = 257 ∧ call.payload = [[1, 2], [3]].flatten :=
  @read_returns_one_write 1 (fun _ => 4096) onlyGroup (storedThenLost keptWhole) (lostRank keptWhole)
    ⟨fun _ => 4096, fun _ => 4, 0⟩ 0 someKey 0 [[0, 0], [0]] [[1, 2], [3]] 257 [128, 1, 2]
    (lostRank_reached keptWhole) rfl (by decide +kernel) (by decide +kernel)
    (fun _ => by decide +kernel) (by decide +kernel)

set_option maxRecDepth 100000 in
/-- Without a condition on torn checksums, a read returns a payload under an epoch it was never
written under, although no two of the checked strings share a checksum. -/
theorem torn_seal_forges_epoch :
    ∃ rank io, Run.run (step (fun _ => 4096) onlyGroup) initial (storedThenLost keptTorn) = some rank ∧
      rank.io = some io ∧ NoCollision (checkedStrings rank.calls (rank.disk 0) 0 3) ∧
      io.read onlyGroup rank.disk someKey 0 [[0, 0], [0]] (some 1) [128, 1, 2] = some [[1, 2], [3]] ∧
      ∀ call ∈ rank.calls, call.epoch = 257 := by
  refine ⟨lostRank keptTorn, ⟨fun _ => 4096, fun _ => 4, 0⟩, rfl, rfl, ?_, ?_, ?_⟩
  · decide +kernel
  · decide +kernel
  · decide +kernel

end Rank

end DgxSpark.Slab

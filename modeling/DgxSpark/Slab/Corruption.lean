import DgxSpark.Slab.Slot

/-
This file follows a stored block whose bytes rot: one changed byte in the fields of the header or
in the payload is enough for a read to fail, whatever the checksums are.
-/

namespace DgxSpark.Slab

open LittleEndian Crc32

/-- The bytes of a slot header that carry its fields. -/
def slabFieldBytes : Nat := 76

/-- The positions where a block of `length` bytes at `offset` is stored: fields and payload. -/
def Stored (offset length position : Nat) : Prop :=
  (offset ≤ position ∧ position < offset + slabFieldBytes) ∨
    (offset + slabHeaderBytes ≤ position ∧ position < offset + slabHeaderBytes + length)

/-- Of the bytes stored for a block exactly one has changed; the file was not cut short. -/
structure OneByteChanged (offset length position : Nat) (before after : Medium) : Prop where
  size : before.size ≤ after.size
  stored : Stored offset length position
  changed : after.content position ≠ before.content position
  others : ∀ other, Stored offset length other → other ≠ position →
    after.content other = before.content other

variable {offset length position : Nat} {before after : Medium} {data : List UInt8}

/-- What a read finds of data outside the changed byte. -/
theorem OneByteChanged.pread_other (change : OneByteChanged offset length position before after)
    {start index : Nat} (holds : before.Holds data start) (inside : index < data.length)
    (kept : Stored offset length (start + index)) (apart : start + index ≠ position) :
    (after.pread data.length start)[index]? = data[index]? := by
  rw [List.getElem?_eq_getElem inside]
  obtain ⟨reached, same⟩ := holds index _ (List.getElem?_eq_getElem inside)
  rw [Medium.pread_getElem?, if_pos ⟨inside, reached.trans_le change.size⟩,
    change.others _ kept apart, same]

/-- What a read finds at the changed byte. -/
theorem OneByteChanged.pread_changed (change : OneByteChanged offset length position before after)
    {start index : Nat} (holds : before.Holds data start) (inside : index < data.length)
    (here : start + index = position) :
    (after.pread data.length start)[index]? ≠ data[index]? := by
  rw [List.getElem?_eq_getElem inside]
  obtain ⟨reached, same⟩ := holds index _ (List.getElem?_eq_getElem inside)
  rw [Medium.pread_getElem?, if_pos ⟨inside, reached.trans_le change.size⟩]
  intro equal
  apply change.changed
  rw [here] at equal same
  exact (Option.some.inj equal).trans same.symm

theorem OneByteChanged.pread_length (change : OneByteChanged offset length position before after)
    {start : Nat} (holds : before.Holds data start) :
    (after.pread data.length start).length = data.length := by
  have whole := congrArg List.length (Medium.pread_of_holds holds)
  rw [Medium.pread_length] at whole ⊢
  have grown := change.size
  omega

/-! ### The header -/

/-- A header whose fields are damaged in one byte is refused. -/
theorem parseHeader_damaged {sealed : Header} {raw : List UInt8} (index : Nat)
    (fits : sealed.Fits) (whole : sealed.Sealed) (complete : raw.length = slabHeaderBytes)
    (inside : index < slabFieldBytes) (differs : raw[index]? ≠ sealed.pack[index]?)
    (others : ∀ other, other < slabFieldBytes → other ≠ index → raw[other]? = sealed.pack[other]?) :
    parseHeader raw = none := by
  cases parsed : parseHeader raw with
  | none => rfl
  | some header =>
      obtain ⟨-, read, -, -, valid⟩ := parseHeader_eq_some parsed
      rw [List.take_of_length_le (by omega)] at read
      have size := Header.pack_length fits
      have own := Header.base_pack_unpack size
      rw [Header.unpack_pack fits] at own
      have found := Header.base_pack_unpack complete
      rw [← read] at found
      have limit : slabFieldBytes = 76 := rfl
      have total : slabHeaderBytes = 128 := rfl
      have fields : (raw.take 72).length = 72 ∧ (sealed.pack.take 72).length = 72 := by
        rw [List.length_take, List.length_take]
        omega
      by_cases early : index < 72
      · -- both checksum fields read the same, but they cover different bytes
        have same : header.headerCrc = sealed.headerCrc := by
          rw [read, ← Header.unpack_pack fits]
          dsimp only [Header.unpack]
          congr 1
          apply List.ext_getElem?
          intro other
          rw [List.getElem?_take, List.getElem?_take, List.getElem?_drop, List.getElem?_drop]
          split
          · exact others _ (by omega) (by omega)
          · rfl
        have covered : crc32 header.base.pack ≠ crc32 sealed.base.pack := by
          rw [found, own]
          apply crc32_ne_of_byte index
          · rw [List.length_append, List.length_append, fields.1, fields.2]
          · intro other apart
            rw [List.getElem?_append, List.getElem?_append, fields.1, fields.2]
            split
            · rw [List.getElem?_take, List.getElem?_take, if_pos (by omega), if_pos (by omega)]
              exact others other (by omega) apart
            · rfl
          · rw [List.getElem?_append_left (by omega), List.getElem?_append_left (by omega),
              List.getElem?_take, List.getElem?_take, if_pos early, if_pos early]
            exact differs
        unfold Header.Sealed at valid whole
        exact absurd (BitVec.eq_of_toNat_eq (by rw [valid, whole, same])) covered
      · -- the checksum field itself has changed, and what it covers has not
        have same : raw.take 72 = sealed.pack.take 72 := by
          apply List.ext_getElem?
          intro other
          rw [List.getElem?_take, List.getElem?_take]
          split
          · exact others other (by omega) (by omega)
          · rfl
        have checksums : header.headerCrc = sealed.headerCrc := by
          unfold Header.Sealed at valid whole
          rw [← valid, ← whole, found, own, same]
        rw [read, ← Header.unpack_pack fits] at checksums
        have bytes := decode_inj (by simp only [List.length_take, List.length_drop, complete, size])
          checksums
        have moved := congrArg (fun word : List UInt8 => word[index - 72]?) bytes
        simp only [List.getElem?_take, List.getElem?_drop] at moved
        rw [if_pos (by omega), if_pos (by omega), Nat.add_sub_cancel' (by omega)] at moved
        exact absurd moved differs

/-- A header whose fields are undamaged is parsed as it was written. -/
theorem parseHeader_undamaged {sealed header : Header} {raw : List UInt8} (fits : sealed.Fits)
    (complete : raw.length = slabHeaderBytes)
    (same : ∀ other, other < slabFieldBytes → raw[other]? = sealed.pack[other]?)
    (parsed : parseHeader raw = some header) : header = sealed := by
  obtain ⟨-, read, -⟩ := parseHeader_eq_some parsed
  rw [List.take_of_length_le (by omega)] at read
  have fields : raw.take 76 = sealed.pack.take 76 := by
    apply List.ext_getElem?
    intro other
    rw [List.getElem?_take, List.getElem?_take]
    split
    · exact same other (by assumption)
    · rfl
  rw [read, ← Header.unpack_take, fields, Header.unpack_take, Header.unpack_pack fits]

variable {groups : Nat} {group : List UInt8 → Option (Fin groups)}

/-- A block with one changed byte is never returned. -/
theorem SlabIo.read_damaged {io : SlabIo groups} {before after : Disk groups} {call : WriteCall groups}
    {sealed : Header} {position : Nat}
    (shown : call.Shown (io.slotBytes call.group) (before call.group) sealed)
    (change : OneByteChanged (call.slot * io.slotBytes call.group) call.payload.length position
      (before call.group) (after call.group))
    (grouped : group call.key = some call.group) (views : List (List UInt8)) (epoch : Option Int)
    (replies : List Nat) :
    io.read group after call.key call.slot views epoch replies = none := by
  cases returned : io.read group after call.key call.slot views epoch replies with
  | none => rfl
  | some result =>
      obtain ⟨g, header, located, served⟩ := SlabIo.read_eq_some returned
      rw [grouped] at located
      cases located
      obtain ⟨fits, whole, -, -, -, -, ownLength, -, -, ownCrc⟩ := sealedHeader_eq_some shown.header
      have size := Header.pack_length fits
      have complete := change.pread_length shown.sealing
      have parsed := served.parsed
      rw [← size] at parsed
      have limit : slabFieldBytes = 76 := rfl
      have total : slabHeaderBytes = 128 := rfl
      rcases change.stored with ⟨low, high⟩ | ⟨low, high⟩
      · have refused := parseHeader_damaged (position - call.slot * io.slotBytes call.group)
          fits whole (complete.trans size) (by omega)
          (change.pread_changed shown.sealing (by omega) (by omega))
          (fun other early apart => change.pread_other shown.sealing (by omega)
            (.inl ⟨by omega, by omega⟩) (by omega))
        rw [refused] at parsed
        cases parsed
      · have same := parseHeader_undamaged fits (complete.trans size)
          (fun other early => change.pread_other shown.sealing (by omega)
            (.inl ⟨by omega, by omega⟩) (by omega)) parsed
        have long : views.flatten.length = call.payload.length := by
          rw [← served.length, same, ownLength]
        have bytes := served.payload
        rw [long] at bytes
        have checked := served.crc
        rw [same, ownCrc, bytes] at checked
        refine absurd (BitVec.eq_of_toNat_eq checked) ?_
        apply crc32_ne_of_byte (position - (call.slot * io.slotBytes call.group + slabHeaderBytes))
        · exact change.pread_length shown.payload
        · intro other apart
          by_cases inside : other < call.payload.length
          · exact change.pread_other shown.payload inside (.inr ⟨by omega, by omega⟩) (by omega)
          · rw [List.getElem?_eq_none, List.getElem?_eq_none (by omega)]
            rw [change.pread_length shown.payload]
            omega
        · exact change.pread_changed shown.payload (by omega) (by omega)

/-- The disk with one byte of one slab replaced. -/
def replaceByte (disk : Disk groups) (g : Fin groups) (position : Nat) (byte : UInt8) : Disk groups :=
  Function.update disk g
    { disk g with content := Function.update (disk g).content position byte }

theorem replaceByte_changed {disk : Disk groups} {g : Fin groups} {byte : UInt8}
    (stored : Stored offset length position) (differs : byte ≠ (disk g).content position) :
    OneByteChanged offset length position (disk g) (replaceByte disk g position byte g) where
  size := by
    rw [replaceByte, Function.update_self]
  stored := stored
  changed := by
    rw [replaceByte, Function.update_self]
    dsimp only
    rwa [Function.update_self]
  others := by
    intro other _ apart
    rw [replaceByte, Function.update_self]
    dsimp only
    rw [Function.update_of_ne apart]

/-- Once a write has run to its end, changing any single byte of the header's fields or of the
payload makes every later read of the block fail. -/
theorem SlabIo.single_byte_corruption_detected (io : SlabIo groups) (disk later : Disk groups)
    (key : List UInt8) (g : Fin groups) (slot : Nat) (views : List (List UInt8)) (seq : Int)
    (epoch : Option Int) (replies : List Nat) (position : Nat) (grouped : group key = some g)
    (done : (io.write group disk key slot views seq epoch replies).2 = true)
    (change : OneByteChanged (slot * io.slotBytes g) views.flatten.length position
      ((io.write group disk key slot views seq epoch replies).1 g) (later g))
    (buffers : List (List UInt8)) (wanted : Option Int) (results : List Nat) :
    io.read group later key slot buffers wanted results = none := by
  obtain ⟨call, sealed, found, shown⟩ := SlabIo.write_shown done
  obtain ⟨own, located, -, -, rfl⟩ := Rank.callOf_eq_some.mp found
  rw [grouped] at located
  cases located
  exact SlabIo.read_damaged shown change grouped buffers wanted results

def rotIo : SlabIo 1 := ⟨fun _ => 4096, fun _ => 2, 0⟩

/-- The second slot holds a block of three bytes. -/
def rotDisk : Disk 1 :=
  (rotIo.write Rank.onlyGroup (fun _ => Medium.empty) Rank.someKey 1 [[1, 2], [3]] 7 (some 5)
    [128, 1, 2, 100, 28]).1

theorem rotDisk_second : (0x82 : UInt8) ≠ (rotDisk (Fin.last 0)).content (4096 + 129) := by
  decide +kernel

set_option maxRecDepth 100000 in
/-- A block that reads back is lost once the second byte of its payload changes. -/
theorem SlabIo.single_byte_corruption_detected_payload :
    rotIo.read Rank.onlyGroup rotDisk Rank.someKey 1 [[0, 0, 0]] (some 5) [128, 3] =
        some [[1, 2, 3]] ∧
      rotIo.read Rank.onlyGroup (replaceByte rotDisk (Fin.last 0) (4096 + 129) 0x82) Rank.someKey 1
        [[0, 0, 0]] (some 5) [128, 3] = none := by
  constructor
  · decide +kernel
  · exact SlabIo.single_byte_corruption_detected rotIo (fun _ => Medium.empty) _ Rank.someKey
      (Fin.last 0) 1 [[1, 2], [3]] 7 (some 5) [128, 1, 2, 100, 28] (4096 + 129) (by decide +kernel)
      (by decide +kernel)
      (replaceByte_changed (.inr ⟨by decide, by decide⟩) rotDisk_second) [[0, 0, 0]] (some 5) [128, 3]

end DgxSpark.Slab

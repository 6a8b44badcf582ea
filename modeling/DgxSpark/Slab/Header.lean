import Mathlib.Tactic
import DgxSpark.Library.LittleEndian
import DgxSpark.Library.Crc32

/-
This file gives the 128-byte header in front of every slot of a slab: magic (8), version (4),
group (4), epoch (4), length (4), seq (8), key (36), payload CRC (4), header CRC (4), pad (52).
-/

namespace DgxSpark.Slab

open LittleEndian Crc32

def slabMagic : List UInt8 := [0x47, 0x4C, 0x4D, 0x53, 0x4C, 0x41, 0x42, 0x31]

def slabVersion : Nat := 2

def slabHeaderBytes : Nat := 128

/-- The fields of a header as `_SLAB_HDR` names them. -/
@[ext]
structure Header where
  magic : List UInt8
  version : Nat
  group : Nat
  epoch : Nat
  length : Nat
  seq : Nat
  key : List UInt8
  payloadCrc : Nat
  headerCrc : Nat
  deriving DecidableEq

/-- The ranges that `struct.pack` demands of the fields. -/
structure Header.Fits (header : Header) : Prop where
  magic : header.magic.length = 8
  version : header.version < 256 ^ 4
  group : header.group < 256 ^ 4
  epoch : header.epoch < 256 ^ 4
  length : header.length < 256 ^ 4
  seq : header.seq < 256 ^ 8
  key : header.key.length = 36
  payloadCrc : header.payloadCrc < 256 ^ 4
  headerCrc : header.headerCrc < 256 ^ 4

namespace Header

/-- `_SLAB_HDR.pack` on fields in range. -/
def pack (header : Header) : List UInt8 :=
  header.magic ++ (encode 4 header.version ++ (encode 4 header.group ++ (encode 4 header.epoch ++
    (encode 4 header.length ++ (encode 8 header.seq ++ (header.key ++
      (encode 4 header.payloadCrc ++ (encode 4 header.headerCrc ++ List.replicate 52 0))))))))

/-- `_SLAB_HDR.unpack` on 128 bytes; the pad is not looked at. -/
def unpack (raw : List UInt8) : Header where
  magic := raw.take 8
  version := decode ((raw.drop 8).take 4)
  group := decode ((raw.drop 12).take 4)
  epoch := decode ((raw.drop 16).take 4)
  length := decode ((raw.drop 20).take 4)
  seq := decode ((raw.drop 24).take 8)
  key := (raw.drop 32).take 36
  payloadCrc := decode ((raw.drop 68).take 4)
  headerCrc := decode ((raw.drop 72).take 4)

/-- The header with its own checksum left out, which is what that checksum covers. -/
def base (header : Header) : Header := { header with headerCrc := 0 }

/-- The header carries the checksum of its other fields. -/
def Sealed (header : Header) : Prop := (crc32 header.base.pack).toNat = header.headerCrc

instance (header : Header) : Decidable header.Sealed :=
  inferInstanceAs (Decidable ((crc32 header.base.pack).toNat = header.headerCrc))

/-- The header with the checksum of its other fields put in. -/
def withChecksum (header : Header) : Header :=
  { header with headerCrc := (crc32 header.base.pack).toNat }

variable {header : Header}

theorem pack_length (fits : header.Fits) : header.pack.length = slabHeaderBytes := by
  simp only [pack, List.length_append, encode_length, List.length_replicate, fits.magic, fits.key]
  rfl

theorem drop_field {field rest : List UInt8} {width offset : Nat} (size : field.length = width)
    (behind : width ≤ offset) : (field ++ rest).drop offset = rest.drop (offset - width) := by
  rw [List.drop_append, List.drop_of_length_le (by omega), List.nil_append, size]

/-- Packing loses none of the fields. -/
theorem unpack_pack (fits : header.Fits) : unpack header.pack = header := by
  have magic := fits.magic
  have key := fits.key
  have size : ∀ width value, (encode width value).length = width := encode_length
  ext1
  all_goals
    simp only [pack, unpack, drop_field magic, drop_field key, drop_field (size _ _), List.drop_zero,
      Nat.reduceLeDiff, Nat.reduceSub, le_refl, List.take_left' magic, List.take_left' key,
      List.take_left' (size _ _)]
  · exact decode_encode fits.version
  · exact decode_encode fits.group
  · exact decode_encode fits.epoch
  · exact decode_encode fits.length
  · exact decode_encode fits.seq
  · exact decode_encode fits.payloadCrc
  · exact decode_encode fits.headerCrc

theorem pack_inj {other : Header} (fits : header.Fits) (otherFits : other.Fits)
    (same : header.pack = other.pack) : header = other := by
  rw [← unpack_pack fits, ← unpack_pack otherFits, same]

theorem unpack_fits {raw : List UInt8} (complete : raw.length = slabHeaderBytes) :
    (unpack raw).Fits := by
  have field : ∀ offset width, offset + width ≤ 128 →
      decode ((raw.drop offset).take width) < 256 ^ width := by
    intro offset width inside
    have bound := decode_lt ((raw.drop offset).take width)
    rwa [List.length_take, List.length_drop, complete, Nat.min_eq_left] at bound
    have total : slabHeaderBytes = 128 := rfl
    omega
  refine ⟨?_, field 8 4 (by decide), field 12 4 (by decide), field 16 4 (by decide),
    field 20 4 (by decide), field 24 8 (by decide), ?_, field 68 4 (by decide),
    field 72 4 (by decide)⟩
  · simp only [unpack, List.length_take, complete]
    rfl
  · simp only [unpack, List.length_take, List.length_drop, complete]
    rfl

/-- The fields of a header lie in its first 76 bytes. -/
theorem unpack_take (raw : List UInt8) : unpack (raw.take 76) = unpack raw := by
  simp only [unpack, List.drop_take, List.take_take]
  rfl

theorem encode_field {raw : List UInt8} (complete : raw.length = slabHeaderBytes) {offset width : Nat}
    (inside : offset + width ≤ slabHeaderBytes) :
    encode width (decode ((raw.drop offset).take width)) = (raw.drop offset).take width := by
  have size : ((raw.drop offset).take width).length = width := by
    rw [List.length_take, List.length_drop]
    omega
  have same := encode_decode ((raw.drop offset).take width)
  rwa [size] at same

/-- The checksum of a header on disk covers its first 72 bytes and zeros in place of the others. -/
theorem base_pack_unpack {raw : List UInt8} (complete : raw.length = slabHeaderBytes) :
    (unpack raw).base.pack = raw.take 72 ++ List.replicate 56 0 := by
  have word : ∀ offset, offset + 4 ≤ slabHeaderBytes →
      encode 4 (decode ((raw.drop offset).take 4)) = (raw.drop offset).take 4 :=
    fun offset inside => encode_field complete inside
  have wide : encode 8 (decode ((raw.drop 24).take 8)) = (raw.drop 24).take 8 :=
    encode_field complete (by decide)
  have zeros : encode 4 0 ++ List.replicate 52 (0 : UInt8) = List.replicate 56 0 := by decide
  simp only [base, pack, unpack, zeros, wide, word 8 (by decide), word 12 (by decide),
    word 16 (by decide), word 20 (by decide), word 68 (by decide), ← List.append_assoc,
    ← List.take_add, Nat.reduceAdd]

end Header

end DgxSpark.Slab

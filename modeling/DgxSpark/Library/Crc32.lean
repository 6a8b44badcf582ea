import Mathlib.Tactic

namespace DgxSpark.Crc32

/-- The reflected CRC-32 polynomial. -/
def polynomial : BitVec 32 := 0xEDB88320#32

/-- One bit of the register is shifted out and folded back. -/
def bitStep (register : BitVec 32) : BitVec 32 :=
  if register.getLsbD 0 then (register >>> 1) ^^^ polynomial else register >>> 1

def bitSteps : Nat → BitVec 32 → BitVec 32
  | 0, register => register
  | count + 1, register => bitSteps count (bitStep register)

/-- One byte enters the register. -/
def byteStep (register : BitVec 32) (byte : UInt8) : BitVec 32 :=
  bitSteps 8 (register ^^^ byte.toBitVec.setWidth 32)

/-- The checksum continues from an earlier one, as `zlib.crc32` with two arguments. -/
def update (checksum : BitVec 32) (bytes : List UInt8) : BitVec 32 :=
  ~~~ (bytes.foldl byteStep (~~~ checksum))

def crc32 (bytes : List UInt8) : BitVec 32 := update 0 bytes

theorem update_append (checksum : BitVec 32) (first second : List UInt8) :
    update checksum (first ++ second) = update (update checksum first) second := by
  simp only [update, List.foldl_append, BitVec.not_not]

/-- Checksumming buffers one after the other checksums their concatenation. -/
theorem foldl_update (checksum : BitVec 32) (buffers : List (List UInt8)) :
    buffers.foldl update checksum = update checksum buffers.flatten := by
  induction buffers generalizing checksum with
  | nil => simp only [List.foldl_nil, List.flatten_nil, update, BitVec.not_not]
  | cons buffer rest ih =>
      rw [List.foldl_cons, ih, List.flatten_cons, update_append]

/-- The bit shifted out comes back as the top bit, which the polynomial sets. -/
theorem bitStep_top (register : BitVec 32) : (bitStep register).getLsbD 31 = register.getLsbD 0 := by
  have top : polynomial.getLsbD 31 = true := by decide
  unfold bitStep
  cases low : register.getLsbD 0 with
  | false => simp
  | true => simp [top]

/-- No two registers step to the same one. -/
theorem bitStep_injective : Function.Injective bitStep := by
  intro first second same
  have low : first.getLsbD 0 = second.getLsbD 0 := by
    rw [← bitStep_top first, ← bitStep_top second, same]
  have shifted : first >>> 1 = second >>> 1 := by
    unfold bitStep at same
    rw [low] at same
    split at same
    · exact (BitVec.xor_left_inj _).mp same
    · exact same
  apply BitVec.eq_of_getLsbD_eq
  intro index inside
  cases index with
  | zero => exact low
  | succ index =>
      have moved := congrArg (fun register => register.getLsbD index) shifted
      simpa only [BitVec.getLsbD_ushiftRight, Nat.add_comm 1 index] using moved

theorem bitSteps_injective (count : Nat) : Function.Injective (bitSteps count) := by
  induction count with
  | zero => exact fun first second same => same
  | succ count ih => exact ih.comp bitStep_injective

/-- A byte keeps different registers apart. -/
theorem byteStep_register_injective (byte : UInt8) :
    Function.Injective fun register => byteStep register byte := by
  intro first second same
  exact (BitVec.xor_left_inj _).mp (bitSteps_injective 8 same)

/-- Different bytes take one register to different ones. -/
theorem byteStep_byte_injective (register : BitVec 32) : Function.Injective (byteStep register) := by
  intro first second same
  have widened := (BitVec.xor_right_inj _).mp (bitSteps_injective 8 same)
  apply UInt8.toBitVec_inj.mp
  have narrowed := congrArg (BitVec.setWidth 8) widened
  simpa only [BitVec.setWidth_setWidth_of_le _ (by decide : 8 ≤ 32), BitVec.setWidth_eq] using narrowed

theorem foldl_byteStep_injective (bytes : List UInt8) :
    Function.Injective fun register => bytes.foldl byteStep register := by
  induction bytes with
  | nil => exact fun first second same => same
  | cons byte rest ih => exact ih.comp (byteStep_register_injective byte)

theorem crc32_ne_of_middle (front back : List UInt8) {first second : UInt8} (differs : first ≠ second) :
    crc32 (front ++ first :: back) ≠ crc32 (front ++ second :: back) := by
  intro same
  have registers := BitVec.not_inj.mp same
  rw [List.foldl_append, List.foldl_append, List.foldl_cons, List.foldl_cons] at registers
  exact differs (byteStep_byte_injective _ (foldl_byteStep_injective back registers))

/-- Two lists of one length that differ in exactly one byte have different checksums. -/
theorem crc32_ne_of_byte {first second : List UInt8} (index : Nat)
    (size : first.length = second.length)
    (others : ∀ other, other ≠ index → first[other]? = second[other]?)
    (differs : first[index]? ≠ second[index]?) : crc32 first ≠ crc32 second := by
  have inside : index < first.length := by
    by_contra outside
    apply differs
    rw [List.getElem?_eq_none (by omega), List.getElem?_eq_none (by omega)]
  have within : index < second.length := by omega
  have front : first.take index = second.take index := by
    apply List.ext_getElem?
    intro other
    rw [List.getElem?_take, List.getElem?_take]
    split
    · exact others other (by omega)
    · rfl
  have back : first.drop (index + 1) = second.drop (index + 1) := by
    apply List.ext_getElem?
    intro other
    rw [List.getElem?_drop, List.getElem?_drop]
    exact others _ (by omega)
  rw [List.getElem?_eq_getElem inside, List.getElem?_eq_getElem within] at differs
  rw [← List.take_append_drop index first, ← List.take_append_drop index second,
    List.drop_eq_getElem_cons inside, List.drop_eq_getElem_cons within, front, back]
  exact crc32_ne_of_middle _ _ fun same => differs (congrArg some same)

example : crc32 "123456789".toUTF8.toList = 0xCBF43926#32 := by decide +kernel

end DgxSpark.Crc32

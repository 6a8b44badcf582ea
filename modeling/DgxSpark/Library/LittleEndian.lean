import Mathlib.Tactic

namespace DgxSpark.LittleEndian

/-- The lowest `width` bytes of a number, the least significant byte first. -/
def encode : Nat → Nat → List UInt8
  | 0, _ => []
  | width + 1, value => UInt8.ofNat value :: encode width (value / 256)

/-- The number that a list of bytes spells, the least significant byte first. -/
def decode : List UInt8 → Nat
  | [] => 0
  | byte :: rest => byte.toNat + 256 * decode rest

@[simp] theorem encode_length (width value : Nat) : (encode width value).length = width := by
  induction width generalizing value with
  | zero => rfl
  | succ width ih => simp only [encode, List.length_cons, ih]

theorem decode_encode {width value : Nat} (fits : value < 256 ^ width) :
    decode (encode width value) = value := by
  induction width generalizing value with
  | zero =>
      have none : value = 0 := by simpa using fits
      rw [none]
      rfl
  | succ width ih =>
      have rest : value / 256 < 256 ^ width := by
        rw [pow_succ] at fits
        exact Nat.div_lt_of_lt_mul (by rwa [Nat.mul_comm] at fits)
      have low : (UInt8.ofNat value).toNat = value % 256 := UInt8.toNat_ofNat'
      simp only [encode, decode, ih rest, low]
      omega

theorem decode_lt (bytes : List UInt8) : decode bytes < 256 ^ bytes.length := by
  induction bytes with
  | nil => exact Nat.one_pos
  | cons byte rest ih =>
      have small : byte.toNat < 256 := byte.toNat_lt
      simp only [decode, List.length_cons, pow_succ]
      omega

/-- Bytes are determined by the number they spell. -/
theorem encode_decode (bytes : List UInt8) : encode bytes.length (decode bytes) = bytes := by
  induction bytes with
  | nil => rfl
  | cons byte rest ih =>
      have small : byte.toNat < 256 := byte.toNat_lt
      have low : UInt8.ofNat (byte.toNat + 256 * decode rest) = byte := by
        apply UInt8.toNat_inj.mp
        rw [UInt8.toNat_ofNat']
        omega
      have high : (byte.toNat + 256 * decode rest) / 256 = decode rest := by omega
      simp only [List.length_cons, decode, encode, low, high, ih]

/-- Bytes of one count are told apart by the numbers they spell. -/
theorem decode_inj {first second : List UInt8} (size : first.length = second.length)
    (same : decode first = decode second) : first = second := by
  rw [← encode_decode first, ← encode_decode second, size, same]

theorem encode_inj {width first second : Nat} (firstFits : first < 256 ^ width)
    (secondFits : second < 256 ^ width) (same : encode width first = encode width second) :
    first = second := by
  have decoded := congrArg decode same
  rwa [decode_encode firstFits, decode_encode secondFits] at decoded

end DgxSpark.LittleEndian

import Mathlib.Data.Nat.Basic

/-
This file packs four bytes into the lanes of a 32-bit word, the lowest lane first, and takes them out again.
-/

namespace DgxSpark.Library

def packLanes (lanes : Nat → BitVec 32) : BitVec 32 :=
  lanes 0 ||| (lanes 1 <<< 8) ||| (lanes 2 <<< 16) ||| (lanes 3 <<< 24)

/-- The byte of a lane of a signed word. -/
def unpackLane (word : BitVec 32) (lane : Nat) : Nat := (word.sshiftRight (8 * lane) &&& 255#32).toNat

theorem getLsbD_of_byte {byte : BitVec 32} (small : byte.toNat < 256) {i : Nat} (high : 8 ≤ i) :
    byte.getLsbD i = false := by
  have wide : 2 ^ 8 ≤ 2 ^ i := Nat.pow_le_pow_right (by decide) high
  exact Nat.testBit_lt_two_pow (Nat.lt_of_lt_of_le small wide)

theorem mask_getLsbD (i : Nat) : (255#32).getLsbD i = decide (i < 8) := by
  rw [BitVec.getLsbD, show (255#32).toNat = 2 ^ 8 - 1 from rfl, Nat.testBit_two_pow_sub_one]

/-- A byte shifted to a lane has its bits there and none in the other lanes. -/
theorem shifted_getLsbD {byte : BitVec 32} (small : byte.toNat < 256) {lane other i : Nat} (below : 8 * lane + i < 32)
    (low : i < 8) : (byte <<< (8 * other)).getLsbD (8 * lane + i) = (decide (other = lane) && byte.getLsbD i) := by
  rw [BitVec.getLsbD_shiftLeft, decide_eq_true below, Bool.true_and]
  rcases Nat.lt_trichotomy other lane with before | rfl | after
  · have apart : ¬other = lane := by omega
    rw [getLsbD_of_byte small (by omega), Bool.and_false, decide_eq_false apart, Bool.false_and]
  · rw [decide_eq_false (by omega), decide_eq_true rfl, Nat.add_sub_cancel_left]
    rfl
  · rw [decide_eq_true (by omega), decide_eq_false (by omega)]
    rfl

/-- What was packed is unpacked, also from the lane with the sign. -/
theorem unpack_pack {lanes : Nat → BitVec 32} (bytes : ∀ lane, (lanes lane).toNat < 256) {lane : Nat}
    (inside : lane < 4) : unpackLane (packLanes lanes) lane = (lanes lane).toNat := by
  have packed : packLanes lanes = lanes 0 <<< (8 * 0) ||| lanes 1 <<< (8 * 1) ||| lanes 2 <<< (8 * 2) |||
      lanes 3 <<< (8 * 3) := by
    simp only [packLanes, Nat.mul_zero, BitVec.shiftLeft_zero]
  have same : (packLanes lanes).sshiftRight (8 * lane) &&& 255#32 = lanes lane := by
    apply BitVec.eq_of_getLsbD_eq
    intro i below
    rw [BitVec.getLsbD_and, mask_getLsbD, BitVec.getLsbD_sshiftRight]
    by_cases low : i < 8
    · have fits : 8 * lane + i < 32 := by omega
      rw [if_pos fits, decide_eq_true low, decide_eq_false (by omega), packed]
      simp only [BitVec.getLsbD_or, shifted_getLsbD (bytes _) fits low]
      have which : lane = 0 ∨ lane = 1 ∨ lane = 2 ∨ lane = 3 := by omega
      rcases which with rfl | rfl | rfl | rfl <;> simp
    · rw [decide_eq_false low, Bool.and_false, getLsbD_of_byte (bytes lane) (Nat.le_of_not_lt low)]
  rw [unpackLane, same]

end DgxSpark.Library

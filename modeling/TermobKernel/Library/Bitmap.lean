import Mathlib.Data.Nat.Bitwise
import Mathlib.Tactic

/-!
# Sets of numbers as bits of bytes

A list of bytes holds one bit for every number below eight times its length: bit `i % 8` of byte `i / 8`.
Testing, setting and clearing a bit with a mask of that one bit are the set operations on the numbers whose
bit is clear.
-/

namespace TermobKernel.Bitmap

def bit (bytes : List UInt8) (i : Nat) : Bool := (bytes.getD (i / 8) 0).toNat.testBit (i % 8)

def clear (bytes : List UInt8) (n : Nat) : Finset Nat := (Finset.range n).filter (bit bytes · = false)

theorem mem_clear {bytes : List UInt8} {n i : Nat} : i ∈ clear bytes n ↔ i < n ∧ bit bytes i = false := by
  rw [clear, Finset.mem_filter, Finset.mem_range]

theorem bit_replicate {n i : Nat} (h : i < 8 * n) : bit (List.replicate n 0xFF) i = true := by
  have hbyte : (List.replicate n (0xFF : UInt8)).getD (i / 8) 0 = 0xFF := by
    rw [List.getD_eq_getElem?_getD, List.getElem?_replicate, if_pos (by omega)]
    rfl
  have hlt : i % 8 < 8 := Nat.mod_lt _ (by omega)
  rw [bit, hbyte, show (0xFF : UInt8).toNat = 2 ^ 8 - 1 from rfl, Nat.testBit_two_pow_sub_one]
  simpa using hlt

theorem bit_set {bytes : List UInt8} {i : Nat} (byte : UInt8) (hi : i / 8 < bytes.length) (j : Nat) :
    bit (bytes.set (i / 8) byte) j = if j / 8 = i / 8 then byte.toNat.testBit (j % 8) else bit bytes j := by
  unfold bit
  rw [List.getD_eq_getElem?_getD, List.getD_eq_getElem?_getD, List.getElem?_set]
  by_cases hbyte : j / 8 = i / 8
  · rw [if_pos hbyte, if_pos hbyte.symm, if_pos (by omega)]
    rfl
  · rw [if_neg hbyte, if_neg (fun h => hbyte h.symm)]

section mask
variable {bytes : List UInt8} {i : Nat} {mask : UInt8} (hmask : mask.toNat = 2 ^ (i % 8))
include hmask

theorem and_mask_ne_zero : bytes.getD (i / 8) 0 &&& mask ≠ 0 ↔ bit bytes i = true := by
  rw [ne_eq, ← UInt8.toNat_inj, UInt8.toNat_and, hmask, Nat.and_two_pow, UInt8.toNat_zero, ← bit]
  cases bit bytes i
  · simp
  · simp

theorem bit_or_mask (hi : i / 8 < bytes.length) (j : Nat) :
    bit (bytes.set (i / 8) (bytes.getD (i / 8) 0 ||| mask)) j = (bit bytes j || decide (j = i)) := by
  rw [bit_set _ hi]
  by_cases hbyte : j / 8 = i / 8
  · have hbit : i % 8 = j % 8 ↔ j = i := by omega
    rw [if_pos hbyte, UInt8.toNat_or, hmask, Nat.testBit_or, Nat.testBit_two_pow, ← hbyte, ← bit]
    simp only [hbit]
  · have hne : j ≠ i := fun h => hbyte (by rw [h])
    rw [if_neg hbyte, decide_eq_false hne, Bool.or_false]

theorem bit_and_not_mask (hi : i / 8 < bytes.length) (j : Nat) :
    bit (bytes.set (i / 8) (bytes.getD (i / 8) 0 &&& ~~~mask)) j = (bit bytes j && decide (j ≠ i)) := by
  rw [bit_set _ hi]
  by_cases hbyte : j / 8 = i / 8
  · have hbit : i % 8 = j % 8 ↔ j = i := by omega
    have hlt : j % 8 < 8 := Nat.mod_lt _ (by omega)
    have hnot : (~~~mask).toNat.testBit (j % 8) = !decide (j = i) := by
      rw [← UInt8.toNat_toBitVec, UInt8.toBitVec_not, BitVec.testBit_toNat, BitVec.getLsbD_not,
        ← BitVec.testBit_toNat, UInt8.toNat_toBitVec, hmask, Nat.testBit_two_pow]
      simp [hlt, hbit]
    rw [if_pos hbyte, UInt8.toNat_and, Nat.testBit_and, hnot, ← hbyte, ← bit]
    simp
  · have hne : j ≠ i := fun h => hbyte (by rw [h])
    rw [if_neg hbyte, decide_eq_true hne, Bool.and_true]

theorem clear_and_not_mask (hi : i / 8 < bytes.length) {n : Nat} (hn : i < n) :
    clear (bytes.set (i / 8) (bytes.getD (i / 8) 0 &&& ~~~mask)) n = insert i (clear bytes n) := by
  ext j
  rw [Finset.mem_insert, mem_clear, mem_clear, bit_and_not_mask hmask hi]
  by_cases hj : j = i
  · simp [hj, hn]
  · simp [hj]

end mask

end TermobKernel.Bitmap

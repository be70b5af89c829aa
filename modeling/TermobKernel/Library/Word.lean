import Mathlib.Tactic

/-!
# 32-bit words

Arithmetic of `UInt32` as arithmetic of `Nat`: masks that round down to a power of two, the test and
set masks of one bit, and the distance of two words on the circle of `2 ^ 32` addresses.
-/

namespace TermobKernel.Word

variable {x y : UInt32} {a b : UInt32} {n : Nat}

theorem and_not_mask (x : BitVec 32) (k : Nat) (hk : k ≤ 32) :
    x &&& ~~~BitVec.ofNat 32 (2 ^ k - 1) = (x >>> k) <<< k := by
  have hpow : 2 ^ k ≤ 2 ^ 32 := Nat.pow_le_pow_right (by omega) hk
  have hpos : 0 < 2 ^ k := Nat.two_pow_pos k
  have hmask : (BitVec.ofNat 32 (2 ^ k - 1)).toNat = 2 ^ k - 1 := by
    rw [BitVec.toNat_ofNat, Nat.mod_eq_of_lt (by omega)]
  ext i hi
  simp only [BitVec.getElem_and, BitVec.getElem_not, BitVec.getElem_shiftLeft]
  rw [BitVec.getElem_eq_testBit_toNat (BitVec.ofNat 32 (2 ^ k - 1)), hmask, Nat.testBit_two_pow_sub_one]
  by_cases hi' : i < k
  · simp [hi']
  · have hle : k ≤ i := by omega
    simp [hi', Nat.add_sub_cancel' hle, BitVec.getLsbD_eq_getElem hi]

theorem toNat_and_not_mask (x : UInt32) (k : Nat) (hk : k ≤ 32) :
    (x &&& ~~~UInt32.ofNat (2 ^ k - 1)).toNat = x.toNat / 2 ^ k * 2 ^ k := by
  have hle : x.toNat / 2 ^ k * 2 ^ k ≤ x.toNat := Nat.div_mul_le_self _ _
  have hx := x.toNat_lt
  rw [← UInt32.toNat_toBitVec, UInt32.toBitVec_and, UInt32.toBitVec_not]
  change (x.toBitVec &&& ~~~BitVec.ofNat 32 (2 ^ k - 1)).toNat = _
  rw [and_not_mask _ _ hk, BitVec.toNat_shiftLeft, BitVec.toNat_ushiftRight, UInt32.toNat_toBitVec,
    Nat.shiftRight_eq_div_pow, Nat.shiftLeft_eq]
  exact Nat.mod_eq_of_lt (by omega)

theorem toNat_and_mask (x : UInt32) (k : Nat) (hk : k ≤ 32) :
    (x &&& UInt32.ofNat (2 ^ k - 1)).toNat = x.toNat % 2 ^ k := by
  have hpow : 2 ^ k ≤ 2 ^ 32 := Nat.pow_le_pow_right (by omega) hk
  have hpos : 0 < 2 ^ k := Nat.two_pow_pos k
  rw [UInt32.toNat_and, UInt32.toNat_ofNat_of_lt' (show 2 ^ k - 1 < 2 ^ 32 by omega),
    Nat.and_two_pow_sub_one_eq_mod]

theorem or_one_and_one (x : UInt32) : (x ||| 1) &&& 1 = 1 := by
  apply UInt32.toBitVec_inj.mp
  ext i hi
  simp only [UInt32.toBitVec_and, UInt32.toBitVec_or, BitVec.getElem_and, BitVec.getElem_or]
  cases x.toBitVec[i] <;> simp

theorem and_not_one_and_one (x : UInt32) : (x &&& ~~~1) &&& 1 = 0 := by
  rw [UInt32.and_assoc]
  simp

theorem and_not_one_or_one (x : UInt32) : (x &&& ~~~1) ||| 1 = x ||| 1 := by
  apply UInt32.toBitVec_inj.mp
  ext i hi
  simp only [UInt32.toBitVec_and, UInt32.toBitVec_or, UInt32.toBitVec_not, BitVec.getElem_and,
    BitVec.getElem_or, BitVec.getElem_not]
  cases x.toBitVec[i] <;> simp

theorem eq_of_or_one_of_and_one (hor : x ||| 1 = y ||| 1) (hand : x &&& 1 = y &&& 1) : x = y := by
  apply UInt32.toBitVec_inj.mp
  ext i hi
  have hor' := congrArg (fun w : UInt32 => w.toBitVec[i]) hor
  have hand' := congrArg (fun w : UInt32 => w.toBitVec[i]) hand
  simp only [UInt32.toBitVec_and, UInt32.toBitVec_or, BitVec.getElem_and, BitVec.getElem_or] at hor' hand'
  revert hor' hand'
  cases x.toBitVec[i] <;> cases y.toBitVec[i] <;> cases (1 : UInt32).toBitVec[i] <;> simp

theorem toNat_add_of_lt (h : x.toNat + y.toNat < 2 ^ 32) :
    (x + y).toNat = x.toNat + y.toNat := by
  rw [UInt32.toNat_add, Nat.mod_eq_of_lt h]

theorem toNat_sub_of_le (h : y.toNat ≤ x.toNat) : (x - y).toNat = x.toNat - y.toNat := by
  have hx := x.toNat_lt
  have hy := y.toNat_lt
  rw [UInt32.toNat_sub]
  omega

theorem toNat_mul_of_lt (h : x.toNat * y.toNat < 2 ^ 32) :
    (x * y).toNat = x.toNat * y.toNat := by
  rw [UInt32.toNat_mul, Nat.mod_eq_of_lt h]

/-- `n` bytes at `a` and `n` bytes at `b` do not meet, counting around the end of the address space. -/
def Apart (n : Nat) (a b : UInt32) : Prop := n ≤ (a - b).toNat ∧ n ≤ (b - a).toNat

theorem Apart.symm (h : Apart n a b) : Apart n b a := ⟨h.2, h.1⟩

theorem Apart.ne (h : Apart n a b) (hn : 0 < n) : a ≠ b := by
  rintro rfl
  have := h.1
  simp only [UInt32.sub_self, UInt32.toNat_zero] at this
  omega

theorem apart_of_le (h : a.toNat + n ≤ b.toNat) (hb : b.toNat + n ≤ 2 ^ 32) :
    Apart n a b := by
  have ha := a.toNat_lt
  have hb' := b.toNat_lt
  constructor
  · rw [UInt32.toNat_sub]
    omega
  · rw [UInt32.toNat_sub]
    omega

theorem Apart.add {n k : Nat} {a b i j : UInt32} (h : Apart n a b) (hi : i.toNat + k ≤ n)
    (hj : j.toNat + k ≤ n) : Apart k (a + i) (b + j) := by
  obtain ⟨h1, h2⟩ := h
  have ha := a.toNat_lt
  have hb := b.toNat_lt
  have hi' := i.toNat_lt
  have hj' := j.toNat_lt
  rw [UInt32.toNat_sub] at h1 h2
  constructor
  · rw [UInt32.toNat_sub, UInt32.toNat_add, UInt32.toNat_add]
    omega
  · rw [UInt32.toNat_sub, UInt32.toNat_add, UInt32.toNat_add]
    omega

theorem apart_add_left {k : Nat} (a : UInt32) {i j : UInt32} (h : i.toNat + k ≤ j.toNat)
    (hj : j.toNat + k ≤ 2 ^ 32) : Apart k (a + i) (a + j) := by
  have ha := a.toNat_lt
  have hi' := i.toNat_lt
  constructor
  · rw [UInt32.toNat_sub, UInt32.toNat_add, UInt32.toNat_add]
    omega
  · rw [UInt32.toNat_sub, UInt32.toNat_add, UInt32.toNat_add]
    omega

theorem join_halves (x : UInt32) :
    ((x >>> 16) &&& 0xFFFF).toUInt16.toUInt32 <<< 16 ||| (x &&& 0xFFFF).toUInt16.toUInt32 = x := by
  have hx := x.toNat_lt
  have hlow : (x &&& 0xFFFF).toUInt16.toUInt32.toNat = x.toNat % 2 ^ 16 := by
    have hmask := toNat_and_mask x 16 (by decide)
    change (x &&& 0xFFFF).toNat = _ at hmask
    rw [UInt16.toNat_toUInt32, UInt32.toNat_toUInt16, hmask, Nat.mod_mod]
  have hhigh : ((x >>> 16) &&& 0xFFFF).toUInt16.toUInt32.toNat = x.toNat / 2 ^ 16 := by
    have hmask := toNat_and_mask (x >>> 16) 16 (by decide)
    have hshift : (x >>> 16).toNat = x.toNat / 2 ^ 16 := by
      rw [UInt32.toNat_shiftRight, Nat.shiftRight_eq_div_pow]
      rfl
    change ((x >>> 16) &&& 0xFFFF).toNat = _ at hmask
    rw [UInt16.toNat_toUInt32, UInt32.toNat_toUInt16, hmask, hshift]
    omega
  apply UInt32.toNat_inj.mp
  rw [UInt32.toNat_or, UInt32.toNat_shiftLeft, hlow, hhigh]
  change (x.toNat / 2 ^ 16) <<< 16 % 2 ^ 32 ||| x.toNat % 2 ^ 16 = x.toNat
  rw [Nat.shiftLeft_eq, Nat.mod_eq_of_lt (by omega), ← Nat.shiftLeft_eq,
    ← Nat.shiftLeft_add_eq_or_of_lt (Nat.mod_lt _ (by decide)), Nat.shiftLeft_eq]
  omega

end TermobKernel.Word

import Mathlib.Tactic

/-!
# Numbers in a stream of bytes

A sequence of bytes as a little-endian sequence of hexadecimal digits, two a byte. The number that
some consecutive digits stand for is a `window`. A field of a packed format is a window, whether it
starts at a byte or in the middle of one.
-/

namespace TermobKernel.Digits

def digit (bytes : Nat → UInt8) (k : Nat) : Nat := (bytes (k / 2)).toNat / 16 ^ (k % 2) % 16

/-- The number that `n` digits from `start` on stand for, the lowest digit first. -/
def window (bytes : Nat → UInt8) (start : Nat) : Nat → Nat
  | 0 => 0
  | n + 1 => window bytes start n + 16 ^ n * digit bytes (start + n)

variable {bytes : Nat → UInt8}

theorem window_lt (start n : Nat) : window bytes start n < 16 ^ n := by
  induction n with
  | zero => exact Nat.one_pos
  | succ n ih =>
    have hdigit : digit bytes (start + n) ≤ 15 := Nat.le_of_lt_succ (Nat.mod_lt _ (by decide))
    have hmul := Nat.mul_le_mul_left (16 ^ n) hdigit
    rw [window, pow_succ]
    omega

theorem window_add (start m n : Nat) :
    window bytes start (m + n) = window bytes start m + 16 ^ m * window bytes (start + m) n := by
  induction n with
  | zero => rfl
  | succ n ih =>
    rw [← Nat.add_assoc, window, ih, window, Nat.mul_add, ← Nat.mul_assoc, ← pow_add, Nat.add_assoc start,
      Nat.add_assoc]

theorem window_mod (start m n : Nat) : window bytes start (m + n) % 16 ^ m = window bytes start m := by
  rw [window_add, Nat.add_mul_mod_self_left, Nat.mod_eq_of_lt (window_lt start m)]

theorem window_div (start m n : Nat) :
    window bytes start (m + n) / 16 ^ m = window bytes (start + m) n := by
  rw [window_add, Nat.add_mul_div_left _ _ (by positivity), Nat.div_eq_of_lt (window_lt start m),
    Nat.zero_add]

theorem window_byte (i : Nat) : window bytes (2 * i) 2 = (bytes i).toNat := by
  have hlt := (bytes i).toNat_lt
  have hhalf : (2 * i + 1) / 2 = i := by omega
  have hodd : (2 * i + 1) % 2 = 1 := by omega
  simp only [window, digit, Nat.add_zero, Nat.mul_mod_right, Nat.mul_div_cancel_left i Nat.two_pos,
    hhalf, hodd]
  omega

theorem window_two_bytes (i : Nat) :
    window bytes (2 * i) 4 = (bytes i).toNat + 256 * (bytes (i + 1)).toNat := by
  rw [window_add (2 * i) 2 2, ← Nat.mul_add_one 2 i, window_byte, window_byte]
  rfl

theorem window_four_bytes (i : Nat) :
    window bytes (2 * i) 8 = (bytes i).toNat + 256 * (bytes (i + 1)).toNat + 65536 * (bytes (i + 2)).toNat +
      16777216 * (bytes (i + 3)).toNat := by
  rw [window_add (2 * i) 4 4, show 2 * i + 4 = 2 * (i + 2) by omega, window_two_bytes, window_two_bytes,
    show i + 2 + 1 = i + 3 from rfl]
  omega

theorem window_eq_of_digits {value start n : Nat}
    (h : ∀ j < n, digit bytes (start + j) = value / 16 ^ j % 16) :
    window bytes start n = value % 16 ^ n := by
  induction n with
  | zero => rw [window, pow_zero, Nat.mod_one]
  | succ n ih =>
    rw [window, ih fun j hj => h j (Nat.lt_succ_of_lt hj), h n (Nat.lt_succ_self n), Nat.mod_pow_succ]

theorem toNat_or_shiftLeft {x y k : UInt32} (hk : k.toNat < 32) (hx : x.toNat < 2 ^ k.toNat)
    (hy : 2 ^ k.toNat * y.toNat < 2 ^ 32) : (x ||| y <<< k).toNat = x.toNat + 2 ^ k.toNat * y.toNat := by
  rw [UInt32.toNat_or, UInt32.toNat_shiftLeft, Nat.mod_eq_of_lt hk, Nat.shiftLeft_eq, Nat.mul_comm,
    Nat.mod_eq_of_lt hy, Nat.or_comm, ← Nat.two_pow_add_eq_or_of_lt hx, Nat.add_comm]

end TermobKernel.Digits

import TermobKernel.Library.Word

/-!
# A flat 32-bit byte memory

A memory is a total map from 32-bit addresses to bytes. A word is four consecutive bytes in
little-endian order; addresses wrap around at `2 ^ 32`. What a store does to a later load is settled
by the distance of the two addresses (`Apart`).
-/

namespace TermobKernel

abbrev Mem := UInt32 → UInt8

namespace Mem
open Word

def load32 (m : Mem) (a : UInt32) : UInt32 :=
  UInt32.ofNat ((m a).toNat + 2 ^ 8 * (m (a + 1)).toNat + 2 ^ 16 * (m (a + 2)).toNat +
    2 ^ 24 * (m (a + 3)).toNat)

def store32 (m : Mem) (a v : UInt32) : Mem := fun x =>
  if x = a then UInt8.ofNat v.toNat
  else if x = a + 1 then UInt8.ofNat (v.toNat / 2 ^ 8)
  else if x = a + 2 then UInt8.ofNat (v.toNat / 2 ^ 16)
  else if x = a + 3 then UInt8.ofNat (v.toNat / 2 ^ 24)
  else m x

def store8 (m : Mem) (a : UInt32) (v : UInt8) : Mem := fun x => if x = a then v else m x

theorem load32_store32_self (m : Mem) (a v : UInt32) : load32 (store32 m a v) a = v := by
  have h1 : a + 1 ≠ a := by simp
  have h2 : a + 2 ≠ a := by simp
  have h3 : a + 3 ≠ a := by simp
  have h21 : a + 2 ≠ a + 1 := by simp
  have h31 : a + 3 ≠ a + 1 := by simp
  have h32 : a + 3 ≠ a + 2 := by simp
  have hv := v.toNat_lt
  apply UInt32.toNat_inj.mp
  simp only [load32, store32, if_true, if_neg h1, if_neg h2, if_neg h3, if_neg h21, if_neg h31, if_neg h32]
  simp only [UInt8.toNat_ofNat', UInt32.toNat_ofNat']
  omega

theorem store32_far (m : Mem) (a v x : UInt32) (h : 4 ≤ (x - a).toNat) : store32 m a v x = m x := by
  have hne : ∀ i : UInt32, i.toNat < 4 → x ≠ a + i := by
    rintro i hi rfl
    rw [UInt32.add_comm, UInt32.add_sub_cancel] at h
    omega
  have h0 := hne 0 (by decide)
  rw [UInt32.add_zero] at h0
  simp only [store32, if_neg h0, if_neg (hne 1 (by decide)), if_neg (hne 2 (by decide)),
    if_neg (hne 3 (by decide))]

theorem load32_congr {m m' : Mem} {a : UInt32} (h : ∀ i : UInt32, i.toNat < 4 → m' (a + i) = m (a + i)) :
    load32 m' a = load32 m a := by
  have h0 := h 0 (by decide)
  rw [UInt32.add_zero] at h0
  simp only [load32, h0, h 1 (by decide), h 2 (by decide), h 3 (by decide)]

theorem load32_store32_apart (m : Mem) (a b v : UInt32) (h : Apart 4 a b) :
    load32 (store32 m a v) b = load32 m b := by
  apply load32_congr
  intro i hi
  apply store32_far
  obtain ⟨h1, h2⟩ := h
  have ha := a.toNat_lt
  have hb := b.toNat_lt
  rw [UInt32.toNat_sub] at h1 h2
  rw [UInt32.toNat_sub, UInt32.toNat_add]
  omega

theorem load32_mod (m : Mem) (a : UInt32) : (load32 m a).toNat % 2 ^ 8 = (m a).toNat := by
  have h := (m a).toNat_lt
  simp only [load32, UInt32.toNat_ofNat']
  omega

end Mem

end TermobKernel

import TermobKernel.Library.Memory

/-!
# Memory as pages of words

A page is 4096 bytes at a multiple of 4096, or 1024 words. Seen this way a store has one law: it changes one
word of one page (`word_store`). The low twelve bits of the address of a page are free for flags.
-/

namespace TermobKernel.Pages
open Word

def PageAligned (page : UInt32) : Prop := page.toNat % 4096 = 0

def slot (page index : UInt32) : UInt32 := page + 4 * index

def word (mem : Mem) (page index : UInt32) : UInt32 := mem.load32 (slot page index)

theorem slot_toNat {page index : UInt32} (hpage : PageAligned page) (hindex : index.toNat < 1024) :
    (slot page index).toNat = page.toNat + 4 * index.toNat := by
  have hlt := page.toNat_lt
  unfold PageAligned at hpage
  have hfour : (4 * index).toNat = 4 * index.toNat := toNat_mul_of_lt (by change 4 * index.toNat < _; omega)
  rw [slot, toNat_add_of_lt (by rw [hfour]; omega), hfour]

theorem word_store (mem : Mem) (v : UInt32) {page index page' index' : UInt32} (hpage : PageAligned page)
    (hindex : index.toNat < 1024) (hpage' : PageAligned page') (hindex' : index'.toNat < 1024) :
    word (mem.store32 (slot page index) v) page' index' =
      if page = page' ∧ index = index' then v else word mem page' index' := by
  by_cases hsame : page = page' ∧ index = index'
  · obtain ⟨rfl, rfl⟩ := hsame
    rw [if_pos ⟨rfl, rfl⟩]
    exact Mem.load32_store32_self mem _ v
  rw [if_neg hsame]
  apply Mem.load32_store32_apart
  have hs := slot_toNat hpage hindex
  have hs' := slot_toNat hpage' hindex'
  have hlt := page.toNat_lt
  have hlt' := page'.toNat_lt
  have hdiff : page.toNat ≠ page'.toNat ∨ index.toNat ≠ index'.toNat := by
    rwa [not_and_or, ← UInt32.toNat_inj, ← UInt32.toNat_inj] at hsame
  unfold PageAligned at hpage hpage'
  -- the two slots are different multiples of four
  by_cases hle : (slot page index).toNat ≤ (slot page' index').toNat
  · exact apart_of_le (by omega) (by omega)
  · exact (apart_of_le (by omega) (by omega)).symm

/-! ### Filling a page -/

/-- Store `f i` into the words of a page, for `rounds` words from `index` on. -/
def fill (page : UInt32) (f : UInt32 → UInt32) : Nat → UInt32 → Mem → Mem
  | 0, _, mem => mem
  | rounds + 1, index, mem => fill page f rounds (index + 1) (mem.store32 (slot page index) (f index))

theorem word_fill {page page' i : UInt32} (f : UInt32 → UInt32) (hpage : PageAligned page)
    (hpage' : PageAligned page') (hi : i.toNat < 1024) :
    ∀ (rounds : Nat) (index : UInt32) (mem : Mem), index.toNat + rounds = 1024 →
      word (fill page f rounds index mem) page' i =
        if page = page' ∧ index.toNat ≤ i.toNat then f i else word mem page' i := by
  intro rounds
  induction rounds with
  | zero =>
    intro index mem hend
    rw [fill, if_neg (by omega)]
  | succ rounds ih =>
    intro index mem hend
    have hnext : (index + 1).toNat = index.toNat + 1 := toNat_add_of_lt (by rw [UInt32.toNat_one]; omega)
    rw [fill, ih _ _ (by omega), word_store mem _ hpage (by omega) hpage' hi, hnext]
    by_cases hsame : page = page'
    · by_cases hle : index.toNat + 1 ≤ i.toNat
      · rw [if_pos ⟨hsame, hle⟩, if_pos ⟨hsame, by omega⟩]
      rw [if_neg (fun h => hle h.2)]
      by_cases heq : index = i
      · subst heq
        rw [if_pos ⟨hsame, rfl⟩, if_pos ⟨hsame, le_refl _⟩]
      · have hne : index.toNat ≠ i.toNat := fun h => heq (UInt32.toNat_inj.mp h)
        rw [if_neg (fun h => heq h.2), if_neg (by omega)]
    · rw [if_neg (fun h => hsame h.1), if_neg (fun h => hsame h.1), if_neg (fun h => hsame h.1)]

/-! ### Addresses with flags -/

theorem toNat_or_low {x y : UInt32} {k : Nat} (hx : x.toNat % 2 ^ k = 0) (hy : y.toNat < 2 ^ k) :
    (x ||| y).toNat = x.toNat + y.toNat := by
  have hsplit : 2 ^ k * (x.toNat / 2 ^ k) = x.toNat := Nat.mul_div_cancel' (Nat.dvd_of_mod_eq_zero hx)
  have hor := Nat.two_pow_add_eq_or_of_lt hy (x.toNat / 2 ^ k)
  rw [hsplit] at hor
  rw [UInt32.toNat_or, hor]

theorem or_and_self (x m : UInt32) : (x ||| m) &&& m = m := by
  apply UInt32.toBitVec_inj.mp
  ext i hi
  simp only [UInt32.toBitVec_and, UInt32.toBitVec_or, BitVec.getElem_and, BitVec.getElem_or]
  cases x.toBitVec[i] <;> simp

theorem or_flags_and_not_mask {page flags : UInt32} (hpage : PageAligned page)
    (hflags : flags.toNat < 4096) :
    (page ||| flags) &&& ~~~0xFFF = page := by
  apply UInt32.toNat_inj.mp
  have hlow : (page ||| flags).toNat = page.toNat + flags.toNat := toNat_or_low (k := 12) hpage hflags
  have hmask : ((page ||| flags) &&& ~~~0xFFF).toNat = (page ||| flags).toNat / 2 ^ 12 * 2 ^ 12 :=
    toNat_and_not_mask _ 12 (by omega)
  unfold PageAligned at hpage
  rw [hmask, hlow]
  omega

theorem and_not_mask_of_aligned {page : UInt32} (hpage : PageAligned page) : page &&& ~~~0xFFF = page := by
  have hmask : (page ||| 0) &&& ~~~0xFFF = page := or_flags_and_not_mask hpage (by decide)
  rwa [UInt32.or_zero] at hmask

end TermobKernel.Pages

import TermobKernel.Pmm.Model
import TermobKernel.Library.Bitmap

/-!
# The bitmap as a set of free frames

Marking a frame inserts it into the set of free frames or erases it, and keeps the counter equal to the size
of the set. A region that is released or reserved is an interval of frames, except where rounding in 32 bits
wraps: a region whose base lies behind the start of the last page is released from frame zero on, and a
region that ends there is not reserved at all.
-/

namespace TermobKernel.Pmm
open Boot Bitmap Word

variable {s : State}

def lastPage : Nat := 0xFFFFF000

/-! ### Words -/

theorem frameSize_toNat : pmmFrameSize.toNat = 4096 := rfl

theorem pmmBitmapIndex_eq (frameIndex : UInt32) : pmmBitmapIndex frameIndex = frameIndex.toNat / 8 := by
  rw [pmmBitmapIndex, UInt32.toNat_shiftRight, Nat.shiftRight_eq_div_pow]
  rfl

theorem pmmBitmapMask_toNat (frameIndex : UInt32) :
    (pmmBitmapMask frameIndex).toNat = 2 ^ (frameIndex.toNat % 8) := by
  have hand : (frameIndex &&& 7).toNat = frameIndex.toNat % 8 := toNat_and_mask frameIndex 3 (by omega)
  have hlt : frameIndex.toNat % 8 < 8 := Nat.mod_lt _ (by omega)
  have hpow : 2 ^ (frameIndex.toNat % 8) < 2 ^ 8 := Nat.pow_lt_pow_right (by omega) hlt
  rw [pmmBitmapMask, UInt32.toNat_toUInt8, UInt32.toNat_shiftLeft, hand, UInt32.toNat_one,
    Nat.mod_eq_of_lt (show frameIndex.toNat % 8 < 32 by omega), Nat.shiftLeft_eq, Nat.one_mul,
    Nat.mod_eq_of_lt (show 2 ^ (frameIndex.toNat % 8) < 2 ^ 32 by omega), Nat.mod_eq_of_lt hpow]

theorem pmmAlignDown_toNat (value : UInt32) :
    (pmmAlignDown value pmmFrameSize).toNat = value.toNat / 4096 * 4096 :=
  toNat_and_not_mask value 12 (by omega)

theorem pmmAlignUp_toNat (value : UInt32) :
    (pmmAlignUp value pmmFrameSize).toNat = (value.toNat + 4095) % 2 ^ 32 / 4096 * 4096 := by
  rw [pmmAlignUp, show pmmFrameSize - 1 = UInt32.ofNat (2 ^ 12 - 1) from rfl,
    toNat_and_not_mask _ 12 (by omega), UInt32.toNat_add]
  rfl

theorem pmmRegionEnd_toNat (baseAddr length : UInt32) :
    (pmmRegionEnd baseAddr length).toNat = min (baseAddr.toNat + length.toNat) (2 ^ 32 - 1) := by
  have hb := baseAddr.toNat_lt
  have hl := length.toNat_lt
  have hmax : (0xFFFFFFFF : UInt32).toNat = 2 ^ 32 - 1 := rfl
  have hsub : (0xFFFFFFFF - length).toNat = 2 ^ 32 - 1 - length.toNat := by
    rw [toNat_sub_of_le (by rw [hmax]; omega), hmax]
  unfold pmmRegionEnd
  by_cases hover : baseAddr > 0xFFFFFFFF - length
  · rw [if_pos hover, hmax]
    rw [gt_iff_lt, UInt32.lt_iff_toNat_lt, hsub] at hover
    omega
  · rw [if_neg hover]
    rw [gt_iff_lt, UInt32.lt_iff_toNat_lt, hsub] at hover
    rw [toNat_add_of_lt (by omega)]
    omega

theorem pmmTotalFramesFor_toNat (highest : UInt32) :
    (pmmTotalFramesFor highest).toNat =
      if highest.toNat = 2 ^ 32 - 1 then 2 ^ 20
      else if highest.toNat < lastPage then (highest.toNat + 4096) / 4096 else 0 := by
  have hlt := highest.toNat_lt
  unfold pmmTotalFramesFor lastPage
  by_cases hmax : highest = 0xFFFFFFFF
  · subst hmax
    rfl
  · have hne : highest.toNat ≠ 2 ^ 32 - 1 := fun h => hmax (UInt32.toNat_inj.mp h)
    have hsucc : (highest + 1).toNat = highest.toNat + 1 :=
      toNat_add_of_lt (by rw [UInt32.toNat_one]; omega)
    rw [if_neg hmax, if_neg hne, UInt32.toNat_div, pmmAlignUp_toNat, hsucc, frameSize_toNat,
      Nat.mul_div_cancel _ (by omega)]
    split <;> omega

/-! ### The set of free frames -/

def freeFrames (s : State) : Finset Nat := clear s.bitmapBytes s.pmmTotalFramesCount.toNat

/-- The bitmap has its bytes, the counter counts its clear bits, and the bits behind the last frame
are set. -/
structure Counted (s : State) : Prop where
  total : s.pmmTotalFramesCount.toNat ≤ 2 ^ 20
  size : s.bitmapBytes.length = (s.pmmTotalFramesCount.toNat + 7) / 8
  count : s.pmmFreeFramesCount.toNat = (freeFrames s).card
  tail : ∀ i, s.pmmTotalFramesCount.toNat ≤ i → i < 8 * s.bitmapBytes.length → bit s.bitmapBytes i = true

/-- The state differs in the bits and in the counter only, which still agree. -/
structure Marked (s s' : State) : Prop where
  counted : Counted s'
  others : s' = { s with bitmapBytes := s'.bitmapBytes, pmmFreeFramesCount := s'.pmmFreeFramesCount }

theorem Marked.refl (h : Counted s) : Marked s s := ⟨h, rfl⟩

theorem Marked.trans {s s' s'' : State} (h : Marked s s') (h' : Marked s' s'') : Marked s s'' := by
  refine ⟨h'.counted, ?_⟩
  rw [h'.others, h.others]

theorem Marked.total {s s' : State} (h : Marked s s') : s'.pmmTotalFramesCount = s.pmmTotalFramesCount := by
  rw [h.others]

theorem mem_freeFrames {g : Nat} :
    g ∈ freeFrames s ↔ g < s.pmmTotalFramesCount.toNat ∧ bit s.bitmapBytes g = false := mem_clear

theorem pmmFrameIsUsed_eq (s : State) (frameIndex : UInt32) :
    pmmFrameIsUsed s frameIndex = bit s.bitmapBytes frameIndex.toNat := by
  have hand : s.bitmapBytes.getD (frameIndex.toNat / 8) 0 &&& pmmBitmapMask frameIndex ≠ 0 ↔
      bit s.bitmapBytes frameIndex.toNat = true := and_mask_ne_zero (pmmBitmapMask_toNat frameIndex)
  rw [pmmFrameIsUsed, pmmBitmapIndex_eq]
  cases hbit : bit s.bitmapBytes frameIndex.toNat
  · rw [hbit] at hand
    simpa using hand
  · rw [hbit] at hand
    simpa using hand

theorem Counted.byte_lt (h : Counted s) {frameIndex : UInt32}
    (hlt : frameIndex.toNat < s.pmmTotalFramesCount.toNat) :
    frameIndex.toNat / 8 < s.bitmapBytes.length := by
  rw [h.size]
  omega

/-- The bitmap has a bit for every frame. -/
def Backed (s : State) : Prop := s.pmmTotalFramesCount.toNat ≤ 8 * s.bitmapBytes.length

instance (s : State) : Decidable (Backed s) := inferInstanceAs (Decidable (_ ≤ _))

theorem Counted.backed (h : Counted s) : Backed s := by
  rw [Backed, h.size]
  omega

/-- `s'` is `s` with the frames of `region` below the total marked as used. -/
structure Takes (region : Nat → Prop) [DecidablePred region] (s s' : State) : Prop where
  others : s' = { s with bitmapBytes := s'.bitmapBytes, pmmFreeFramesCount := s'.pmmFreeFramesCount }
  bytes : s'.bitmapBytes.length = s.bitmapBytes.length
  bits : ∀ g, bit s'.bitmapBytes g =
    (bit s.bitmapBytes g || decide (g < s.pmmTotalFramesCount.toNat ∧ region g))
  count : s'.pmmFreeFramesCount.toNat = s.pmmFreeFramesCount.toNat - ((freeFrames s).filter region).card

section Takes

variable {region region' : Nat → Prop} [DecidablePred region] [DecidablePred region'] {s s' s'' : State}

theorem Takes.nothing (hregion : ∀ g ∈ freeFrames s, ¬region g) : Takes region s s := by
  refine ⟨rfl, rfl, fun g => ?_, ?_⟩
  · cases hbit : bit s.bitmapBytes g
    · have hout : ¬(g < s.pmmTotalFramesCount.toNat ∧ region g) := fun h =>
        hregion g (mem_freeFrames.mpr ⟨h.1, hbit⟩) h.2
      rw [decide_eq_false hout, Bool.or_false]
    · rfl
  · rw [Finset.filter_false_of_mem hregion, Finset.card_empty, Nat.sub_zero]

section
variable (h : Takes region s s')
include h

theorem Takes.total : s'.pmmTotalFramesCount = s.pmmTotalFramesCount := by
  rw [h.others]

theorem Takes.backed (hs : Backed s) : Backed s' := by
  rw [Backed, h.total, h.bytes]
  exact hs

theorem Takes.freeFrames_eq : freeFrames s' = (freeFrames s).filter (¬region ·) := by
  ext g
  rw [Finset.mem_filter, mem_freeFrames, mem_freeFrames, h.total, h.bits, Bool.or_eq_false_iff,
    decide_eq_false_iff_not]
  tauto

theorem Takes.taken_eq : freeFrames s \ freeFrames s' = (freeFrames s).filter region := by
  ext g
  rw [h.freeFrames_eq, Finset.mem_sdiff, Finset.mem_filter, Finset.mem_filter]
  tauto

theorem Takes.trans (h' : Takes region' s' s'') : Takes (fun g => region g ∨ region' g) s s'' := by
  refine ⟨by rw [h'.others, h.others], h'.bytes.trans h.bytes, fun g => ?_, ?_⟩
  · rw [h'.bits, h.bits, h.total, Bool.or_assoc, ← Bool.decide_or]
    congr 1
    exact decide_eq_decide.mpr and_or_left.symm
  · have hsplit : ((freeFrames s).filter fun g => region g ∨ region' g).card =
        ((freeFrames s).filter region).card + ((freeFrames s').filter region').card := by
      rw [h.freeFrames_eq, Finset.filter_filter, ← Finset.card_union_of_disjoint]
      · congr 1
        ext g
        simp only [Finset.mem_filter, Finset.mem_union]
        tauto
      · exact Finset.disjoint_filter.mpr fun g _ hg hg' => hg'.1 hg
    rw [h'.count, h.count, hsplit, Nat.sub_sub]

theorem Takes.congr (hregion : ∀ g < s.pmmTotalFramesCount.toNat, region g ↔ region' g) :
    Takes region' s s' := by
  refine ⟨h.others, h.bytes, fun g => ?_, ?_⟩
  · rw [h.bits]
    congr 1
    exact decide_eq_decide.mpr (and_congr_right (hregion g))
  · rw [h.count, Finset.filter_congr fun g hg => hregion g (mem_freeFrames.mp hg).1]

theorem Takes.marked (hs : Counted s) : Marked s s' := by
  have hsplit := Finset.card_filter_add_card_filter_not (s := freeFrames s) region
  refine ⟨⟨?_, ?_, ?_, ?_⟩, h.others⟩
  · rw [h.total]
    exact hs.total
  · rw [h.bytes, h.total]
    exact hs.size
  · rw [h.count, h.freeFrames_eq, hs.count]
    omega
  · intro i hi hlen
    rw [h.total] at hi
    rw [h.bytes] at hlen
    rw [h.bits, hs.tail i hi hlen, Bool.true_or]

end

end Takes

theorem pmmMarkFrameUsed_takes (hs : Backed s) (frameIndex : UInt32) :
    Takes (· = frameIndex.toNat) s (pmmMarkFrameUsed s frameIndex) := by
  unfold pmmMarkFrameUsed
  by_cases hskip : frameIndex ≥ s.pmmTotalFramesCount ∨ pmmFrameIsUsed s frameIndex = true
  · rw [if_pos hskip]
    rw [pmmFrameIsUsed_eq, ge_iff_le, UInt32.le_iff_toNat_le] at hskip
    apply Takes.nothing
    rintro g hg rfl
    obtain ⟨hlt, hbit⟩ := mem_freeFrames.mp hg
    rcases hskip with hge | hset
    · omega
    · rw [hset] at hbit
      cases hbit
  · rw [if_neg hskip]
    rw [pmmFrameIsUsed_eq, ge_iff_le, UInt32.le_iff_toNat_le, not_or, Bool.not_eq_true] at hskip
    obtain ⟨hlt, hclear⟩ := hskip
    have hmem : frameIndex.toNat ∈ freeFrames s := mem_freeFrames.mpr ⟨by omega, hclear⟩
    have hone : ((freeFrames s).filter (· = frameIndex.toNat)).card = 1 := by
      rw [Finset.filter_eq', if_pos hmem, Finset.card_singleton]
    have hbyte : frameIndex.toNat / 8 < s.bitmapBytes.length := by
      unfold Backed at hs
      omega
    have hbits := bit_or_mask (pmmBitmapMask_toNat frameIndex) hbyte
    have hregion : ∀ g, decide (g < s.pmmTotalFramesCount.toNat ∧ g = frameIndex.toNat) =
        decide (g = frameIndex.toNat) := by
      intro g
      apply decide_eq_decide.mpr
      omega
    rw [pmmBitmapIndex_eq]
    dsimp only
    by_cases hcount : s.pmmFreeFramesCount > 0
    · rw [if_pos hcount]
      refine ⟨rfl, List.length_set, fun g => ?_, ?_⟩
      · rw [hregion]
        exact hbits g
      · rw [gt_iff_lt, UInt32.lt_iff_toNat_lt, UInt32.toNat_zero] at hcount
        rw [hone]
        exact toNat_sub_of_le hcount
    · rw [if_neg hcount]
      refine ⟨rfl, List.length_set, fun g => ?_, ?_⟩
      · rw [hregion]
        exact hbits g
      · rw [gt_iff_lt, UInt32.lt_iff_toNat_lt, UInt32.toNat_zero] at hcount
        change s.pmmFreeFramesCount.toNat = _
        omega

theorem pmmMarkFrameUsed_spec (h : Counted s) (frameIndex : UInt32) :
    Marked s (pmmMarkFrameUsed s frameIndex) ∧
      ∀ g, g ∈ freeFrames (pmmMarkFrameUsed s frameIndex) ↔ g ∈ freeFrames s ∧ g ≠ frameIndex.toNat := by
  have htakes := pmmMarkFrameUsed_takes h.backed frameIndex
  refine ⟨htakes.marked h, fun g => ?_⟩
  rw [htakes.freeFrames_eq, Finset.mem_filter]

theorem pmmMarkFrameFree_spec (h : Counted s) (frameIndex : UInt32) :
    Marked s (pmmMarkFrameFree s frameIndex) ∧
      ∀ g, g ∈ freeFrames (pmmMarkFrameFree s frameIndex) ↔
        g ∈ freeFrames s ∨ (g = frameIndex.toNat ∧ g < s.pmmTotalFramesCount.toNat) := by
  unfold pmmMarkFrameFree
  by_cases hskip : frameIndex ≥ s.pmmTotalFramesCount ∨ pmmFrameIsUsed s frameIndex = false
  · rw [if_pos hskip]
    rw [pmmFrameIsUsed_eq, ge_iff_le, UInt32.le_iff_toNat_le] at hskip
    refine ⟨Marked.refl h, fun g => ⟨Or.inl, ?_⟩⟩
    rintro (hg | ⟨rfl, hlt⟩)
    · exact hg
    · rcases hskip with hge | hclear
      · omega
      · exact mem_freeFrames.mpr ⟨hlt, hclear⟩
  rw [if_neg hskip]
  rw [pmmFrameIsUsed_eq, ge_iff_le, UInt32.le_iff_toNat_le] at hskip
  obtain ⟨hnot, hset⟩ := not_or.mp hskip
  have hlt : frameIndex.toNat < s.pmmTotalFramesCount.toNat := by omega
  have hmask := pmmBitmapMask_toNat frameIndex
  have hbyte := h.byte_lt hlt
  have hfree := clear_and_not_mask hmask hbyte hlt
  have hnew : frameIndex.toNat ∉ freeFrames s := fun hmem => hset (mem_freeFrames.mp hmem).2
  have hcard : (insert frameIndex.toNat (freeFrames s)).card ≤ s.pmmTotalFramesCount.toNat := by
    refine (Finset.card_le_card (t := Finset.range s.pmmTotalFramesCount.toNat) ?_).trans_eq
      (Finset.card_range _)
    intro g hg
    rcases Finset.mem_insert.mp hg with rfl | hg
    · exact Finset.mem_range.mpr hlt
    · exact Finset.mem_range.mpr (mem_freeFrames.mp hg).1
  rw [Finset.card_insert_of_notMem hnew] at hcard
  rw [pmmBitmapIndex_eq]
  refine ⟨⟨⟨h.total, ?_, ?_, ?_⟩, rfl⟩, ?_⟩
  · rw [List.length_set]
    exact h.size
  · have htotal := s.pmmTotalFramesCount.toNat_lt
    rw [freeFrames, hfree, ← freeFrames, Finset.card_insert_of_notMem hnew,
      toNat_add_of_lt (by rw [h.count, UInt32.toNat_one]; omega), h.count]
    rfl
  · intro i hi hlen
    change s.pmmTotalFramesCount.toNat ≤ i at hi
    rw [List.length_set] at hlen
    rw [bit_and_not_mask hmask hbyte, h.tail i hi hlen, Bool.true_and, decide_eq_true (by omega)]
  · intro g
    rw [freeFrames, hfree, ← freeFrames, Finset.mem_insert]
    constructor
    · rintro (rfl | hg)
      · exact Or.inr ⟨rfl, hlt⟩
      · exact Or.inl hg
    · rintro (hg | ⟨rfl, _⟩)
      · exact Or.inr hg
      · exact Or.inl rfl

/-! ### Loops over frames -/

theorem pmmMarkFrames_free_spec :
    ∀ {count : Nat} {frameIndex : UInt32} {s : State}, Counted s → frameIndex.toNat + count < 2 ^ 32 →
      Marked s (pmmMarkFrames pmmMarkFrameFree count frameIndex s) ∧
        ∀ g, g ∈ freeFrames (pmmMarkFrames pmmMarkFrameFree count frameIndex s) ↔
          g ∈ freeFrames s ∨
            (frameIndex.toNat ≤ g ∧ g < frameIndex.toNat + count ∧ g < s.pmmTotalFramesCount.toNat) := by
  intro count
  induction count with
  | zero =>
    intro frameIndex s h _
    refine ⟨Marked.refl h, fun g => ?_⟩
    have hno : ¬(frameIndex.toNat ≤ g ∧ g < frameIndex.toNat + 0 ∧
      g < s.pmmTotalFramesCount.toNat) := by omega
    simp only [pmmMarkFrames, hno, or_false]
  | succ count ih =>
    intro frameIndex s h hlt
    obtain ⟨hmark, hfree⟩ := pmmMarkFrameFree_spec h frameIndex
    have hnext : (frameIndex + 1).toNat = frameIndex.toNat + 1 :=
      toNat_add_of_lt (by rw [UInt32.toNat_one]; omega)
    obtain ⟨hrest, hmem⟩ := ih hmark.counted (show (frameIndex + 1).toNat + count < 2 ^ 32 by omega)
    refine ⟨hmark.trans hrest, fun g => ?_⟩
    rw [pmmMarkFrames, hmem, hfree, hmark.total, hnext, or_assoc]
    apply or_congr_right
    omega

theorem pmmMarkFrames_used_takes : ∀ {count : Nat} {frameIndex : UInt32} {s : State}, Backed s →
    frameIndex.toNat + count < 2 ^ 32 →
      Takes (fun g => frameIndex.toNat ≤ g ∧ g < frameIndex.toNat + count) s
        (pmmMarkFrames pmmMarkFrameUsed count frameIndex s) := by
  intro count
  induction count with
  | zero => exact fun _ _ => Takes.nothing fun g _ => by omega
  | succ count ih =>
    intro frameIndex s hs hlt
    have hnext : (frameIndex + 1).toNat = frameIndex.toNat + 1 :=
      toNat_add_of_lt (by rw [UInt32.toNat_one]; omega)
    have hfirst := pmmMarkFrameUsed_takes hs frameIndex
    refine (hfirst.trans (ih (hfirst.backed hs)
      (show (frameIndex + 1).toNat + count < 2 ^ 32 by omega))).congr ?_
    intro g _
    rw [hnext]
    omega

/-! ### Regions -/

def Inside (g start stop : Nat) : Prop := start ≤ g * 4096 ∧ (g + 1) * 4096 ≤ stop

def Meets (g start stop : Nat) : Prop := start < stop ∧ start < (g + 1) * 4096 ∧ g * 4096 < stop

instance (g start stop : Nat) : Decidable (Inside g start stop) := inferInstanceAs (Decidable (_ ∧ _))
instance (g start stop : Nat) : Decidable (Meets g start stop) := inferInstanceAs (Decidable (_ ∧ _ ∧ _))

/-- The frames that a release of a range really frees, below the total: those inside the range, and all
frames below the last page when the start of the range rounds up to zero. -/
def Releases (r : MemoryRange) (g : Nat) : Prop :=
  0 < r.length.toNat ∧ g < 0xFFFFF ∧ (Inside g r.baseAddr.toNat r.stop ∨ lastPage < r.baseAddr.toNat)

/-- The frames that a reservation really covers: none when the end of the region rounds up to zero. -/
def Reserves (start stop g : Nat) : Prop := stop ≤ lastPage ∧ Meets g start stop

theorem pmmReleaseRegion_spec (h : Counted s) (r : MemoryRange) :
    Marked s (pmmReleaseRegion s r.baseAddr r.length) ∧
      ∀ g, g ∈ freeFrames (pmmReleaseRegion s r.baseAddr r.length) ↔
        g ∈ freeFrames s ∨ (Releases r g ∧ g < s.pmmTotalFramesCount.toNat) := by
  have hb := r.baseAddr.toNat_lt
  have hend := pmmRegionEnd_toNat r.baseAddr r.length
  have hup := pmmAlignUp_toNat r.baseAddr
  have hdown := pmmAlignDown_toNat (pmmRegionEnd r.baseAddr r.length)
  unfold pmmReleaseRegion Releases Inside MemoryRange.stop lastPage
  by_cases hzero : r.length = 0
  · rw [if_pos hzero]
    refine ⟨Marked.refl h, fun g => ⟨Or.inl, ?_⟩⟩
    rintro (hg | ⟨⟨hlen, _⟩, _⟩)
    · exact hg
    · rw [hzero, UInt32.toNat_zero] at hlen
      omega
  rw [if_neg hzero]
  have hlen : r.length.toNat ≠ 0 := fun h0 => hzero (UInt32.toNat_inj.mp h0)
  dsimp only
  by_cases hempty : pmmAlignDown (pmmRegionEnd r.baseAddr r.length) pmmFrameSize ≤
    pmmAlignUp r.baseAddr pmmFrameSize
  · rw [if_pos hempty]
    rw [UInt32.le_iff_toNat_le, hup, hdown, hend] at hempty
    refine ⟨Marked.refl h, fun g => ⟨Or.inl, ?_⟩⟩
    rintro (hg | ⟨hrel, _⟩)
    · exact hg
    · exfalso
      omega
  · rw [if_neg hempty]
    rw [UInt32.le_iff_toNat_le, hup, hdown, hend] at hempty
    have hstart : (pmmAlignUp r.baseAddr pmmFrameSize / pmmFrameSize).toNat =
        (r.baseAddr.toNat + 4095) % 2 ^ 32 / 4096 := by
      rw [UInt32.toNat_div, hup, frameSize_toNat, Nat.mul_div_cancel _ (by omega)]
    have hstopf : (pmmAlignDown (pmmRegionEnd r.baseAddr r.length) pmmFrameSize / pmmFrameSize).toNat =
        min (r.baseAddr.toNat + r.length.toNat) (2 ^ 32 - 1) / 4096 := by
      rw [UInt32.toNat_div, hdown, hend, frameSize_toNat, Nat.mul_div_cancel _ (by omega)]
    rw [hstopf, hstart]
    obtain ⟨hmark, hmem⟩ := pmmMarkFrames_free_spec h
      (show (pmmAlignUp r.baseAddr pmmFrameSize / pmmFrameSize).toNat +
        (min (r.baseAddr.toNat + r.length.toNat) (2 ^ 32 - 1) / 4096 -
          (r.baseAddr.toNat + 4095) % 2 ^ 32 / 4096) < 2 ^ 32 by rw [hstart]; omega)
    refine ⟨hmark, fun g => ?_⟩
    rw [hmem, hstart]
    apply or_congr_right
    omega

def reserveRounds (s : State) (baseAddr length : UInt32) : Nat :=
  min ((min (baseAddr.toNat + length.toNat) (2 ^ 32 - 1) + 4095) % 2 ^ 32 / 4096)
    s.pmmTotalFramesCount.toNat - baseAddr.toNat / 4096

theorem startFrame_toNat (baseAddr : UInt32) : (baseAddr / pmmFrameSize).toNat = baseAddr.toNat / 4096 :=
  UInt32.toNat_div _ _

theorem pmmReserveRegion_eq (s : State) (baseAddr : UInt32) {length : UInt32} (hpos : length ≠ 0) :
    pmmReserveRegion s baseAddr length =
      pmmMarkFrames pmmMarkFrameUsed (reserveRounds s baseAddr length) (baseAddr / pmmFrameSize) s := by
  have hend : (pmmAlignUp (pmmRegionEnd baseAddr length) pmmFrameSize / pmmFrameSize).toNat =
      (min (baseAddr.toNat + length.toNat) (2 ^ 32 - 1) + 4095) % 2 ^ 32 / 4096 := by
    rw [UInt32.toNat_div, pmmAlignUp_toNat, pmmRegionEnd_toNat, frameSize_toNat,
      Nat.mul_div_cancel _ (by omega)]
  have hclip : ∀ x : UInt32, (if x > s.pmmTotalFramesCount then s.pmmTotalFramesCount else x).toNat =
      min x.toNat s.pmmTotalFramesCount.toNat := by
    intro x
    by_cases hx : x > s.pmmTotalFramesCount
    · rw [if_pos hx]
      rw [gt_iff_lt, UInt32.lt_iff_toNat_lt] at hx
      omega
    · rw [if_neg hx]
      rw [gt_iff_lt, UInt32.lt_iff_toNat_lt] at hx
      omega
  rw [pmmReserveRegion, if_neg hpos]
  dsimp only
  rw [hclip, hend, startFrame_toNat]
  rfl

/-- The frames with a byte in the region, which ends at 4 GiB at the latest. -/
def MeetsRegion (baseAddr length : UInt32) (g : Nat) : Prop :=
  Meets g baseAddr.toNat (min (baseAddr.toNat + length.toNat) (2 ^ 32))

instance (baseAddr length : UInt32) : DecidablePred (MeetsRegion baseAddr length) :=
  fun g => inferInstanceAs (Decidable (Meets g _ _))

theorem pmmReserveRegion_takes (hs : Backed s) (baseAddr length : UInt32) :
    Takes (fun g => baseAddr.toNat + length.toNat ≤ lastPage ∧ MeetsRegion baseAddr length g) s
      (pmmReserveRegion s baseAddr length) := by
  have hb := baseAddr.toNat_lt
  have hl := length.toNat_lt
  unfold MeetsRegion Meets lastPage
  by_cases hzero : length = 0
  · rw [pmmReserveRegion, if_pos hzero]
    apply Takes.nothing
    rw [hzero, UInt32.toNat_zero]
    omega
  · have hpos : length.toNat ≠ 0 := fun h0 => hzero (UInt32.toNat_inj.mp h0)
    have hstart := startFrame_toNat baseAddr
    rw [pmmReserveRegion_eq s baseAddr hzero]
    refine (pmmMarkFrames_used_takes hs (by rw [hstart, reserveRounds]; omega)).congr ?_
    intro g hg
    rw [hstart, reserveRounds]
    omega

theorem pmmReserveRegion_spec (h : Counted s) (baseAddr length : UInt32) :
    Marked s (pmmReserveRegion s baseAddr length) ∧
      ∀ g, g ∈ freeFrames (pmmReserveRegion s baseAddr length) ↔
        g ∈ freeFrames s ∧ ¬Reserves baseAddr.toNat (baseAddr.toNat + length.toNat) g := by
  have htakes := pmmReserveRegion_takes h.backed baseAddr length
  refine ⟨htakes.marked h, fun g => ?_⟩
  rw [htakes.freeFrames_eq, Finset.mem_filter]
  apply and_congr_right
  intro _
  unfold MeetsRegion Reserves Meets lastPage
  omega

end TermobKernel.Pmm

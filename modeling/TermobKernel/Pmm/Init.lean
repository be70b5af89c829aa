import TermobKernel.Pmm.Frames
import TermobKernel.Heap.LiveMap

/-!
# What `pmm_init` leaves free

The frames that are free after `pmm_init`, in terms of the stored memory map and the regions that the kernel
keeps for itself. The result is what one expects, except for addresses in the last page below 4 GiB, where
rounding up wraps to zero.
-/

namespace TermobKernel.Pmm
open Boot Bitmap Word

variable {kernelEnd : UInt32} {s : State}

/-! ### Releasing and reserving -/

theorem pmmFilled_spec (bitmap : UInt32) {bitmapSize total : UInt32} (htotal : total.toNat ≤ 2 ^ 20)
    (hsize : bitmapSize.toNat = (total.toNat + 7) / 8) :
    Counted (pmmFilled bitmap bitmapSize total) ∧ freeFrames (pmmFilled bitmap bitmapSize total) = ∅ := by
  have hbits : ∀ i, i < 8 * bitmapSize.toNat →
      bit (pmmFilled bitmap bitmapSize total).bitmapBytes i = true :=
    fun i hi => bit_replicate hi
  have hempty : freeFrames (pmmFilled bitmap bitmapSize total) = ∅ := by
    apply Finset.eq_empty_of_forall_notMem
    intro g hg
    obtain ⟨hlt, hclear⟩ := mem_freeFrames.mp hg
    change g < total.toNat at hlt
    rw [hbits g (by omega)] at hclear
    cases hclear
  refine ⟨⟨htotal, ?_, ?_, ?_⟩, hempty⟩
  · exact (List.length_replicate).trans hsize
  · rw [hempty]
    rfl
  · intro i _ hlen
    apply hbits
    exact hlen.trans_eq (by rw [pmmFilled, List.length_replicate])

theorem pmmReleaseRanges_spec (ranges : List MemoryRange) (h : Counted s) :
    Marked s (pmmReleaseRanges s ranges) ∧
      ∀ g, g ∈ freeFrames (pmmReleaseRanges s ranges) ↔
        g ∈ freeFrames s ∨
          ((∃ r ∈ ranges, r.type = memoryTypeAvailable ∧ Releases r g) ∧
            g < s.pmmTotalFramesCount.toNat) := by
  induction ranges generalizing s with
  | nil => exact ⟨Marked.refl h, fun g => by simp [pmmReleaseRanges]⟩
  | cons r ranges ih =>
    by_cases htype : r.type = memoryTypeAvailable
    · obtain ⟨hmark, hfree⟩ := pmmReleaseRegion_spec h r
      obtain ⟨hrest, hmem⟩ := ih hmark.counted
      rw [pmmReleaseRanges, List.foldl_cons, if_pos htype, ← pmmReleaseRanges]
      refine ⟨hmark.trans hrest, fun g => ?_⟩
      rw [hmem, hfree, hmark.total]
      simp only [List.mem_cons, exists_eq_or_imp, htype, true_and]
      tauto
    · obtain ⟨hrest, hmem⟩ := ih h
      rw [pmmReleaseRanges, List.foldl_cons, if_neg htype, ← pmmReleaseRanges]
      refine ⟨hrest, fun g => ?_⟩
      rw [hmem]
      simp only [List.mem_cons, exists_eq_or_imp, htype, false_and, false_or]

/-- The five reservations of `pmm_init`. -/
def InitReserves (boot : BootInfo) (kernelEnd heapStart heapEnd : UInt32) (s : State) (g : Nat) : Prop :=
  Reserves 0 (2 ^ 20) g ∨
    Reserves (2 ^ 20) (2 ^ 20 + (pmmAlignUp kernelEnd pmmFrameSize - kernelLoadAddress).toNat) g ∨
    Reserves heapStart.toNat (heapStart.toNat + (heapEnd - heapStart).toNat) g ∨
    Reserves boot.infoAddress.toNat (boot.infoAddress.toNat + boot.infoSize.toNat) g ∨
    Reserves s.pmmBitmap.toNat (s.pmmBitmap.toNat + s.pmmBitmapSizeBytes.toNat) g

theorem pmmReserveRegions_spec (boot : BootInfo) (kernelEnd heapStart heapEnd : UInt32)
    (h : Counted s) :
    Marked s (pmmReserveRegions s boot kernelEnd heapStart heapEnd) ∧
      ∀ g, g ∈ freeFrames (pmmReserveRegions s boot kernelEnd heapStart heapEnd) ↔
        g ∈ freeFrames s ∧ ¬InitReserves boot kernelEnd heapStart heapEnd s g := by
  obtain ⟨hm1, hf1⟩ := pmmReserveRegion_spec h 0 kernelLoadAddress
  obtain ⟨hm2, hf2⟩ := pmmReserveRegion_spec hm1.counted kernelLoadAddress
    (pmmAlignUp kernelEnd pmmFrameSize - kernelLoadAddress)
  obtain ⟨hm3, hf3⟩ := pmmReserveRegion_spec hm2.counted heapStart (heapEnd - heapStart)
  obtain ⟨hm4, hf4⟩ := pmmReserveRegion_spec hm3.counted boot.infoAddress boot.infoSize
  have hm := ((hm1.trans hm2).trans hm3).trans hm4
  -- the bitmap is where it was before the four reservations
  have hlast : ∀ t, Marked s t →
      Marked s (pmmReserveRegion t t.pmmBitmap t.pmmBitmapSizeBytes) ∧
        ∀ g, g ∈ freeFrames (pmmReserveRegion t t.pmmBitmap t.pmmBitmapSizeBytes) ↔ g ∈ freeFrames t ∧
          ¬Reserves s.pmmBitmap.toNat (s.pmmBitmap.toNat + s.pmmBitmapSizeBytes.toNat) g := by
    intro t ht
    obtain ⟨hm5, hf5⟩ := pmmReserveRegion_spec ht.counted t.pmmBitmap t.pmmBitmapSizeBytes
    have hbitmap : t.pmmBitmap = s.pmmBitmap := by rw [ht.others]
    have hbytes : t.pmmBitmapSizeBytes = s.pmmBitmapSizeBytes := by rw [ht.others]
    rw [hbitmap, hbytes] at hm5 hf5 ⊢
    exact ⟨ht.trans hm5, hf5⟩
  obtain ⟨hm5, hf5⟩ := hlast _ hm
  refine ⟨hm5, fun g => ?_⟩
  unfold pmmReserveRegions InitReserves
  dsimp only
  rw [hf5, hf4, hf3, hf2, hf1, show (0 : UInt32).toNat + kernelLoadAddress.toNat = 2 ^ 20 from rfl,
    show kernelLoadAddress.toNat = 2 ^ 20 from rfl, UInt32.toNat_zero]
  tauto

/-! ### A completed initialisation -/

/-- The state that a completed `pmm_init` leaves, for the region of the heap and the block that `kcalloc`
returned for the bitmap. -/
structure Initialised (boot : BootInfo) (kernelEnd heapStart heapEnd : UInt32) (s : State) : Prop where
  counted : Counted s
  ready : s.pmmReady = true
  next : s.pmmNextSearchFrame = 0
  total : s.pmmTotalFramesCount = pmmTotalFramesFor boot.highestUsableAddress
  size : s.pmmBitmapSizeBytes.toNat = (s.pmmTotalFramesCount.toNat + 7) / 8
  free : ∀ g, g ∈ freeFrames s ↔
    ((∃ r ∈ boot.memoryRanges, r.type = memoryTypeAvailable ∧ Releases r g) ∧
      g < s.pmmTotalFramesCount.toNat) ∧ ¬InitReserves boot kernelEnd heapStart heapEnd s g

theorem pmmTotalFramesFor_le (highest : UInt32) : (pmmTotalFramesFor highest).toNat ≤ 2 ^ 20 := by
  have hlt := highest.toNat_lt
  rw [pmmTotalFramesFor_toNat]
  unfold lastPage
  split
  · omega
  · split <;> omega

theorem bitmapSize_toNat {total : UInt32} (h : total.toNat ≤ 2 ^ 20) :
    ((total + 7) / 8).toNat = (total.toNat + 7) / 8 := by
  have hseven : (7 : UInt32).toNat = 7 := rfl
  rw [UInt32.toNat_div, toNat_add_of_lt (by rw [hseven]; omega)]
  rfl

theorem pmmInit_ready {boot : BootInfo} {heap heap' : Heap.State}
    (h : pmmInit boot kernelEnd heap = some (s, heap')) (hready : s.pmmReady = true) :
    Heap.kcalloc heap ((s.pmmTotalFramesCount + 7) / 8) 1 = some (s.pmmBitmap, heap') ∧ s.pmmBitmap ≠ 0 ∧
      Initialised boot kernelEnd heap'.heapStartPtr heap'.heapEndPtr s := by
  have hnot : ∀ {t : Heap.State}, some (pmmReset, t) ≠ some (s, heap') := by
    intro t he
    obtain ⟨rfl, _⟩ := Prod.mk.inj (Option.some.inj he)
    cases hready
  unfold pmmInit at h
  by_cases hoff : boot.ready = false ∨ heap.heapReady = false
  · rw [if_pos hoff] at h
    exact absurd h hnot
  rw [if_neg hoff] at h
  by_cases hlow : boot.highestUsableAddress < pmmFrameSize - 1
  · rw [if_pos hlow] at h
    exact absurd h hnot
  rw [if_neg hlow] at h
  dsimp only at h
  cases hcalloc : Heap.kcalloc heap ((pmmTotalFramesFor boot.highestUsableAddress + 7) / 8) 1 with
  | none =>
    rw [hcalloc] at h
    cases h
  | some result =>
    obtain ⟨bitmap, heap₁⟩ := result
    rw [hcalloc] at h
    dsimp only at h
    by_cases hnull : bitmap = 0
    · rw [if_pos hnull] at h
      exact absurd h hnot
    rw [if_neg hnull] at h
    obtain ⟨rfl, rfl⟩ := Prod.mk.inj (Option.some.inj h)
    have htotal := pmmTotalFramesFor_le boot.highestUsableAddress
    obtain ⟨hfilled, hempty⟩ := pmmFilled_spec bitmap htotal (bitmapSize_toNat htotal)
    obtain ⟨hm1, hf1⟩ := pmmReleaseRanges_spec boot.memoryRanges hfilled
    obtain ⟨hm2, hf2⟩ :=
      pmmReserveRegions_spec boot kernelEnd heap₁.heapStartPtr heap₁.heapEndPtr hm1.counted
    have hm := hm1.trans hm2
    generalize pmmReserveRegions _ boot kernelEnd heap₁.heapStartPtr heap₁.heapEndPtr = t at hm hm2 hf2 ⊢
    have hbitmap : t.pmmBitmap = bitmap := by rw [hm.others]; rfl
    have htot : t.pmmTotalFramesCount = pmmTotalFramesFor boot.highestUsableAddress := hm.total
    have hbytes : t.pmmBitmapSizeBytes = (pmmTotalFramesFor boot.highestUsableAddress + 7) / 8 := by
      rw [hm.others]; rfl
    refine ⟨?_, ?_, ⟨hm.counted.total, hm.counted.size, hm.counted.count, hm.counted.tail⟩, rfl, ?_,
      htot, ?_, ?_⟩
    · change Heap.kcalloc heap ((t.pmmTotalFramesCount + 7) / 8) 1 = some (t.pmmBitmap, heap₁)
      rw [htot, hbitmap, hcalloc]
    · exact fun h0 => hnull (hbitmap.symm.trans h0)
    · change t.pmmNextSearchFrame = 0
      rw [hm.others]
      rfl
    · change t.pmmBitmapSizeBytes.toNat = (t.pmmTotalFramesCount.toNat + 7) / 8
      rw [hbytes, htot, bitmapSize_toNat htotal]
    · intro g
      have hsame : InitReserves boot kernelEnd heap₁.heapStartPtr heap₁.heapEndPtr
          (pmmReleaseRanges (pmmFilled bitmap ((pmmTotalFramesFor boot.highestUsableAddress + 7) / 8)
            (pmmTotalFramesFor boot.highestUsableAddress)) boot.memoryRanges) g ↔
          InitReserves boot kernelEnd heap₁.heapStartPtr heap₁.heapEndPtr t g := by
        unfold InitReserves
        rw [hm2.others]
      change g ∈ freeFrames t ↔ _
      rw [hf2, hf1, hempty, hsame]
      simp only [Finset.notMem_empty, false_or]
      rw [htot]
      rfl

theorem Initialised.zero_not_free {boot : BootInfo} {kernelEnd heapStart heapEnd : UInt32}
    (h : Initialised boot kernelEnd heapStart heapEnd s) : 0 ∉ freeFrames s := by
  intro hmem
  obtain ⟨_, hnot⟩ := (h.free 0).mp hmem
  exact hnot (Or.inl (by unfold Reserves Meets lastPage; omega))

/-! ### Free frames and the memory map -/

/-- The heap, which starts at `__kernel_end`, ends below the last page. The kernel is linked at one
megabyte. -/
def LinkedLow (kernelEnd : UInt32) : Prop :=
  0 < kernelEnd.toNat ∧ (kernelEnd.toNat + 15) / 16 * 16 + 2 ^ 20 ≤ lastPage

instance (kernelEnd : UInt32) : Decidable (LinkedLow kernelEnd) := inferInstanceAs (Decidable (_ ∧ _))

theorem LinkedLow.fits (h : LinkedLow kernelEnd) : Heap.HeapFits kernelEnd := by
  unfold LinkedLow lastPage at h
  unfold Heap.HeapFits
  omega

def Available (boot : BootInfo) (g : Nat) : Prop :=
  ∃ r ∈ boot.memoryRanges, r.type = memoryTypeAvailable ∧ Inside g r.baseAddr.toNat r.stop

/-- Some range of type `AVAILABLE` starts behind the first byte of the last page. -/
def StartsInLastPage (boot : BootInfo) : Prop :=
  ∃ r ∈ boot.memoryRanges, r.type = memoryTypeAvailable ∧ lastPage < r.baseAddr.toNat

/-- Frame `g` meets the first megabyte, the kernel image or the heap. -/
def MeetsKernel (kernelEnd : UInt32) (g : Nat) : Prop :=
  Meets g 0 (2 ^ 20) ∨ Meets g (2 ^ 20) kernelEnd.toNat ∨
    Meets g ((kernelEnd.toNat + 15) / 16 * 16) ((kernelEnd.toNat + 15) / 16 * 16 + 2 ^ 20)

def infoStop (boot : BootInfo) : Nat := boot.infoAddress.toNat + boot.infoSize.toNat

def MeetsInfo (boot : BootInfo) (g : Nat) : Prop := Meets g boot.infoAddress.toNat (infoStop boot)

/-- Every free frame lies inside an available range and meets none of the protected regions. -/
def OnlyAvailableFree (boot : BootInfo) (kernelEnd : UInt32) (s : State) : Prop :=
  ∀ g ∈ freeFrames s, Available boot g ∧ ¬MeetsKernel kernelEnd g ∧ ¬MeetsInfo boot g

/-- The map and the multiboot block are harmless in the last page. A range that starts in it is
released from frame zero on, so the frames below have to be available or protected; a block that
ends in it is not reserved, so none of its frames may be on offer. -/
structure LastPageSafe (boot : BootInfo) (kernelEnd : UInt32) : Prop where
  starts : StartsInLastPage boot → ∀ g < 0xFFFFF, Available boot g ∨ MeetsKernel kernelEnd g ∨
    MeetsInfo boot g
  stops : lastPage < infoStop boot → ∀ g < 0xFFFFF, MeetsInfo boot g →
    MeetsKernel kernelEnd g ∨ ¬(Available boot g ∨ StartsInLastPage boot)

section map
variable {boot : BootInfo} {kernelEnd : UInt32} {heap heap' : Heap.State} {s : State}

theorem bitmap_in_heap (hlow : LinkedLow kernelEnd) (hheap : Heap.Reachable kernelEnd heap)
    (htotal : s.pmmTotalFramesCount.toNat ≤ 2 ^ 20)
    (hcalloc : Heap.kcalloc heap ((s.pmmTotalFramesCount + 7) / 8) 1 = some (s.pmmBitmap, heap'))
    (hnull : s.pmmBitmap ≠ 0) :
    0 < s.pmmTotalFramesCount.toNat ∧
      heap'.heapStartPtr.toNat = (kernelEnd.toNat + 15) / 16 * 16 ∧
      heap'.heapEndPtr.toNat = (kernelEnd.toNat + 15) / 16 * 16 + 2 ^ 20 ∧
      heap'.heapStartPtr.toNat ≤ s.pmmBitmap.toNat ∧
      s.pmmBitmap.toNat + (s.pmmTotalFramesCount.toNat + 7) / 8 ≤ heap'.heapEndPtr.toNat := by
  have hsize := bitmapSize_toNat htotal
  have hreq : Heap.requested ((s.pmmTotalFramesCount + 7) / 8) 1 =
      (s.pmmTotalFramesCount.toNat + 7) / 8 := by
    rw [Heap.requested, hsize, UInt32.toNat_one, Nat.mul_one]
  rcases hheap.sound_or_lost hlow.fits with ⟨hstart, bs, hrep⟩ | hlost
  · obtain ⟨p, t, _, hk, _, hst, hend⟩ :=
      hrep.kcalloc_spec (show Heap.requested ((s.pmmTotalFramesCount + 7) / 8) 1 ≤
        2 ^ 32 - 16 by omega)
    obtain ⟨rfl, rfl⟩ : p = s.pmmBitmap ∧ t = heap' := by simpa [hk] using hcalloc
    obtain ⟨n, hcover, hlo, hhi, _⟩ := (hend.resolve_left fun hz => hnull hz.1).2
    have hspan := hrep.phys.region.span
    rw [hreq] at hcover
    rw [Heap.statics_start hst, Heap.statics_end hst, hspan, hstart, hlow.fits.start_toNat]
    rw [hspan, hstart, hlow.fits.start_toNat] at hhi
    rw [hstart, hlow.fits.start_toNat] at hlo
    refine ⟨?_, rfl, rfl, hlo, by omega⟩
    by_contra hzero
    apply hnull
    have h0 : s.pmmTotalFramesCount = 0 := UInt32.toNat_inj.mp (by rw [UInt32.toNat_zero]; omega)
    rw [h0, Heap.kcalloc, if_pos (Or.inl (by decide))] at hk
    exact (Prod.mk.inj (Option.some.inj hk)).1.symm
  · rcases hlost.1.kcalloc_null ((s.pmmTotalFramesCount + 7) / 8) 1 with hk | hk
    · rw [hk] at hcalloc
      exact absurd (Prod.mk.inj (Option.some.inj hcalloc)).1.symm hnull
    · rw [hk] at hcalloc
      exact absurd (Prod.mk.inj (Option.some.inj hcalloc)).1.symm hnull

theorem kernel_reserved (hlow : LinkedLow kernelEnd) (g : Nat) :
    Reserves (2 ^ 20) (2 ^ 20 + (pmmAlignUp kernelEnd pmmFrameSize - kernelLoadAddress).toNat) g ↔
      Meets g (2 ^ 20) kernelEnd.toNat := by
  have hlt := kernelEnd.toNat_lt
  have hup := pmmAlignUp_toNat kernelEnd
  have hload : kernelLoadAddress.toNat = 2 ^ 20 := rfl
  unfold LinkedLow lastPage at hlow
  rw [Nat.mod_eq_of_lt (by omega)] at hup
  unfold Reserves Meets lastPage
  rw [UInt32.toNat_sub, hload, hup]
  omega

/-- The reservations are those of the protected regions: the bitmap is part of the heap. -/
theorem initReserves_iff (hlow : LinkedLow kernelEnd) (hheap : Heap.Reachable kernelEnd heap)
    (hinit : pmmInit boot kernelEnd heap = some (s, heap')) (hready : s.pmmReady = true) (g : Nat) :
    InitReserves boot kernelEnd heap'.heapStartPtr heap'.heapEndPtr s g ↔
      MeetsKernel kernelEnd g ∨ (infoStop boot ≤ lastPage ∧ MeetsInfo boot g) := by
  obtain ⟨hcalloc, hnull, hs⟩ := pmmInit_ready hinit hready
  obtain ⟨hpos, hstart, hend, hblo, hbhi⟩ := bitmap_in_heap hlow hheap hs.counted.total hcalloc hnull
  have htop : (kernelEnd.toNat + 15) / 16 * 16 + 2 ^ 20 ≤ lastPage := hlow.2
  have hspan : (heap'.heapEndPtr - heap'.heapStartPtr).toNat = 2 ^ 20 := by
    rw [toNat_sub_of_le (by omega)]
    omega
  have hbit : Reserves s.pmmBitmap.toNat (s.pmmBitmap.toNat + s.pmmBitmapSizeBytes.toNat) g →
      Meets g ((kernelEnd.toNat + 15) / 16 * 16) ((kernelEnd.toNat + 15) / 16 * 16 + 2 ^ 20) := by
    rw [hs.size]
    unfold Reserves Meets
    omega
  have hheapr : Reserves heap'.heapStartPtr.toNat (heap'.heapStartPtr.toNat + 2 ^ 20) g ↔
      Meets g ((kernelEnd.toNat + 15) / 16 * 16) ((kernelEnd.toNat + 15) / 16 * 16 + 2 ^ 20) := by
    rw [hstart]
    exact and_iff_right htop
  have hfirst : Reserves 0 (2 ^ 20) g ↔ Meets g 0 (2 ^ 20) := and_iff_right (by unfold lastPage; omega)
  unfold InitReserves
  rw [hspan, hheapr, hfirst, kernel_reserved hlow]
  unfold MeetsKernel MeetsInfo infoStop
  unfold Reserves at hbit ⊢
  tauto

theorem free_iff (hlow : LinkedLow kernelEnd) (hheap : Heap.Reachable kernelEnd heap)
    (htable : TableOk boot) (hinit : pmmInit boot kernelEnd heap = some (s, heap'))
    (hready : s.pmmReady = true) (g : Nat) :
    g ∈ freeFrames s ↔ g < 0xFFFFF ∧ (Available boot g ∨ StartsInLastPage boot) ∧ ¬MeetsKernel kernelEnd g ∧
      ¬(infoStop boot ≤ lastPage ∧ MeetsInfo boot g) := by
  obtain ⟨hcalloc, hnull, hs⟩ := pmmInit_ready hinit hready
  have hpos := (bitmap_in_heap hlow hheap hs.counted.total hcalloc hnull).1
  -- what is on offer lies below the total
  have htotal := pmmTotalFramesFor_toNat boot.highestUsableAddress
  rw [← hs.total] at htotal
  have hoffer : ((∃ r ∈ boot.memoryRanges, r.type = memoryTypeAvailable ∧ Releases r g) ∧
      g < s.pmmTotalFramesCount.toNat) ↔ g < 0xFFFFF ∧ (Available boot g ∨ StartsInLastPage boot) := by
    have hbelow : ∀ r ∈ boot.memoryRanges, r.type = memoryTypeAvailable → Releases r g →
        g < s.pmmTotalFramesCount.toNat := by
      intro r hr htype hrel
      have hhigh := htable.highest r hr htype
      have hlen := (htable.range r hr).1
      unfold Releases Inside lastPage at hrel
      unfold MemoryRange.stop at hrel hhigh
      unfold lastPage at htotal
      split at htotal
      · omega
      · split at htotal
        · omega
        · omega
    constructor
    · rintro ⟨⟨r, hr, htype, hrel⟩, _⟩
      obtain ⟨_, hlt, hin | hwrap⟩ := hrel
      · exact ⟨hlt, Or.inl ⟨r, hr, htype, hin⟩⟩
      · exact ⟨hlt, Or.inr ⟨r, hr, htype, hwrap⟩⟩
    · rintro ⟨hlt, ⟨r, hr, htype, hin⟩ | ⟨r, hr, htype, hwrap⟩⟩
      · have hrel : Releases r g := ⟨(htable.range r hr).1, hlt, Or.inl hin⟩
        exact ⟨⟨r, hr, htype, hrel⟩, hbelow r hr htype hrel⟩
      · have hrel : Releases r g := ⟨(htable.range r hr).1, hlt, Or.inr hwrap⟩
        exact ⟨⟨r, hr, htype, hrel⟩, hbelow r hr htype hrel⟩
  rw [hs.free, hoffer, initReserves_iff hlow hheap hinit hready, not_or, and_assoc]

end map

/-! ### Right after `heap_init` -/

/-- On a fresh heap `pmm_init` completes for every valid map whose highest usable address gives a number of
frames: the bitmap has at most 128 KiB. -/
theorem pmmInit_completes (boot : BootInfo) (hlow : LinkedLow kernelEnd) (h₀ : Heap.State)
    (hboot : boot.ready = true) (hhigh : 4095 ≤ boot.highestUsableAddress.toNat)
    (htotal : pmmTotalFramesFor boot.highestUsableAddress ≠ 0) :
    ∃ s heap', pmmInit boot kernelEnd (Heap.heapInit kernelEnd h₀) = some (s, heap') ∧
        s.pmmReady = true := by
  have hrep := Heap.heapInit_rep hlow.fits h₀
  have hle := pmmTotalFramesFor_le boot.highestUsableAddress
  have hsize := bitmapSize_toNat hle
  have hpos : 0 < (pmmTotalFramesFor boot.highestUsableAddress).toNat :=
    Nat.pos_of_ne_zero fun h => htotal (UInt32.toNat_inj.mp h)
  unfold pmmInit
  rw [if_neg (by simp [hboot, hrep.phys.region.ready]), if_neg (by
    rw [UInt32.lt_iff_toNat_lt]
    exact Nat.not_lt.mpr hhigh)]
  dsimp only
  generalize (pmmTotalFramesFor boot.highestUsableAddress + 7) / 8 = bitmapSize at hsize ⊢
  have hreq : Heap.requested bitmapSize 1 = bitmapSize.toNat := by
    rw [Heap.requested, UInt32.toNat_one, Nat.mul_one]
  obtain ⟨p, heap', _, hk, _, _, hend⟩ := hrep.kcalloc_spec
    (show Heap.requested bitmapSize 1 ≤ 2 ^ 32 - 16 by omega)
  have hp : p ≠ 0 := by
    intro h0
    obtain ⟨_, _, hnone | hnofit⟩ := hend.resolve_right fun hs => hs.1 h0
    · omega
    · have hfit : Heap.heapAlignUp (bitmapSize * 1) Heap.heapAlignment ≤ 1048544 := by
        rw [UInt32.mul_one, UInt32.le_iff_toNat_le, Heap.heapAlignUp_toNat,
          show (1048544 : UInt32).toNat = 1048544 from rfl]
        omega
      have hno := List.find?_eq_none.mp hnofit _ (List.mem_singleton_self _)
      simp [Heap.initialBlock] at hno hfit
      exact absurd hfit (UInt32.not_le.mpr hno)
  rw [hk]
  exact ⟨_, heap', if_neg hp, rfl⟩

/-- For every stored memory map for which `pmm_init` completes: each free frame lies inside an
available range and clear of the protected regions, exactly when the map and the multiboot block are
harmless in the last page. -/
theorem free_available_iff {kernelEnd : UInt32} (hlow : LinkedLow kernelEnd)
    {heap heap' : Heap.State} (hheap : Heap.Reachable kernelEnd heap)
    (infoAddress infoSize : UInt32) (entries : List MmapEntry) {s : State}
    (hinit : pmmInit (bootinfoStored infoAddress infoSize entries) kernelEnd heap = some (s, heap'))
    (hready : s.pmmReady = true) :
    OnlyAvailableFree (bootinfoStored infoAddress infoSize entries) kernelEnd s ↔
      LastPageSafe (bootinfoStored infoAddress infoSize entries) kernelEnd := by
  have hfree := free_iff hlow hheap (bootinfoStored_tableOk infoAddress infoSize entries) hinit hready
  generalize bootinfoStored infoAddress infoSize entries = boot at hfree ⊢
  unfold OnlyAvailableFree
  constructor
  · intro hall
    refine ⟨fun hstarts g hg => ?_, fun hstop g hg hinfo => ?_⟩
    · by_contra hnot
      obtain ⟨hno, hkernel, hinfo⟩ : ¬Available boot g ∧ ¬MeetsKernel kernelEnd g ∧
        ¬MeetsInfo boot g := by tauto
      have hmem := (hfree g).mpr ⟨hg, Or.inr hstarts, hkernel, fun h => hinfo h.2⟩
      exact hno (hall g hmem).1
    · by_contra hnot
      obtain ⟨hkernel, hoffer⟩ := not_or.mp hnot
      have hmem := (hfree g).mpr ⟨hg, not_not.mp hoffer, hkernel, fun h => by omega⟩
      exact (hall g hmem).2.2 hinfo
  · intro hsafe g hmem
    obtain ⟨hg, hoffer, hkernel, hkept⟩ := (hfree g).mp hmem
    have hinfo : ¬MeetsInfo boot g := by
      intro hmeets
      by_cases hstop : infoStop boot ≤ lastPage
      · exact hkept ⟨hstop, hmeets⟩
      · rcases hsafe.stops (by omega) g hg hmeets with hk | hno
        · exact hkernel hk
        · exact hno hoffer
    refine ⟨?_, hkernel, hinfo⟩
    rcases hoffer with havail | hstarts
    · exact havail
    · rcases hsafe.starts hstarts g hg with havail | hk | hi
      · exact havail
      · exact absurd hk hkernel
      · exact absurd hi hinfo

/-- One available range, between two and 128 megabytes. -/
def plainMap : BootInfo := bootinfoStored 0x00010000 0x1000 [⟨0x00200000, 0x07E00000, 1⟩]

theorem free_available_plain_map :
    ∃ s heap', pmmInit plainMap 0x00200000 (Heap.heapInit 0x00200000 Heap.bootState) = some (s, heap') ∧
      s.pmmReady = true ∧ LastPageSafe plainMap 0x00200000 ∧ OnlyAvailableFree plainMap 0x00200000 s := by
  have hranges : plainMap.memoryRanges = [⟨0x00200000, 0x07E00000, 1⟩] := by decide
  have hsafe : LastPageSafe plainMap 0x00200000 := by
    refine ⟨fun hstarts => ?_, fun hstop => absurd hstop (by decide)⟩
    obtain ⟨r, hr, -, hlast⟩ := hstarts
    rw [hranges, List.mem_singleton] at hr
    subst hr
    exact absurd hlast (by decide)
  obtain ⟨s, heap', hinit, hready⟩ := pmmInit_completes plainMap (show LinkedLow 0x00200000 by decide)
    Heap.bootState (by decide) (by decide) (by decide)
  have hiff := free_available_iff (by decide) Heap.reachable_init 0x00010000 0x1000
    [⟨0x00200000, 0x07E00000, 1⟩]
    hinit hready
  exact ⟨s, heap', hinit, hready, hsafe, hiff.mpr hsafe⟩

/-- A second available range of two kilobytes at the very end of the address space. -/
def lastPageMap : BootInfo :=
  bootinfoStored 0x00010000 0x1000 [⟨0x00200000, 0x07E00000, 1⟩, ⟨0xFFFFF800, 0x800, 1⟩]

/-- The small range at the end makes every frame below it free: the one at 128 megabytes, for example, which
lies in no range at all. -/
theorem last_page_range_frees_all :
    ∃ s heap', pmmInit lastPageMap 0x00200000 (Heap.heapInit 0x00200000 Heap.bootState) = some (s, heap') ∧
      s.pmmReady = true ∧ 0x8000 ∈ freeFrames s ∧ ¬Available lastPageMap 0x8000 ∧
      ¬OnlyAvailableFree lastPageMap 0x00200000 s := by
  have hranges : lastPageMap.memoryRanges = [⟨0x00200000, 0x07E00000, 1⟩, ⟨0xFFFFF800, 0x800, 1⟩] :=
    by decide
  obtain ⟨s, heap', hinit, hready⟩ := pmmInit_completes lastPageMap (show LinkedLow 0x00200000 by decide)
    Heap.bootState (by decide) (by decide) (by decide)
  have hno : ¬Available lastPageMap 0x8000 := by
    unfold Available
    rw [hranges]
    decide
  have hstarts : StartsInLastPage lastPageMap := ⟨⟨0xFFFFF800, 0x800, 1⟩, by simp [hranges], rfl, by decide⟩
  have hkernel : ¬MeetsKernel 0x00200000 0x8000 := by unfold MeetsKernel; decide
  have hinfo : ¬MeetsInfo lastPageMap 0x8000 := by unfold MeetsInfo; decide
  have hmem : 0x8000 ∈ freeFrames s :=
    (free_iff (by decide) Heap.reachable_init (bootinfoStored_tableOk _ _ _) hinit hready 0x8000).mpr
      ⟨by decide, Or.inr hstarts, hkernel, fun h => hinfo h.2⟩
  exact ⟨s, heap', hinit, hready, hmem, hno, fun hall => hno (hall _ hmem).1⟩

end TermobKernel.Pmm

import TermobKernel.Pmm.Frames

/-!
# What a reservation covers

`pmm_reserve_region` on any bitmap, whether or not the counter agrees with it. The loop sets the bit
of every frame from the start of the region up to the rounded end and takes one from the counter for
every frame that was free, as long as the counter is above zero. The rounded end is zero for a
region that ends behind the start of the last page below 4 GiB: such a region is not reserved at
all, not even the frames before that page.
-/

namespace TermobKernel.Pmm
open Bitmap Word

/-- The region is reserved: its frames below the total are in use, all other bits are as they were,
and the counter has dropped by the number of frames that were taken. -/
structure Covers (baseAddr length : UInt32) (s s' : State) : Prop where
  used : ∀ g < s.pmmTotalFramesCount.toNat, MeetsRegion baseAddr length g → bit s'.bitmapBytes g = true
  others : ∀ g, ¬(g < s.pmmTotalFramesCount.toNat ∧ MeetsRegion baseAddr length g) →
    bit s'.bitmapBytes g = bit s.bitmapBytes g
  count : s'.pmmFreeFramesCount.toNat + (freeFrames s \ freeFrames s').card = s.pmmFreeFramesCount.toNat

def needed (s : State) (baseAddr length : UInt32) : Finset Nat :=
  (freeFrames s).filter (MeetsRegion baseAddr length)

/-- **What a reservation covers.** For every bitmap, counter, base and length the region is reserved
if and only if it has no free frame or ends at the start of the last page at the latest, and the
counter is not smaller than the number of frames to take. -/
theorem reserve_covers_iff {s : State} (hs : Backed s) (baseAddr length : UInt32) :
    Covers baseAddr length s (pmmReserveRegion s baseAddr length) ↔
      (needed s baseAddr length = ∅ ∨ baseAddr.toNat + length.toNat ≤ lastPage) ∧
        (needed s baseAddr length).card ≤ s.pmmFreeFramesCount.toNat := by
  have htakes := pmmReserveRegion_takes hs baseAddr length
  by_cases hend : baseAddr.toNat + length.toNat ≤ lastPage
  · -- The loop covers the region, and the counter stops at zero.
    have hall : Takes (MeetsRegion baseAddr length) s (pmmReserveRegion s baseAddr length) :=
      htakes.congr fun g _ => and_iff_right hend
    have hcount := hall.count
    rw [← needed] at hcount
    constructor
    · intro h
      have hdrop := h.count
      rw [hall.taken_eq, ← needed] at hdrop
      exact ⟨Or.inr hend, by omega⟩
    · intro h
      refine ⟨fun g hg hmeets => ?_, fun g hout => ?_, ?_⟩
      · rw [hall.bits, decide_eq_true ⟨hg, hmeets⟩, Bool.or_true]
      · rw [hall.bits, decide_eq_false hout, Bool.or_false]
      · rw [hall.taken_eq, ← needed, hcount, Nat.sub_add_cancel h.2]
  · -- The end rounds up to zero and the loop does nothing.
    have hnone : Takes (fun _ => False) s (pmmReserveRegion s baseAddr length) :=
      htakes.congr fun g _ => iff_of_false (fun h => hend h.1) id
    have hbits : ∀ g, bit (pmmReserveRegion s baseAddr length).bitmapBytes g = bit s.bitmapBytes g := by
      intro g
      rw [hnone.bits, decide_eq_false (fun h => h.2), Bool.or_false]
    constructor
    · intro h
      have hempty : needed s baseAddr length = ∅ := by
        refine Finset.filter_eq_empty_iff.mpr fun g hg hmeets => ?_
        obtain ⟨hlt, hclear⟩ := mem_freeFrames.mp hg
        have hused := h.used g hlt hmeets
        rw [hbits, hclear] at hused
        cases hused
      exact ⟨Or.inl hempty, by rw [hempty]; exact Nat.zero_le _⟩
    · intro h
      have hempty := h.1.resolve_right hend
      refine ⟨fun g hg hmeets => ?_, fun g _ => hbits g, ?_⟩
      · rw [hbits]
        by_contra hclear
        rw [Bool.not_eq_true] at hclear
        exact Finset.filter_eq_empty_iff.mp hempty (mem_freeFrames.mpr ⟨hg, hclear⟩) hmeets
      · rw [hnone.taken_eq, hnone.count, Finset.filter_false, Finset.card_empty]
        rfl

/-- Two free frames and a reservation of one byte in the second. -/
theorem reserve_covers_second_frame :
    Covers 0x1234 1 ⟨0, [0xFC], 1, 2, 2, 0, true⟩ (pmmReserveRegion
        ⟨0, [0xFC], 1, 2, 2, 0, true⟩ 0x1234 1) := by
  refine (reserve_covers_iff (by decide) _ _).mpr ?_
  decide

/-- A region that ends in the last page: with the free frames 0 and 1 and a counter of two, all of 4
GiB is reserved and nothing happens. -/
theorem reserve_whole_memory_nothing :
    pmmReserveRegion ⟨0, [0xFC], 1, 2, 2, 0, true⟩ 0 0xFFFFFFFF = ⟨0, [0xFC], 1, 2, 2, 0, true⟩ ∧
      MeetsRegion 0 0xFFFFFFFF 1 ∧ bit [0xFC] 1 = false := by
  decide

end TermobKernel.Pmm

import TermobKernel.Pmm.Init
import TermobKernel.Library.Runs

/-!
# The frame allocator and its callers

Calls of `pmm_alloc_frame` and `pmm_free_frame` after a completed `pmm_init`, with the set of addresses that
the callers hold. The frames that were free after the initialisation are at any time either free or held.
-/

namespace TermobKernel.Pmm
open Boot Bitmap Word Runs

/-! ### Searching -/

theorem pmmFindFree_some {s : State} :
    ∀ {count : Nat} {frameIndex found : UInt32}, frameIndex.toNat + count < 2 ^ 32 →
      pmmFindFree s count frameIndex = some found →
      frameIndex.toNat ≤ found.toNat ∧ found.toNat < frameIndex.toNat + count ∧
        bit s.bitmapBytes found.toNat = false ∧
        ∀ g, frameIndex.toNat ≤ g → g < found.toNat → bit s.bitmapBytes g = true := by
  intro count
  induction count with
  | zero =>
    intro frameIndex found _ h
    cases h
  | succ count ih =>
    intro frameIndex found hlt h
    rw [pmmFindFree, pmmFrameIsUsed_eq] at h
    by_cases hclear : bit s.bitmapBytes frameIndex.toNat = false
    · rw [if_pos hclear] at h
      obtain rfl := Option.some.inj h
      exact ⟨le_rfl, by omega, hclear, fun g hlo hhi => by omega⟩
    · rw [if_neg hclear] at h
      have hnext : (frameIndex + 1).toNat = frameIndex.toNat + 1 :=
        toNat_add_of_lt (by rw [UInt32.toNat_one]; omega)
      obtain ⟨hlo, hhi, hbit, hbefore⟩ := ih (by omega) h
      refine ⟨by omega, by omega, hbit, fun g hg hfound => ?_⟩
      by_cases hhere : g = frameIndex.toNat
      · rw [hhere]
        simpa using hclear
      · exact hbefore g (by omega) hfound

theorem pmmFindFree_none {s : State} :
    ∀ {count : Nat} {frameIndex : UInt32}, frameIndex.toNat + count < 2 ^ 32 →
      pmmFindFree s count frameIndex = none →
      ∀ g, frameIndex.toNat ≤ g → g < frameIndex.toNat + count → bit s.bitmapBytes g = true := by
  intro count
  induction count with
  | zero =>
    intro frameIndex _ _ g hlo hhi
    omega
  | succ count ih =>
    intro frameIndex hlt h g hlo hhi
    rw [pmmFindFree, pmmFrameIsUsed_eq] at h
    by_cases hclear : bit s.bitmapBytes frameIndex.toNat = false
    · rw [if_pos hclear] at h
      cases h
    · rw [if_neg hclear] at h
      have hnext : (frameIndex + 1).toNat = frameIndex.toNat + 1 :=
        toNat_add_of_lt (by rw [UInt32.toNat_one]; omega)
      by_cases hg : g = frameIndex.toNat
      · rw [hg]
        simpa using hclear
      · exact ih (by omega) h g (by omega) (by omega)

/-! ### One call -/

/-- The allocator between two calls. -/
structure Serving (s : State) : Prop where
  counted : Counted s
  ready : s.pmmReady = true
  next : s.pmmNextSearchFrame.toNat ≤ s.pmmTotalFramesCount.toNat

/-- Frame `f` is the one that the search finds: the first free frame from the start of the search
on, or the first of all when there is none behind the start. -/
def NextFree (s : State) (f : Nat) : Prop :=
  f ∈ freeFrames s ∧
    ((s.pmmNextSearchFrame.toNat ≤ f ∧ ∀ g ∈ freeFrames s, s.pmmNextSearchFrame.toNat ≤ g → f ≤ g) ∨
      ∀ g ∈ freeFrames s, f ≤ g ∧ g < s.pmmNextSearchFrame.toNat)

section calls
variable {s : State}

theorem pmmTakeFrame_spec (h : Serving s) {frameIndex : UInt32} (hfree : frameIndex.toNat ∈ freeFrames s) :
    (pmmTakeFrame s frameIndex).1.toNat = frameIndex.toNat * 4096 ∧ Serving (pmmTakeFrame s frameIndex).2 ∧
      (pmmTakeFrame s frameIndex).2.pmmTotalFramesCount = s.pmmTotalFramesCount ∧
      ∀ g, g ∈ freeFrames (pmmTakeFrame s frameIndex).2 ↔ g ∈ freeFrames s ∧ g ≠ frameIndex.toNat := by
  have hlt := (mem_freeFrames.mp hfree).1
  have htotal := h.counted.total
  obtain ⟨hmark, hmem⟩ := pmmMarkFrameUsed_spec h.counted frameIndex
  have hnext : (frameIndex + 1).toNat = frameIndex.toNat + 1 :=
    toNat_add_of_lt (by rw [UInt32.toNat_one]; omega)
  refine ⟨?_, ⟨⟨hmark.counted.total, hmark.counted.size, hmark.counted.count, hmark.counted.tail⟩,
    ?_, ?_⟩, ?_, hmem⟩
  · exact toNat_mul_of_lt (by rw [frameSize_toNat]; omega)
  · change (pmmMarkFrameUsed s frameIndex).pmmReady = true
    rw [hmark.others]
    exact h.ready
  · change (frameIndex + 1).toNat ≤ (pmmMarkFrameUsed s frameIndex).pmmTotalFramesCount.toNat
    rw [hmark.total, hnext]
    omega
  · exact hmark.total

theorem not_bit_of_free {g : Nat} (hg : g ∈ freeFrames s) : bit s.bitmapBytes g ≠ true := by
  rw [(mem_freeFrames.mp hg).2]
  exact Bool.false_ne_true

theorem pmmAllocFrame_cases (h : Serving s) :
    (freeFrames s = ∅ ∧ pmmAllocFrame s = (0, s)) ∨
      ∃ frameIndex : UInt32, NextFree s frameIndex.toNat ∧ pmmAllocFrame s = pmmTakeFrame s frameIndex := by
  have htotal := h.counted.total
  have hnext := h.next
  unfold pmmAllocFrame
  by_cases hnone : s.pmmReady = false ∨ s.pmmFreeFramesCount = 0
  · rw [if_pos hnone]
    refine Or.inl ⟨Finset.card_eq_zero.mp ?_, rfl⟩
    rcases hnone with hoff | hzero
    · rw [h.ready] at hoff
      cases hoff
    · rw [← h.counted.count, hzero]
      rfl
  rw [if_neg hnone]
  cases hfirst : pmmFindFree s (s.pmmTotalFramesCount.toNat - s.pmmNextSearchFrame.toNat)
      s.pmmNextSearchFrame with
  | some frameIndex =>
    obtain ⟨hlo, hhi, hclear, hbefore⟩ := pmmFindFree_some (by omega) hfirst
    refine Or.inr ⟨frameIndex, ⟨mem_freeFrames.mpr ⟨by omega, hclear⟩,
      Or.inl ⟨hlo, fun g hg hge => ?_⟩⟩, rfl⟩
    by_contra hlt
    exact not_bit_of_free hg (hbefore g hge (by omega))
  | none =>
    -- the second search is made when no frame behind the start is free
    have hbelow : ∀ g ∈ freeFrames s, g < s.pmmNextSearchFrame.toNat := by
      intro g hg
      have hlt := (mem_freeFrames.mp hg).1
      by_contra hge
      exact not_bit_of_free hg (pmmFindFree_none (by omega) hfirst g (by omega) (by omega))
    cases hsecond : pmmFindFree s s.pmmNextSearchFrame.toNat 0 with
    | some frameIndex =>
      obtain ⟨_, hhi, hclear, hbefore⟩ := pmmFindFree_some (by rw [UInt32.toNat_zero]; omega) hsecond
      rw [UInt32.toNat_zero] at hhi hbefore
      refine Or.inr ⟨frameIndex, ⟨mem_freeFrames.mpr ⟨by omega, hclear⟩,
        Or.inr fun g hg => ⟨?_, hbelow g hg⟩⟩, rfl⟩
      by_contra hlt
      exact not_bit_of_free hg (hbefore g (Nat.zero_le g) (by omega))
    | none =>
      refine Or.inl ⟨Finset.eq_empty_of_forall_notMem fun g hg => ?_, rfl⟩
      have hlt := hbelow g hg
      refine not_bit_of_free hg (pmmFindFree_none (by rw [UInt32.toNat_zero]; omega) hsecond g
        (Nat.zero_le g) ?_)
      rw [UInt32.toNat_zero]
      omega

theorem pmmAllocFrame_spec (h : Serving s) :
    (freeFrames s = ∅ ∧ pmmAllocFrame s = (0, s)) ∨
      ∃ f, NextFree s f ∧ (pmmAllocFrame s).1.toNat = f * 4096 ∧ Serving (pmmAllocFrame s).2 ∧
        (pmmAllocFrame s).2.pmmTotalFramesCount = s.pmmTotalFramesCount ∧
        (pmmAllocFrame s).2.pmmNextSearchFrame.toNat = f + 1 ∧
        freeFrames (pmmAllocFrame s).2 = (freeFrames s).erase f := by
  rcases pmmAllocFrame_cases h with hnone | ⟨frameIndex, hnext, htake⟩
  · exact Or.inl hnone
  · obtain ⟨haddr, hserving, htotal, hmem⟩ := pmmTakeFrame_spec h hnext.1
    have hlt := (mem_freeFrames.mp hnext.1).1
    have hlast := h.counted.total
    rw [htake]
    refine Or.inr ⟨frameIndex.toNat, hnext, haddr, hserving, htotal, ?_, ?_⟩
    · exact toNat_add_of_lt (by rw [UInt32.toNat_one]; omega)
    · ext f
      rw [hmem, Finset.mem_erase, and_comm]

theorem pmmFreeFrame_spec (h : Serving s) {address : UInt32} {g : Nat} (haddr : address.toNat = g * 4096)
    (hlt : g < s.pmmTotalFramesCount.toNat) :
    Serving (pmmFreeFrame s address) ∧ (pmmFreeFrame s address).pmmTotalFramesCount =
      s.pmmTotalFramesCount ∧
      ∀ f, f ∈ freeFrames (pmmFreeFrame s address) ↔ f ∈ freeFrames s ∨ f = g := by
  have hindex : (address / pmmFrameSize).toNat = g := by
    rw [UInt32.toNat_div, frameSize_toNat, haddr]
    omega
  have haligned : address &&& (pmmFrameSize - 1) = 0 := by
    apply UInt32.toNat_inj.mp
    rw [show pmmFrameSize - 1 = UInt32.ofNat (2 ^ 12 - 1) from rfl, toNat_and_mask _ 12 (by omega), haddr,
      UInt32.toNat_zero]
    omega
  have hin : ¬address / pmmFrameSize ≥ s.pmmTotalFramesCount := by
    rw [ge_iff_le, UInt32.le_iff_toNat_le, hindex]
    omega
  obtain ⟨hmark, hmem⟩ := pmmMarkFrameFree_spec h.counted (address / pmmFrameSize)
  rw [hindex] at hmem
  have hset : ∀ f, f ∈ freeFrames (pmmMarkFrameFree s (address / pmmFrameSize)) ↔
      f ∈ freeFrames s ∨ f = g := by
    intro f
    rw [hmem]
    constructor
    · exact Or.imp_right And.left
    · rintro (hf | rfl)
      · exact Or.inl hf
      · exact Or.inr ⟨rfl, hlt⟩
  have hready : (pmmMarkFrameFree s (address / pmmFrameSize)).pmmReady = true := by
    rw [hmark.others]
    exact h.ready
  unfold pmmFreeFrame
  rw [if_neg (by simp [h.ready, haligned])]
  dsimp only
  rw [if_neg hin]
  by_cases hback : address / pmmFrameSize < (pmmMarkFrameFree s (address / pmmFrameSize)).pmmNextSearchFrame
  · rw [if_pos hback]
    refine ⟨⟨⟨hmark.counted.total, hmark.counted.size, hmark.counted.count, hmark.counted.tail⟩,
      hready, ?_⟩, hmark.total, hset⟩
    change (address / pmmFrameSize).toNat ≤
      (pmmMarkFrameFree s (address / pmmFrameSize)).pmmTotalFramesCount.toNat
    rw [hindex, hmark.total]
    omega
  · rw [if_neg hback]
    refine ⟨⟨hmark.counted, hready, ?_⟩, hmark.total, hset⟩
    have hsame : (pmmMarkFrameFree s (address / pmmFrameSize)).pmmNextSearchFrame =
        s.pmmNextSearchFrame := by
      rw [hmark.others]
    rw [hsame, hmark.total]
    exact h.next

end calls

/-! ### Runs -/

/-- The allocator with the addresses its callers hold. -/
structure System where
  pmm : State
  held : Finset UInt32

inductive Op where
  | alloc
  | free (physicalAddress : UInt32)
  deriving DecidableEq, Repr

/-- An address that is returned is held, an address that is given back is not held any more. -/
def step (t : System) : Op → Option System
  | .alloc =>
    let (address, pmm) := pmmAllocFrame t.pmm
    some ⟨pmm, if address = 0 then t.held else insert address t.held⟩
  | .free address => some ⟨pmmFreeFrame t.pmm address, t.held.erase address⟩

def CallerOk (t : System) : Op → Prop
  | .alloc => True
  | .free address => address ∈ t.held

/-- The frames that were free in `s₀` are free or held, and no others are. -/
structure Shared (s₀ : State) (t : System) : Prop where
  serving : Serving t.pmm
  total : t.pmm.pmmTotalFramesCount = s₀.pmmTotalFramesCount
  free : ∀ g ∈ freeFrames t.pmm, g ∈ freeFrames s₀
  held : ∀ address, address ∈ t.held ↔
    ∃ g ∈ freeFrames s₀, g ∉ freeFrames t.pmm ∧ address.toNat = g * 4096

theorem Initialised.shared {boot : BootInfo} {kernelEnd heapStart heapEnd : UInt32} {s₀ : State}
    (h : Initialised boot kernelEnd heapStart heapEnd s₀) : Shared s₀ ⟨s₀, ∅⟩ := by
  refine ⟨⟨h.counted, h.ready, ?_⟩, rfl, fun g hg => hg, fun address => ?_⟩
  · rw [h.next]
    exact Nat.zero_le _
  · constructor
    · intro hmem
      exact absurd hmem (Finset.notMem_empty _)
    · rintro ⟨g, hg, hnot, _⟩
      exact absurd hg hnot

section runs
variable {s₀ : State} {t : System}

theorem Shared.alloc (h : Shared s₀ t) (hzero : 0 ∉ freeFrames s₀) :
    ∃ t', step t .alloc = some t' ∧ Shared s₀ t' := by
  unfold step
  rcases pmmAllocFrame_cases h.serving with ⟨_, hnull⟩ | ⟨frameIndex, ⟨hfree, _⟩, htake⟩
  · rw [hnull]
    exact ⟨_, rfl, h⟩
  · obtain ⟨haddr, hserving, htotal, hmem⟩ := pmmTakeFrame_spec h.serving hfree
    rw [htake]
    generalize pmmTakeFrame t.pmm frameIndex = result at haddr hserving htotal hmem ⊢
    obtain ⟨address, pmm⟩ := result
    have hne : address ≠ 0 := by
      rintro rfl
      apply hzero
      have h0 : frameIndex.toNat = 0 := by
        rw [UInt32.toNat_zero] at haddr
        omega
      rw [← h0]
      exact h.free _ hfree
    dsimp only at haddr hserving htotal hmem ⊢
    rw [if_neg hne]
    refine ⟨_, rfl, hserving, htotal.trans h.total, fun g hg => h.free g ((hmem g).mp hg).1, fun a => ?_⟩
    dsimp only
    rw [Finset.mem_insert, h.held]
    constructor
    · rintro (rfl | ⟨g, hg, hnot, ha⟩)
      · exact ⟨frameIndex.toNat, h.free _ hfree, fun hf => ((hmem _).mp hf).2 rfl, haddr⟩
      · exact ⟨g, hg, fun hf => hnot ((hmem g).mp hf).1, ha⟩
    · rintro ⟨g, hg, hnot, ha⟩
      by_cases hgf : g = frameIndex.toNat
      · refine Or.inl (UInt32.toNat_inj.mp ?_)
        rw [ha, haddr, hgf]
      · exact Or.inr ⟨g, hg, fun hf => hnot ((hmem g).mpr ⟨hf, hgf⟩), ha⟩

theorem Shared.release (h : Shared s₀ t) {address : UInt32} (hheld : address ∈ t.held) :
    ∃ t', step t (.free address) = some t' ∧ Shared s₀ t' := by
  obtain ⟨g, hg, hnot, haddr⟩ := (h.held address).mp hheld
  have hlt : g < t.pmm.pmmTotalFramesCount.toNat := by
    rw [h.total]
    exact (mem_freeFrames.mp hg).1
  obtain ⟨hserving, htotal, hmem⟩ := pmmFreeFrame_spec h.serving haddr hlt
  refine ⟨_, rfl, hserving, htotal.trans h.total, fun f hf => ?_, fun a => ?_⟩
  · rcases (hmem f).mp hf with hold | rfl
    · exact h.free f hold
    · exact hg
  · dsimp only
    rw [Finset.mem_erase, h.held]
    constructor
    · rintro ⟨hne, f, hf, hused, ha⟩
      refine ⟨f, hf, fun hfree => ?_, ha⟩
      rcases (hmem f).mp hfree with hold | rfl
      · exact hused hold
      · apply hne
        apply UInt32.toNat_inj.mp
        rw [ha, haddr]
    · rintro ⟨f, hf, hused, ha⟩
      refine ⟨?_, f, hf, fun hold => hused ((hmem f).mpr (Or.inl hold)), ha⟩
      rintro rfl
      exact hused ((hmem f).mpr (Or.inr (by omega)))

theorem Shared.step (h : Shared s₀ t) (hzero : 0 ∉ freeFrames s₀) {op : Op} (hok : CallerOk t op) :
    ∃ t', Pmm.step t op = some t' ∧ Shared s₀ t' := by
  cases op with
  | alloc => exact h.alloc hzero
  | free address => exact h.release hok

/-- What the callers rely on, in a state with the frames of `s₀`. -/
structure Safe (s₀ : State) (t : System) : Prop where
  total : t.pmm.pmmTotalFramesCount = s₀.pmmTotalFramesCount
  count : t.pmm.pmmFreeFramesCount.toNat = (freeFrames t.pmm).card
  tail : ∀ i, t.pmm.pmmTotalFramesCount.toNat ≤ i → i < 8 * t.pmm.bitmapBytes.length →
    bit t.pmm.bitmapBytes i = true
  returned : ∀ address s', pmmAllocFrame t.pmm = (address, s') → address ≠ 0 →
    address.toNat % 4096 = 0 ∧ address ∉ t.held ∧ address.toNat / 4096 ∈ freeFrames s₀
  null : (pmmAllocFrame t.pmm).1 = 0 ↔ ∀ g ∈ freeFrames s₀, UInt32.ofNat (g * 4096) ∈ t.held
  unchanged : (pmmAllocFrame t.pmm).1 = 0 → (pmmAllocFrame t.pmm).2 = t.pmm

theorem frame_address_toNat (h : Counted s₀) {g : Nat} (hg : g ∈ freeFrames s₀) :
    (UInt32.ofNat (g * 4096)).toNat = g * 4096 := by
  have hlt := (mem_freeFrames.mp hg).1
  have htotal := h.total
  exact UInt32.toNat_ofNat_of_lt' (show g * 4096 < 2 ^ 32 by omega)

theorem Shared.safe (h : Shared s₀ t) (hcounted : Counted s₀) (hzero : 0 ∉ freeFrames s₀) : Safe s₀ t := by
  have hcount := h.serving.counted
  rcases pmmAllocFrame_cases h.serving with ⟨hempty, hnull⟩ | ⟨frameIndex, ⟨hfree, _⟩, htake⟩
  · refine ⟨h.total, hcount.count, hcount.tail, ?_, ?_, ?_⟩
    · intro address s' hreturn hne
      rw [hnull] at hreturn
      exact absurd (Prod.mk.inj hreturn).1.symm hne
    · rw [hnull]
      refine iff_of_true rfl fun g hg => (h.held _).mpr ⟨g, hg, ?_, frame_address_toNat hcounted hg⟩
      rw [hempty]
      exact Finset.notMem_empty g
    · intro _
      rw [hnull]
  · obtain ⟨haddr, _⟩ := pmmTakeFrame_spec h.serving hfree
    have hpos : frameIndex.toNat ≠ 0 := by
      intro h0
      rw [h0] at hfree
      exact hzero (h.free 0 hfree)
    have hne : (pmmAllocFrame t.pmm).1 ≠ 0 := by
      rw [htake]
      intro h0
      rw [h0, UInt32.toNat_zero] at haddr
      omega
    refine ⟨h.total, hcount.count, hcount.tail, ?_, ?_, fun h0 => absurd h0 hne⟩
    · intro address s' hreturn _
      rw [htake] at hreturn
      rw [hreturn] at haddr
      dsimp only at haddr
      have hindex : address.toNat / 4096 = frameIndex.toNat := by omega
      refine ⟨by omega, fun hheld => ?_, ?_⟩
      · obtain ⟨g, _, hused, ha⟩ := (h.held address).mp hheld
        obtain rfl : g = frameIndex.toNat := by omega
        exact hused hfree
      · rw [hindex]
        exact h.free _ hfree
    · refine iff_of_false hne fun hall => ?_
      have hin := h.free _ hfree
      obtain ⟨g, _, hused, ha⟩ := (h.held _).mp (hall _ hin)
      rw [frame_address_toNat hcounted hin] at ha
      obtain rfl : g = frameIndex.toNat := by omega
      exact hused hfree

end runs

/-- After a completed `pmm_init`, in every state that calls with held addresses reach: the counter
counts the clear bits, the bits behind the last frame are set, a returned address is a frame that
was free at first and that nobody holds, and null is returned, without effect, exactly when all
those frames are held. -/
theorem frame_allocator_safe {boot : BootInfo} {kernelEnd : UInt32} {heap heap' : Heap.State} {s₀ : State}
    (hinit : pmmInit boot kernelEnd heap = some (s₀, heap')) (hready : s₀.pmmReady = true) (ops : List Op)
    (hcaller : Allowed step CallerOk ⟨s₀, ∅⟩ ops) :
    ∃ t, run step ⟨s₀, ∅⟩ ops = some t ∧ Safe s₀ t := by
  obtain ⟨_, _, hs⟩ := pmmInit_ready hinit hready
  obtain ⟨t, hrun, hshared⟩ :=
    run_invariant (fun _ _ h hok => h.step hs.zero_not_free hok) hs.shared hcaller
  exact ⟨t, hrun, hshared.safe hs.counted hs.zero_not_free⟩

theorem frame_allocator_safe_two_calls :
    ∃ s₀ heap', pmmInit plainMap 0x00200000 (Heap.heapInit 0x00200000 Heap.bootState) = some (s₀, heap') ∧
      s₀.pmmReady = true ∧ ∃ t, run step ⟨s₀, ∅⟩ [.alloc, .alloc] = some t ∧ Safe s₀ t := by
  obtain ⟨s₀, heap', hinit, hready⟩ := pmmInit_completes plainMap (show LinkedLow 0x00200000 by decide)
    Heap.bootState (by decide) (by decide) (by decide)
  exact ⟨s₀, heap', hinit, hready,
    frame_allocator_safe hinit hready _ ⟨trivial, fun _ _ => ⟨trivial, fun _ _ => trivial⟩⟩⟩

end TermobKernel.Pmm

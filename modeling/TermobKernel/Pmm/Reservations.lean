import TermobKernel.Pmm.System
import TermobKernel.Boot.Clipping

/-!
# Reserved frames

Which frames a completed `pmm_init` leaves free, for maps and blocks that end below the last page, and what
becomes of the reserved ones when callers may give back any address. `pmm_free_frame` looks at the alignment
and at the number of frames only: a reserved frame that is given back is on offer like any other, and some
later `pmm_alloc_frame` hands it out.
-/

namespace TermobKernel.Pmm
open Boot Bitmap Word Runs

variable {boot : BootInfo}

/-! ### The classification -/

/-- Frame `g` lies inside one range of type `AVAILABLE` and meets neither the first megabyte nor the kernel
image, rounded up to a frame, nor the heap nor the multiboot block. -/
def OnOffer (boot : BootInfo) (kernelEnd : UInt32) (g : Nat) : Prop :=
  Available boot g ∧ ¬Meets g 0 (2 ^ 20) ∧ ¬Meets g (2 ^ 20) ((kernelEnd.toNat + 4095) / 4096 * 4096) ∧
    ¬Meets g ((kernelEnd.toNat + 15) / 16 * 16) ((kernelEnd.toNat + 15) / 16 * 16 + 2 ^ 20) ∧
    ¬MeetsInfo boot g

instance (boot : BootInfo) (g : Nat) : Decidable (Available boot g) :=
  inferInstanceAs (Decidable (∃ r ∈ boot.memoryRanges, _))

instance (boot : BootInfo) (g : Nat) : Decidable (MeetsInfo boot g) :=
    inferInstanceAs (Decidable (Meets _ _ _))

instance (boot : BootInfo) (kernelEnd : UInt32) (g : Nat) : Decidable (OnOffer boot kernelEnd g) :=
  inferInstanceAs (Decidable (_ ∧ _ ∧ _ ∧ _ ∧ _))

theorem onOffer_iff {kernelEnd : UInt32} {g : Nat} :
    OnOffer boot kernelEnd g ↔ Available boot g ∧ ¬MeetsKernel kernelEnd g ∧ ¬MeetsInfo boot g := by
  have hround : Meets g (2 ^ 20) ((kernelEnd.toNat + 4095) / 4096 * 4096) ↔
      Meets g (2 ^ 20) kernelEnd.toNat := by
    unfold Meets
    omega
  rw [OnOffer, MeetsKernel, hround]
  tauto

theorem pmmInit_of_kcalloc {kernelEnd bitmap : UInt32} (hlow : LinkedLow kernelEnd)
    {heap heap' : Heap.State} (hheap : Heap.Reachable kernelEnd heap) (hboot : boot.ready = true)
    (hhigh : 4095 ≤ boot.highestUsableAddress.toNat)
    (hcalloc : Heap.kcalloc heap ((pmmTotalFramesFor boot.highestUsableAddress + 7) / 8) 1 =
      some (bitmap, heap'))
    (hbitmap : bitmap ≠ 0) :
    ∃ s, pmmInit boot kernelEnd heap = some (s, heap') ∧ s.pmmReady = true := by
  have hon : heap.heapReady = true := by
    rcases hheap.sound_or_lost hlow.fits with ⟨_, bs, hrep⟩ | hlost
    · exact hrep.phys.region.ready
    · rcases hlost.1.kcalloc_null ((pmmTotalFramesFor boot.highestUsableAddress + 7) / 8) 1 with hk | hk
      · rw [hk] at hcalloc
        exact absurd (Prod.mk.inj (Option.some.inj hcalloc)).1.symm hbitmap
      · rw [hk] at hcalloc
        exact absurd (Prod.mk.inj (Option.some.inj hcalloc)).1.symm hbitmap
  unfold pmmInit
  rw [if_neg (by simp [hboot, hon]), if_neg (by
    rw [UInt32.lt_iff_toNat_lt]
    exact Nat.not_lt.mpr hhigh)]
  dsimp only
  rw [hcalloc]
  exact ⟨_, if_neg hbitmap, rfl⟩

/-- For every stored map: when the available ranges, the heap and the multiboot block end below the
last page and the bitmap can be allocated, the free frames are those on offer, and the counter is
their number. -/
theorem frames_classified {boot : BootInfo} {kernelEnd bitmap : UInt32} {heap heap' : Heap.State}
    (hlow : LinkedLow kernelEnd) (hheap : Heap.Reachable kernelEnd heap) (infoAddress infoSize : UInt32)
    (entries : List MmapEntry) (hboot : boot = bootinfoStored infoAddress infoSize entries)
    (hranges : ∀ r ∈ boot.memoryRanges, r.type = memoryTypeAvailable → r.stop ≤ lastPage)
    (hinfo : infoStop boot ≤ lastPage) (hhigh : 4095 ≤ boot.highestUsableAddress.toNat)
    (hcalloc : Heap.kcalloc heap ((pmmTotalFramesFor boot.highestUsableAddress + 7) / 8) 1 =
      some (bitmap, heap'))
    (hbitmap : bitmap ≠ 0) :
    ∃ s, pmmInit boot kernelEnd heap = some (s, heap') ∧ s.pmmReady = true ∧
      (∀ g < s.pmmTotalFramesCount.toNat, g ∈ freeFrames s ↔ OnOffer boot kernelEnd g) ∧
      s.pmmFreeFramesCount.toNat =
        ((Finset.range s.pmmTotalFramesCount.toNat).filter (OnOffer boot kernelEnd)).card := by
  have hvalid : boot.ready = true := by
    subst hboot
    exact bootinfoStored_ready (by omega)
  have htable : TableOk boot := hboot ▸ bootinfoStored_tableOk infoAddress infoSize entries
  obtain ⟨s, hinit, hready⟩ := pmmInit_of_kcalloc hlow hheap hvalid hhigh hcalloc hbitmap
  obtain ⟨_, _, hs⟩ := pmmInit_ready hinit hready
  have hno : ¬StartsInLastPage boot := by
    rintro ⟨r, hr, htype, hstart⟩
    have hstop := hranges r hr htype
    unfold MemoryRange.stop at hstop
    omega
  have hbelow : ∀ g, Available boot g → g < 0xFFFFF := by
    rintro g ⟨r, hr, htype, _, hin⟩
    have hstop := hranges r hr htype
    unfold lastPage at hstop
    omega
  have hfree : ∀ g, g ∈ freeFrames s ↔ OnOffer boot kernelEnd g := by
    intro g
    rw [free_iff hlow hheap htable hinit hready, onOffer_iff]
    constructor
    · rintro ⟨_, havail | hstarts, hkernel, hblock⟩
      · exact ⟨havail, hkernel, fun h => hblock ⟨hinfo, h⟩⟩
      · exact absurd hstarts hno
    · rintro ⟨havail, hkernel, hblock⟩
      exact ⟨hbelow g havail, Or.inl havail, hkernel, fun h => hblock h.2⟩
  refine ⟨s, hinit, hready, fun g _ => hfree g, ?_⟩
  rw [hs.counted.count]
  congr 1
  ext g
  rw [Finset.mem_filter, Finset.mem_range, ← hfree]
  exact ⟨fun hg => ⟨(mem_freeFrames.mp hg).1, hg⟩, And.right⟩

theorem frames_classified_plain_map :
    ∃ s heap', pmmInit plainMap 0x00200000 (Heap.heapInit 0x00200000 Heap.bootState) = some (s, heap') ∧
      s.pmmReady = true ∧
      (∀ g < s.pmmTotalFramesCount.toNat, g ∈ freeFrames s ↔ OnOffer plainMap 0x00200000 g) ∧
      s.pmmFreeFramesCount.toNat =
        ((Finset.range s.pmmTotalFramesCount.toNat).filter (OnOffer plainMap 0x00200000)).card := by
  obtain ⟨s, heap', hinit, hready⟩ := pmmInit_completes plainMap (show LinkedLow 0x00200000 by decide)
    Heap.bootState (by decide) (by decide) (by decide)
  obtain ⟨hcalloc, hbitmap, hs⟩ := pmmInit_ready hinit hready
  rw [hs.total] at hcalloc
  have hranges : plainMap.memoryRanges = [⟨0x00200000, 0x07E00000, 1⟩] := by decide
  obtain ⟨s', hinit', hall⟩ := frames_classified (show LinkedLow 0x00200000 by decide) Heap.reachable_init
    0x00010000 0x1000 [⟨0x00200000, 0x07E00000, 1⟩] rfl (by
      intro r hr _
      rw [show bootinfoStored 0x00010000 0x1000 [⟨0x00200000, 0x07E00000, 1⟩] = plainMap from rfl, hranges,
        List.mem_singleton] at hr
      subst hr
      decide) (by decide) (by decide) hcalloc hbitmap
  exact ⟨s', heap', hinit', hall⟩

/-! ### Giving back any address -/

def call (s : State) : Op → Option State
  | .alloc => some (pmmAllocFrame s).2
  | .free address => some (pmmFreeFrame s address)

/-- What `pmm_alloc_frame` returns is no frame of the protected regions, and null means that no
frame is free and changes neither the bitmap nor the counter. -/
structure AllocSafe (kernelEnd : UInt32) (s : State) : Prop where
  returned : (pmmAllocFrame s).1 ≠ 0 → ¬MeetsKernel kernelEnd ((pmmAllocFrame s).1.toNat / 4096)
  null : (pmmAllocFrame s).1 = 0 → freeFrames s = ∅ ∧ (pmmAllocFrame s).2.bitmapBytes = s.bitmapBytes ∧
    (pmmAllocFrame s).2.pmmFreeFramesCount = s.pmmFreeFramesCount

/-- The call is not one of an unsafe `pmm_alloc_frame`. -/
def CallSafe (kernelEnd : UInt32) (s : State) (op : Op) : Prop := op = .alloc → AllocSafe kernelEnd s

/-- The address is that of a protected frame below the number of frames. -/
def FreesProtected (kernelEnd total address : UInt32) : Prop :=
  address.toNat % 4096 = 0 ∧ address.toNat / 4096 < total.toNat ∧
    MeetsKernel kernelEnd (address.toNat / 4096)

section calls
variable {s : State} {kernelEnd : UInt32}
variable {total : UInt32} {g : Nat}

theorem pmmFreeFrame_any (h : Serving s) (address : UInt32) :
    Serving (pmmFreeFrame s address) ∧ (pmmFreeFrame s address).pmmTotalFramesCount =
      s.pmmTotalFramesCount ∧ ∀ f, f ∈ freeFrames (pmmFreeFrame s address) ↔
        f ∈ freeFrames s ∨ (address.toNat = f * 4096 ∧ f < s.pmmTotalFramesCount.toNat) := by
  by_cases hin : address.toNat % 4096 = 0 ∧ address.toNat / 4096 < s.pmmTotalFramesCount.toNat
  · obtain ⟨haligned, hlt⟩ := hin
    have haddr : address.toNat = address.toNat / 4096 * 4096 := by omega
    obtain ⟨hserving, htotal, hmem⟩ := pmmFreeFrame_spec h haddr hlt
    refine ⟨hserving, htotal, fun f => (hmem f).trans (or_congr_right ?_)⟩
    constructor
    · rintro rfl
      exact ⟨haddr, hlt⟩
    · rintro ⟨hf, _⟩
      omega
  · have hsame : pmmFreeFrame s address = s := by
      unfold pmmFreeFrame
      by_cases haligned : address &&& (pmmFrameSize - 1) = 0
      · have hmod : address.toNat % 4096 = 0 := by
          rw [← UInt32.toNat_inj, show pmmFrameSize - 1 = UInt32.ofNat (2 ^ 12 - 1) from rfl,
            toNat_and_mask _ 12 (by omega), UInt32.toNat_zero] at haligned
          exact haligned
        rw [if_neg (by simp [h.ready, haligned])]
        dsimp only
        rw [if_pos]
        rw [ge_iff_le, UInt32.le_iff_toNat_le, UInt32.toNat_div, frameSize_toNat]
        omega
      · rw [if_pos (Or.inr haligned)]
    rw [hsame]
    refine ⟨h, rfl, fun f => ⟨Or.inl, ?_⟩⟩
    rintro (hf | ⟨hf, hlt⟩)
    · exact hf
    · omega

theorem Serving.call (h : Serving s) (op : Op) :
    ∃ s', Pmm.call s op = some s' ∧ Serving s' ∧ s'.pmmTotalFramesCount = s.pmmTotalFramesCount := by
  cases op with
  | alloc =>
    rcases pmmAllocFrame_spec h with ⟨_, hnull⟩ | ⟨_, _, _, hserving, htotal, _⟩
    · refine ⟨_, rfl, ?_⟩
      rw [hnull]
      exact ⟨h, rfl⟩
    · exact ⟨_, rfl, hserving, htotal⟩
  | free address =>
    obtain ⟨hserving, htotal, _⟩ := pmmFreeFrame_any h address
    exact ⟨_, rfl, hserving, htotal⟩

/-! ### Safe calls -/

/-- No protected frame is free. -/
structure Guarded (kernelEnd total : UInt32) (s : State) : Prop where
  serving : Serving s
  total : s.pmmTotalFramesCount = total
  free : ∀ g ∈ freeFrames s, ¬MeetsKernel kernelEnd g

theorem Guarded.allocSafe (h : Guarded kernelEnd total s) : AllocSafe kernelEnd s := by
  rcases pmmAllocFrame_spec h.serving with ⟨hempty, hnull⟩ | ⟨g, ⟨hg, _⟩, haddr, _⟩
  · refine ⟨fun hne => absurd (congrArg Prod.fst hnull) hne, fun _ => ?_⟩
    rw [hnull]
    exact ⟨hempty, rfl, rfl⟩
  · have hkernel := h.free g hg
    have hpos : 0 < g := by
      apply Nat.pos_of_ne_zero
      rintro rfl
      exact hkernel (Or.inl (by unfold Meets; omega))
    refine ⟨fun _ => ?_, fun hnull => ?_⟩
    · rw [haddr, Nat.mul_div_cancel g (by omega)]
      exact hkernel
    · rw [hnull, UInt32.toNat_zero] at haddr
      omega

theorem Guarded.call (h : Guarded kernelEnd total s) {op : Op}
    (hop : ∀ address, op = .free address → ¬FreesProtected kernelEnd total address) :
    ∃ s', Pmm.call s op = some s' ∧ Guarded kernelEnd total s' := by
  obtain ⟨s', hcall, hserving, htotal⟩ := h.serving.call op
  refine ⟨s', hcall, hserving, htotal.trans h.total, ?_⟩
  cases op with
  | alloc =>
    obtain rfl := Option.some.inj hcall
    rcases pmmAllocFrame_spec h.serving with ⟨_, hnull⟩ | ⟨_, _, _, _, _, _, herase⟩
    · rw [hnull]
      exact h.free
    · intro g hg
      rw [herase] at hg
      exact h.free g (Finset.mem_of_mem_erase hg)
  | free address =>
    obtain rfl := Option.some.inj hcall
    intro g hg hkernel
    rcases ((pmmFreeFrame_any h.serving address).2.2 g).mp hg with hold | ⟨haddr, hlt⟩
    · exact h.free g hold hkernel
    · have hindex : address.toNat / 4096 = g := by omega
      rw [h.total] at hlt
      exact hop address rfl ⟨by omega, by omega, hindex ▸ hkernel⟩

theorem Guarded.allowed {ops : List Op} (h : Guarded kernelEnd total s)
    (hops : ∀ address, .free address ∈ ops → ¬FreesProtected kernelEnd total address) :
    Allowed Pmm.call (CallSafe kernelEnd) s ops := by
  induction ops generalizing s with
  | nil => trivial
  | cons op ops ih =>
    obtain ⟨s', hcall, hguarded⟩ := h.call fun address heq => hops address (heq ▸ List.mem_cons_self)
    refine ⟨fun _ => h.allocSafe, fun t ht => ?_⟩
    rw [hcall] at ht
    obtain rfl := Option.some.inj ht
    exact ih hguarded fun address hmem => hops address (List.mem_cons_of_mem _ hmem)

/-! ### A protected frame on offer -/

/-- The protected frame `g` is free. -/
structure Exposed (kernelEnd : UInt32) (g : Nat) (s : State) : Prop where
  serving : Serving s
  kernel : MeetsKernel kernelEnd g
  free : g ∈ freeFrames s

theorem Exposed.alloc (h : Exposed kernelEnd g s) (hsafe : AllocSafe kernelEnd s) :
    Exposed kernelEnd g (pmmAllocFrame s).2 ∧
      (freeFrames (pmmAllocFrame s).2).card + 1 = (freeFrames s).card := by
  rcases pmmAllocFrame_spec h.serving with ⟨hempty, _⟩ | ⟨f, ⟨hf, _⟩, haddr, hserving, _, _, herase⟩
  · have hfree := h.free
    rw [hempty] at hfree
    exact absurd hfree (Finset.notMem_empty g)
  · have hne : g ≠ f := by
      rintro rfl
      by_cases hnull : (pmmAllocFrame s).1 = 0
      · have hfree := h.free
        rw [(hsafe.null hnull).1] at hfree
        exact Finset.notMem_empty _ hfree
      · apply hsafe.returned hnull
        rw [haddr, Nat.mul_div_cancel g (by omega)]
        exact h.kernel
    rw [herase]
    refine ⟨⟨hserving, h.kernel, ?_⟩, Finset.card_erase_add_one hf⟩
    rw [herase]
    exact Finset.mem_erase.mpr ⟨hne, h.free⟩

theorem Exposed.call (h : Exposed kernelEnd g s) {op : Op} (hsafe : CallSafe kernelEnd s op) :
    ∃ s', Pmm.call s op = some s' ∧ Exposed kernelEnd g s' := by
  cases op with
  | alloc => exact ⟨_, rfl, (h.alloc (hsafe rfl)).1⟩
  | free address =>
    obtain ⟨hserving, _, hmem⟩ := pmmFreeFrame_any h.serving address
    exact ⟨_, rfl, hserving, h.kernel, (hmem g).mpr (Or.inl h.free)⟩

theorem exposed_of_free (h : Serving s) {ops : List Op} {address : UInt32} (hmem : .free address ∈ ops)
    (hfrees : FreesProtected kernelEnd s.pmmTotalFramesCount address)
    (hsafe : Allowed Pmm.call (CallSafe kernelEnd) s ops) :
    ∃ s', run Pmm.call s ops = some s' ∧ Exposed kernelEnd (address.toNat / 4096) s' := by
  induction ops generalizing s with
  | nil => cases hmem
  | cons op ops ih =>
    obtain ⟨s', hcall, hserving, htotal⟩ := h.call op
    rw [run, hcall, Option.bind_some]
    rcases List.mem_cons.mp hmem with rfl | hmem
    · obtain ⟨haligned, hlt, hkernel⟩ := hfrees
      have hexposed : Exposed kernelEnd (address.toNat / 4096) s' := by
        refine ⟨hserving, hkernel, ?_⟩
        obtain rfl := Option.some.inj hcall
        exact ((pmmFreeFrame_any h address).2.2 _).mpr (Or.inr ⟨by omega, hlt⟩)
      exact run_invariant (fun _ _ hx hok => hx.call hok) hexposed (hsafe.2 s' hcall)
    · exact ih hserving hmem (htotal ▸ hfrees) (hsafe.2 s' hcall)

theorem Exposed.allocs_le (h : Exposed kernelEnd g s) {n : Nat}
    (hsafe : Allowed Pmm.call (CallSafe kernelEnd) s (List.replicate n .alloc)) :
    n ≤ (freeFrames s).card := by
  induction n generalizing s with
  | zero => exact Nat.zero_le _
  | succ n ih =>
    rw [List.replicate_succ] at hsafe
    obtain ⟨hexposed, hcard⟩ := h.alloc (hsafe.1 rfl)
    have hrest := ih hexposed (hsafe.2 _ rfl)
    omega

end calls

/-- After a completed `pmm_init` and any calls: every allocation among them and among any number of
further ones is safe, exactly when none of the calls has given back a protected frame. -/
theorem bad_frees_harmless_iff {boot : BootInfo} {kernelEnd : UInt32} {heap heap' : Heap.State} {s₀ : State}
    (hlow : LinkedLow kernelEnd) (hheap : Heap.Reachable kernelEnd heap)
    (hinit : pmmInit boot kernelEnd heap = some (s₀, heap')) (hready : s₀.pmmReady = true) (ops : List Op) :
    (∀ n, Allowed call (CallSafe kernelEnd) s₀ (ops ++ List.replicate n .alloc)) ↔
      ∀ address, .free address ∈ ops → ¬FreesProtected kernelEnd s₀.pmmTotalFramesCount address := by
  obtain ⟨_, _, hs⟩ := pmmInit_ready hinit hready
  have hserving : Serving s₀ := hs.shared.serving
  constructor
  · intro hall address hmem hfrees
    have hops : Allowed call (CallSafe kernelEnd) s₀ ops := by
      have h0 := hall 0
      rwa [List.replicate_zero, List.append_nil] at h0
    obtain ⟨s', hrun, hexposed⟩ := exposed_of_free hserving hmem hfrees hops
    -- one allocation more than there are free frames
    have hmore := (hall ((freeFrames s').card + 1)).drop (k := ops.length) (by rwa [List.take_left' rfl])
    rw [List.drop_left' rfl] at hmore
    have := hexposed.allocs_le hmore
    omega
  · intro hops n
    have hguarded : Guarded kernelEnd s₀.pmmTotalFramesCount s₀ := by
      refine ⟨hserving, rfl, fun g hg hkernel => ?_⟩
      exact ((hs.free g).mp hg).2 ((initReserves_iff hlow hheap hinit hready g).mpr (Or.inl hkernel))
    apply hguarded.allowed
    intro address hmem
    rcases List.mem_append.mp hmem with hmem | hmem
    · exact hops address hmem
    · cases List.eq_of_mem_replicate hmem

theorem bad_frees_harmless_plain_map :
    ∃ s₀ heap', pmmInit plainMap 0x00200000 (Heap.heapInit 0x00200000 Heap.bootState) = some (s₀, heap') ∧
      s₀.pmmReady = true ∧
      ∀ n, Allowed call (CallSafe 0x00200000) s₀
      ([.alloc, .free 0x00400123] ++ List.replicate n .alloc) := by
  obtain ⟨s₀, heap', hinit, hready⟩ := pmmInit_completes plainMap (show LinkedLow 0x00200000 by decide)
    Heap.bootState (by decide) (by decide) (by decide)
  refine ⟨s₀, heap', hinit, hready,
    (bad_frees_harmless_iff (by decide) Heap.reachable_init hinit hready _).mpr
      fun address hmem hfrees => ?_⟩
  obtain rfl : address = 0x00400123 := by simpa using hmem
  exact absurd hfrees.1 (by decide)

theorem pmmFreeFrame_next_le (s : State) (address : UInt32) :
    (pmmFreeFrame s address).pmmNextSearchFrame ≤ s.pmmNextSearchFrame := by
  have hmark : ∀ frameIndex, (pmmMarkFrameFree s frameIndex).pmmNextSearchFrame = s.pmmNextSearchFrame := by
    intro frameIndex
    unfold pmmMarkFrameFree
    split
    · rfl
    · rfl
  unfold pmmFreeFrame
  split
  · exact UInt32.le_refl _
  · dsimp only
    split
    · exact UInt32.le_refl _
    · split
      · rename_i hback
        rw [hmark] at hback
        exact UInt32.le_of_lt hback
      · rw [hmark]
        exact UInt32.le_refl _

/-- After `pmm_init` the search starts at the first frame, so that the lowest frame given back is
found first. -/
theorem Initialised.freed_low_returned {kernelEnd heapStart heapEnd address : UInt32} {s₀ : State}
    (hs : Initialised boot kernelEnd heapStart heapEnd s₀) {g : Nat} (haddr : address.toNat = g * 4096)
    (hlt : g < s₀.pmmTotalFramesCount.toNat) (hlow : ∀ f ∈ freeFrames s₀, g ≤ f) :
    (pmmAllocFrame (pmmFreeFrame s₀ address)).1 = address ∧ g ∈ freeFrames (pmmFreeFrame s₀ address) := by
  have hserving : Serving s₀ := hs.shared.serving
  obtain ⟨hserving', _, hmem⟩ := pmmFreeFrame_spec hserving haddr hlt
  have hfree : g ∈ freeFrames (pmmFreeFrame s₀ address) := (hmem g).mpr (Or.inr rfl)
  refine ⟨?_, hfree⟩
  have hnext : (pmmFreeFrame s₀ address).pmmNextSearchFrame.toNat = 0 := by
    have hle := pmmFreeFrame_next_le s₀ address
    rw [hs.next, UInt32.le_iff_toNat_le, UInt32.toNat_zero] at hle
    omega
  rcases pmmAllocFrame_spec hserving' with ⟨hempty, _⟩ | ⟨f, ⟨hf, hfirst⟩, hreturn, _⟩
  · rw [hempty] at hfree
    exact absurd hfree (Finset.notMem_empty g)
  · have hfg : f ≤ g := by
      rcases hfirst with ⟨_, hleast⟩ | hall
      · exact hleast g hfree (by omega)
      · exact (hall g hfree).1
    have hgf : g ≤ f := by
      rcases (hmem f).mp hf with hold | rfl
      · exact hlow f hold
      · exact le_rfl
    apply UInt32.toNat_inj.mp
    rw [hreturn, haddr, le_antisymm hfg hgf]

/-- Giving back the address 0x1000, which nobody was given, lets the next allocation return it.
After giving back the address zero the next allocation returns null although a frame is free. -/
theorem freed_low_frame_returned :
    ∃ s₀ heap', pmmInit plainMap 0x00200000 (Heap.heapInit 0x00200000 Heap.bootState) = some (s₀, heap') ∧
      s₀.pmmReady = true ∧
      ((pmmAllocFrame (pmmFreeFrame s₀ 0x1000)).1 = 0x1000 ∧ MeetsKernel 0x00200000 (0x1000 / 4096)) ∧
      ((pmmAllocFrame (pmmFreeFrame s₀ 0)).1 = 0 ∧ freeFrames (pmmFreeFrame s₀ 0) ≠ ∅) := by
  obtain ⟨s₀, heap', hinit, hready⟩ := pmmInit_completes plainMap (show LinkedLow 0x00200000 by decide)
    Heap.bootState (by decide) (by decide) (by decide)
  obtain ⟨_, _, hs⟩ := pmmInit_ready hinit hready
  have htotal : s₀.pmmTotalFramesCount.toNat = 0x8000 := by
    rw [hs.total]
    decide
  have hpos : ∀ f ∈ freeFrames s₀, 1 ≤ f := by
    intro f hf
    apply Nat.pos_of_ne_zero
    rintro rfl
    exact hs.zero_not_free hf
  have hone := hs.freed_low_returned (show (0x1000 : UInt32).toNat = 1 * 4096 from rfl) (by omega) hpos
  have hzero := hs.freed_low_returned (show (0 : UInt32).toNat = 0 * 4096 from rfl)
    (by omega) fun f _ => Nat.zero_le f
  exact ⟨s₀, heap', hinit, hready, ⟨hone.1, Or.inl (by decide)⟩, hzero.1, Finset.ne_empty_of_mem hzero.2⟩

end TermobKernel.Pmm

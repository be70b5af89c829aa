import TermobKernel.Heap.Release

/-!
# Setting up the heap and allocating from it

`heap_init` leaves one free block over the whole region, and `kmalloc` is first fit along the free list,
with the rest of the block split off where a header and one alignment unit fit behind the request.
-/

namespace TermobKernel.Heap
open Word Dll

variable {kernelEnd : UInt32} {s : State} {size : UInt32}

theorem heapAlignUp_toNat (value : UInt32) :
    (heapAlignUp value heapAlignment).toNat = (value.toNat + 15) % 2 ^ 32 / 16 * 16 := by
  unfold heapAlignUp
  rw [show heapAlignment - 1 = UInt32.ofNat (2 ^ 4 - 1) from rfl, toNat_and_not_mask _ 4 (by omega),
    UInt32.toNat_add]
  rfl

theorem heapAlignUp_mod (value : UInt32) : (heapAlignUp value heapAlignment).toNat % 16 = 0 := by
  rw [heapAlignUp_toNat]
  omega

/-! ### `heap_init` -/

/-- The image ends above address zero, and 1 MiB fits behind it below the end of the address space. -/
def HeapFits (kernelEnd : UInt32) : Prop :=
  0 < kernelEnd.toNat ∧ (kernelEnd.toNat + 15) / 16 * 16 + 2 ^ 20 < 2 ^ 32

instance (kernelEnd : UInt32) : Decidable (HeapFits kernelEnd) := inferInstanceAs (Decidable (_ ∧ _))

theorem HeapFits.start_toNat (h : HeapFits kernelEnd) :
    (heapAlignUp kernelEnd heapAlignment).toNat = (kernelEnd.toNat + 15) / 16 * 16 := by
  have h2 := h.2
  rw [heapAlignUp_toNat]
  omega

def initialBlock (kernelEnd : UInt32) : Block := ⟨heapAlignUp kernelEnd heapAlignment, 1048544, true⟩

theorem heapInit_eq (h : HeapFits kernelEnd) (s : State) :
    heapInit kernelEnd s =
      { heapInitializeBlock
          { s with
            heapStartPtr := heapAlignUp kernelEnd heapAlignment
            heapEndPtr := heapAlignUp kernelEnd heapAlignment + heapSizeBytes
            heapFirstBlock := 0
            heapFreeList := 0
            heapReady := false
            heapDiagErrorCount := 0
            heapDiagErrorFlags := 0
            heapDiagLastErrorMessage := "none" }
          (heapAlignUp kernelEnd heapAlignment) 1048544 0 0 true with
        heapFirstBlock := heapAlignUp kernelEnd heapAlignment
        heapFreeList := heapAlignUp kernelEnd heapAlignment
        heapReady := true } := by
  have hstart := h.start_toNat
  have h2 := h.2
  unfold heapInit
  generalize heapAlignUp kernelEnd heapAlignment = start at hstart ⊢
  have hend : (start + heapSizeBytes).toNat = start.toNat + 2 ^ 20 := by
    rw [toNat_add_of_lt (by rw [hstart]; exact h2)]
    rfl
  have hpay : (start + heapHeaderSize).toNat = start.toNat + 32 := by
    rw [toNat_add_of_lt (by rw [heapHeaderSize_toNat]; omega), heapHeaderSize_toNat]
  have hlarge : ¬start + heapSizeBytes ≤ start + heapHeaderSize := by
    rw [UInt32.le_iff_toNat_le, hend, hpay]
    omega
  have hsize : start + heapSizeBytes - start - heapHeaderSize = 1048544 := by
    rw [UInt32.add_comm, UInt32.add_sub_cancel]
    rfl
  have hround : heapAlignUp 1048544 heapAlignment = 1048544 := by decide
  have hstop : ¬start + heapHeaderSize + 1048544 > start + heapSizeBytes := by
    rw [UInt32.add_assoc]
    exact UInt32.lt_irrefl _
  simp only [if_neg hlarge, hsize, hround, if_neg hstop]

theorem heapInit_rep (h : HeapFits kernelEnd) (s : State) :
    Rep (heapInit kernelEnd s) [initialBlock kernelEnd] := by
  have hstart := h.start_toNat
  obtain ⟨h1, h2⟩ := h
  have hD : Spread (· = heapAlignUp kernelEnd heapAlignment) := fun a b ha hb => Or.inl (ha.trans hb.symm)
  rw [heapInit_eq ⟨h1, h2⟩]
  unfold initialBlock
  generalize heapAlignUp kernelEnd heapAlignment = start at hstart hD ⊢
  generalize hs0 : ({ s with
    heapStartPtr := start, heapEndPtr := start + heapSizeBytes, heapFirstBlock := 0, heapFreeList := 0,
    heapReady := false, heapDiagErrorCount := 0, heapDiagErrorFlags := 0,
    heapDiagLastErrorMessage := "none" } : State) = s0
  obtain ⟨hst, _⟩ := heapInitializeBlock_statics s0 start 1048544 0 0 true
  have hword : ∀ f, (heapInitializeBlock s0 start 1048544 0 0 true).get f start =
      initialWord 1048544 0 0 true f := by
    intro f
    rw [heapInitializeBlock_get hD s0 rfl 1048544 0 0 true f rfl, if_pos rfl]
  have hlo : (heapInitializeBlock s0 start 1048544 0 0 true).heapStartPtr = start := by
    rw [statics_start hst, ← hs0]
  have hhi : (heapInitializeBlock s0 start 1048544 0 0 true).heapEndPtr = start + heapSizeBytes := by
    rw [statics_end hst, ← hs0]
  have hend : (start + heapSizeBytes).toNat = start.toNat + 2 ^ 20 := by
    rw [toNat_add_of_lt (by rw [hstart]; exact h2)]
    rfl
  have hpayload : (1048544 : UInt32).toNat = 1048544 := by decide
  have hmod : (1048544 : UInt32).toNat % 16 = 0 := by decide
  have hne : (0 : UInt32) ≠ start := by
    intro e
    rw [← e, UInt32.toNat_zero] at hstart
    omega
  generalize heapInitializeBlock s0 start 1048544 0 0 true = t at *
  have hlist : ∀ L : Links UInt32, L.head = start → L.next start = 0 → L.prev start = 0 →
  IsList 0 L [start] :=
    fun L hh hn hp => ⟨hh, ⟨hp, hn, trivial⟩, by simp, by simpa using hne⟩
  refine ⟨⟨⟨rfl, ?_, ?_, ?_⟩, ?_, ?_, ?_⟩, ?_, List.isChain_singleton _⟩
  · simp only [hlo]
    omega
  · simp only [hlo]
    omega
  · simp only [hlo, hhi]
    exact hend
  · simp only [hlo, hhi, hend]
    refine ⟨rfl, hmod, ?_⟩
    simp only [Tiles, Block.stop, hpayload]
    omega
  · exact hlist _ rfl (hword .nextPhys) (hword .prevPhys)
  · intro b hb
    obtain rfl := List.mem_singleton.mp hb
    refine ⟨hword .magic, hword .sizeBytes, ?_⟩
    exact heapBlockIsFree_or _ _ 0 (hword .flags)
  · exact hlist _ rfl (hword .nextFree) (hword .prevFree)

/-! ### `kmalloc` -/

/-- What becomes of the block that serves a request. -/
def taken (b : Block) (size : UInt32) : List Block :=
  if size.toNat + 48 ≤ b.size.toNat then [{ splitFront b size with free := false }, splitBack b size]
  else [{ b with free := false }]

def served (b : Block) (size : UInt32) : Block :=
  if size.toNat + 48 ≤ b.size.toNat then { splitFront b size with free := false } else { b with
      free := false }

theorem served_free (b : Block) (size : UInt32) : (served b size).free = false := by
  unfold served
  split <;> rfl

theorem served_addr (b : Block) (size : UInt32) : (served b size).addr = b.addr := by
  unfold served
  split <;> rfl

theorem served_size {b : Block} (h : size ≤ b.size) :
    size ≤ (served b size).size ∧ (served b size).size ≤ b.size := by
  unfold served
  split
  · exact ⟨UInt32.le_refl size, h⟩
  · exact ⟨h, UInt32.le_refl b.size⟩

theorem used_taken (b : Block) (size : UInt32) (ys : List Block) :
    used (taken b size ++ ys) = served b size :: used ys := by
  unfold taken served
  split
  · rfl
  · rfl

theorem heapSplitBlock_whole {block size : UInt32} (hle : size ≤ s.get .sizeBytes block)
    (hsmall : ¬size.toNat + 48 ≤ (s.get .sizeBytes block).toNat) :
    heapSplitBlock s block size = (0, s) := by
  have hcan : heapCanSplitBlock s block size = false := by
    unfold heapCanSplitBlock
    split
    · rfl
    · rw [UInt32.le_iff_toNat_le] at hle
      rw [show heapHeaderSize + heapMinSplitBytes = 48 from by decide, decide_eq_false_iff_not, ge_iff_le,
        UInt32.le_iff_toNat_le, toNat_sub_of_le hle]
      change ¬48 ≤ _
      omega
  rw [heapSplitBlock, if_pos hcan]

theorem kmallocTake_spec {xs ys : List Block} {b : Block} (h : Rep s (xs ++ b :: ys))
    (hb : b.free = true) (hle : size ≤ b.size) (hsize : size.toNat % 16 = 0) :
    ∃ s', kmallocTake s b.addr size = some (heapBlockPayloadAddress b.addr, s') ∧
      Rep s' (xs ++ (taken b size ++ ys)) ∧ Kept (· ∈ addrs (xs ++ b :: ys)) s s' := by
  have hmem : b ∈ xs ++ b :: ys := by simp
  have hl : IsList 0 (freeLinks s) (freeAddrs xs ++ b.addr :: freeAddrs ys) := by
    have := h.listed
    rwa [freeAddrs_append, freeAddrs_cons_free hb] at this
  have hsub : ∀ a ∈ freeAddrs xs ++ b.addr :: freeAddrs ys, a ∈ addrs (xs ++ b :: ys) := by
    intro a ha
    simp only [addrs_append, addrs_cons, List.mem_append, List.mem_cons] at ha ⊢
    exact ha.imp mem_addrs_of_freeAddrs (Or.imp_right mem_addrs_of_freeAddrs)
  have hsub' : ∀ a ∈ freeAddrs xs ++ freeAddrs ys, a ∈ addrs (xs ++ b :: ys) := by
    intro a ha
    exact hsub a (List.mem_append.mpr ((List.mem_append.mp ha).imp_right (List.mem_cons_of_mem _)))
  obtain ⟨hx, hby⟩ := Coalesced.of_append h.coalesced
  have hyhead : ∀ c ∈ ys.head?, c.free = false := by
    intro c hc
    have hpair := (List.isChain_cons.mp hby).1 c hc
    simpa [hb] using hpair
  obtain ⟨hl1, hf1⟩ := heapRemoveFreeBlock_spec h.phys.spread hl hsub
  have h1 := h.phys.frame hf1
  have hget := (h1.header b hmem).size
  unfold kmallocTake
  generalize heapRemoveFreeBlock s b.addr = s1 at *
  by_cases hfit : size.toNat + 48 ≤ b.size.toNat
  · obtain ⟨s2, hs2, h2, hhead2, hf2⟩ := heapSplitBlock_spec h1 hfit hsize
    have hl2 := isList_frame_free hl1 hf2 hhead2 hsub' (by simp) (by simp)
    have h2' : Phys s2 ((xs ++ [splitFront b size]) ++ splitBack b size :: ys) := by simpa using h2
    obtain ⟨s3, hs3, h3, hl3, hst3⟩ := heapInsertFreeBlock_phys h2' hl2
      (fun u hu => by simp [mem_addrs_of_freeAddrs hu]) (fun v hv => mem_addrs_of_freeAddrs hv)
    have h3' : Phys s3 (xs ++ splitFront b size :: splitBack b size :: ys) := by
      rw [List.append_assoc] at h3
      exact h3
    obtain ⟨h4, hf4, hk4⟩ := heapMarkBlockUsed_phys h3'
    have hne : (splitBack b size).addr ≠ 0 := h2.addr_ne_zero (by simp)
    have hl4 := isList_frame_free hl3 hf4 rfl (fun a ha => by
      simp only [addrs_append, addrs_cons, List.mem_append, List.mem_cons] at ha ⊢
      rcases ha with ha | ha | ha
      · exact Or.inl (mem_addrs_of_freeAddrs ha)
      · exact Or.inr (Or.inr (Or.inl ha))
      · exact Or.inr (Or.inr (Or.inr (mem_addrs_of_freeAddrs ha)))) (by simp) (by simp)
    refine ⟨heapMarkBlockUsed s3 b.addr, ?_, ⟨?_, ?_, ?_⟩, ?_⟩
    · simp only [hs2, if_pos hne, hs3]
    · rw [taken, if_pos hfit]
      exact h4
    · have hnew : freeAddrs (xs ++ (taken b size ++ ys)) =
          freeAddrs xs ++ (splitBack b size).addr :: freeAddrs ys := by
        simp [taken, hfit, freeAddrs, splitBack]
      rw [hnew]
      exact hl4
    · have htail : Coalesced ([] ++ splitBack b size :: ys) :=
        coalesced_middle List.isChain_nil hby.tail (by simp) hyhead
      simp only [taken, if_pos hfit, List.cons_append, List.nil_append]
      refine List.isChain_append.mpr ⟨hx, List.isChain_cons.mpr ⟨fun c _ => by simp, htail⟩,
        fun c _ d hd => ?_⟩
      obtain rfl : _ = d := by simpa using hd
      simp
    · have hsub : ∀ a, a ∈ addrs (xs ++ b :: ys) →
          a ∈ addrs ((xs ++ [splitFront b size]) ++ splitBack b size :: ys) := by
        intro a ha
        simp only [addrs_append, addrs_cons, List.mem_append, List.mem_cons] at ha ⊢
        rcases ha with ha | rfl | ha
        · exact Or.inl (Or.inl ha)
        · exact Or.inl (Or.inr (Or.inl rfl))
        · exact Or.inr (Or.inr ha)
      have hsub' : ∀ a, a ∈ addrs (xs ++ b :: ys) →
          a ∈ addrs (xs ++ splitFront b size :: splitBack b size :: ys) := by
        intro a ha
        simpa using hsub a ha
      exact (((hf1.kept (by simp)).trans (hf2.kept (by simp))).trans (hst3.mono hsub)).trans
        (hk4.mono hsub')
  · have hwhole : heapSplitBlock s1 b.addr size = (0, s1) := by
      refine heapSplitBlock_whole ?_ ?_
      · rwa [hget]
      · rwa [hget]
    obtain ⟨h4, hf4, hk4⟩ := heapMarkBlockUsed_phys h1
    have hl4 := isList_frame_free hl1 hf4 rfl hsub' (by simp) (by simp)
    refine ⟨heapMarkBlockUsed s1 b.addr, ?_, ⟨?_, ?_, ?_⟩, ?_⟩
    · simp only [hwhole]
      rfl
    · rw [taken, if_neg hfit]
      exact h4
    · have hnew : freeAddrs (xs ++ (taken b size ++ ys)) = freeAddrs xs ++ freeAddrs ys := by
        simp [taken, hfit, freeAddrs]
      rw [hnew]
      exact hl4
    · simp only [taken, if_neg hfit, List.cons_append, List.nil_append]
      refine List.isChain_append.mpr ⟨hx, List.isChain_cons.mpr ⟨fun c _ => by simp, hby.tail⟩,
        fun c _ d hd => ?_⟩
      obtain rfl : _ = d := by simpa using hd
      simp
    · exact (hf1.kept (by simp)).trans hk4

def firstFit (bs : List Block) (size : UInt32) : Option Block :=
  bs.find? fun b => b.free && decide (size ≤ b.size)

theorem kmallocScan_spec {bs : List Block} (h : Phys s bs) {fs : List Block} {fuel : Nat}
    {previous block : UInt32} (hscan : FreeScan s bs fuel previous block fs) :
    kmallocScan s size fuel block =
      match fs.find? fun b => decide (size ≤ b.size) with
      | none => some (0, s)
      | some b => kmallocTake s b.addr size := by
  induction hscan with
  | done => rfl
  | visit b h0 _ hb _ ih =>
    have hheader := h.header b hb.1
    rw [kmallocScan, if_neg h0, if_neg (by simp [h.sane hb.1, hheader.free, hb.2]), hheader.size, ih]
    by_cases hfit : size ≤ b.size
    · rw [if_pos hfit, List.find?_cons_of_pos (by simpa using hfit)]
    · rw [if_neg hfit, List.find?_cons_of_neg (by simpa using hfit)]

theorem kmalloc_firstFit {bs : List Block} (h : Rep s bs) (hsize : size ≠ 0) :
    kmalloc s size =
      match firstFit bs (heapAlignUp size heapAlignment) with
      | none => some (0, s)
      | some b => kmallocTake s b.addr (heapAlignUp size heapAlignment) := by
  have hlen : bs.length < UInt32.size := by
    have hle := h.phys.length_le
    simp only [UInt32.size]
    omega
  rw [kmalloc, if_neg (by simp [h.phys.region.ready, hsize]), kmallocScan_spec h.phys (h.scan hlen),
    List.find?_filter]
  simp only [firstFit, Bool.decide_and, Bool.decide_eq_true]

/-- Every call of `kmalloc` on a well-formed heap: it ends with null and an unchanged heap, because the size
is zero or nothing fits, or it hands out the first block that fits. -/
theorem kmalloc_cases {bs : List Block} (h : Rep s bs) (size : UInt32) :
    (kmalloc s size = some (0, s) ∧ (size = 0 ∨ firstFit bs (heapAlignUp size heapAlignment) = none)) ∨
      ∃ xs b ys s', size ≠ 0 ∧ bs = xs ++ b :: ys ∧ b.free = true ∧
        heapAlignUp size heapAlignment ≤ b.size ∧
        (∀ c ∈ xs, c.free = true → c.size < heapAlignUp size heapAlignment) ∧
        kmalloc s size = some (heapBlockPayloadAddress b.addr, s') ∧
        Rep s' (xs ++ (taken b (heapAlignUp size heapAlignment) ++ ys)) ∧ Kept (· ∈ addrs bs) s s' := by
  by_cases hsize : size = 0
  · refine Or.inl ⟨?_, Or.inl hsize⟩
    rw [kmalloc, if_pos (Or.inr hsize)]
  · have heq := kmalloc_firstFit h hsize
    cases hff : firstFit bs (heapAlignUp size heapAlignment) with
    | none =>
      rw [hff] at heq
      exact Or.inl ⟨heq, Or.inr rfl⟩
    | some b =>
      rw [hff] at heq
      obtain ⟨hb, xs, ys, rfl, hxs⟩ := List.find?_eq_some_iff_append.mp hff
      simp only [Bool.and_eq_true, decide_eq_true_eq] at hb
      obtain ⟨s', hs', hrep, hst⟩ := kmallocTake_spec h hb.1 hb.2 (heapAlignUp_mod size)
      refine Or.inr ⟨xs, b, ys, s', hsize, rfl, hb.1, hb.2, fun c hc hcf => ?_, heq.trans hs', hrep, hst⟩
      have hno := hxs c hc
      simpa [hcf] using hno

end TermobKernel.Heap

import TermobKernel.Heap.FirstFit

/-!
# Heap statistics

The counters of the heap are computed by separate walks over the physical chain and over the free
list. As long as the state holds a list of blocks, each walk is a sum over that list, and the sums
are tied together by the tiling: every block takes its payload and one header out of the region.
-/

namespace TermobKernel.Heap
open Word Dll Runs

variable {s : State} {bs : List Block}

def usedBytes (s : State) : Nat := ((used (blocks s)).map (·.size.toNat)).sum

/-- The statistics agree with each other, and `heap_bytes_used` does not have to clamp. -/
structure Balanced (s : State) : Prop where
  counts : (heapTotalBlockCount s).toNat = (heapUsedBlockCount s).toNat + (heapFreeBlockCount s).toNat
  bytes : (heapBytesFree s).toNat + usedBytes s + 32 * ((heapTotalBlockCount s).toNat - 1) =
    (heapBytesTotal s).toNat
  used : (heapBytesUsed s).toNat = usedBytes s + 32 * ((heapTotalBlockCount s).toNat - 1)
  unclamped : heapBytesFree s ≤ heapBytesTotal s

/-! ### The walks -/

theorem ofNat_add_assoc (x : UInt32) (m n : Nat) :
    x + UInt32.ofNat m + UInt32.ofNat n = x + UInt32.ofNat (m + n) := by
  rw [UInt32.add_assoc, UInt32.ofNat_add]

theorem heapCountScan_spec (h : Phys s bs) (counts : UInt32 → Bool) {cs : List Block} {walks : Nat}
    {previous block : UInt32} (hscan : PhysScan s bs walks previous block cs) (count : UInt32) :
    heapCountScan s counts walks block count = count + UInt32.ofNat (cs.countP fun b => counts b.addr) := by
  induction hscan generalizing count with
  | done => exact (UInt32.add_zero count).symm
  | visit b h0 _ hb _ ih =>
    rw [heapCountScan, if_neg h0, if_neg (by simp [h.sane hb]), ih, List.countP_cons]
    by_cases hb : counts b.addr = true
    · rw [if_pos hb, if_pos hb, Nat.add_comm, ← ofNat_add_assoc]
      rfl
    · rw [if_neg hb, if_neg hb, Nat.add_zero]

theorem heapFreeSum_spec (amount : UInt32 → UInt32) {fs : List Block} {walks : Nat}
    {previous block : UInt32} (hscan : FreeScan s bs walks previous block fs) (sum : UInt32) :
    heapFreeSum s amount walks block sum = sum +
        UInt32.ofNat (fs.map fun b => (amount b.addr).toNat).sum := by
  induction hscan generalizing sum with
  | done => exact (UInt32.add_zero sum).symm
  | visit b h0 _ _ _ ih =>
    rw [heapFreeSum, if_neg h0, ih, List.map_cons, List.sum_cons, ← ofNat_add_assoc, UInt32.ofNat_toNat]

/-! ### A list of blocks -/

theorem tiles_sum {lo hi : Nat} {bs : List Block} (h : Tiles lo bs hi) :
    lo + 32 * bs.length + (bs.map (·.size.toNat)).sum = hi := by
  induction bs generalizing lo with
  | nil =>
    have hlo : lo = hi := h
    simpa using hlo
  | cons b bs ih =>
    obtain ⟨h1, _, h3⟩ := h
    have hrest := ih h3
    simp only [Block.stop] at hrest
    simp only [List.length_cons, List.map_cons, List.sum_cons]
    omega

theorem sum_free_used (bs : List Block) :
    ((bs.filter (·.free)).map (·.size.toNat)).sum + ((used bs).map (·.size.toNat)).sum =
      (bs.map (·.size.toNat)).sum := by
  induction bs with
  | nil => rfl
  | cons b bs ih =>
    cases hb : b.free with
    | true =>
      rw [used_cons_free hb]
      simp only [List.filter_cons, hb, if_true, List.map_cons, List.sum_cons]
      omega
    | false =>
      rw [used_cons_used hb]
      simp only [List.filter_cons, hb, Bool.false_eq_true, if_false, List.map_cons, List.sum_cons]
      omega

section rep
variable {s : State} {bs : List Block}

theorem Rep.countScan (h : Rep s bs) (counts : UInt32 → Bool) :
    (heapCountScan s counts (heapMaxWalks s).toNat s.heapFirstBlock 0).toNat = bs.countP fun b =>
        counts b.addr := by
  have hlen := h.phys.length_le
  have hle := List.countP_le_length (p := fun b : Block => counts b.addr) (l := bs)
  rw [heapCountScan_spec h.phys counts h.phys.scan, UInt32.zero_add]
  exact UInt32.toNat_ofNat_of_lt' (by simp only [UInt32.size]; omega)

theorem Rep.totalBlockCount (h : Rep s bs) : (heapTotalBlockCount s).toNat = bs.length := by
  rw [heapTotalBlockCount, if_neg (by simp [h.phys.region.ready]), h.countScan, List.countP_true]

theorem Rep.usedBlockCount (h : Rep s bs) : (heapUsedBlockCount s).toNat = (used bs).length := by
  rw [heapUsedBlockCount, if_neg (by simp [h.phys.region.ready]), h.countScan, used,
    ← List.countP_eq_length_filter]
  apply List.countP_congr
  intro b hb
  rw [(h.phys.header b hb).free]

theorem Rep.freeSum (h : Rep s bs) (amount : UInt32 → UInt32) :
    heapFreeSum s amount (heapMaxWalks s).toNat s.heapFreeList 0 =
      UInt32.ofNat ((bs.filter (·.free)).map fun b => (amount b.addr).toNat).sum := by
  rw [heapFreeSum_spec amount (h.scan h.phys.length_lt_walks), UInt32.zero_add]

theorem Rep.freeBlockCount (h : Rep s bs) : (heapFreeBlockCount s).toNat = (bs.filter (·.free)).length := by
  have hlen := h.phys.length_le
  have hle := List.length_filter_le (fun b : Block => b.free) bs
  have hsum : ((bs.filter (·.free)).map fun _ => (1 : UInt32).toNat).sum = (bs.filter (·.free)).length := by
    rw [List.map_const', List.sum_replicate, smul_eq_mul]
    exact Nat.mul_one _
  rw [heapFreeBlockCount, if_neg (by simp [h.phys.region.ready]), h.freeSum, hsum]
  exact UInt32.toNat_ofNat_of_lt' (by simp only [UInt32.size]; omega)

theorem Rep.bytesFree (h : Rep s bs) :
    (heapBytesFree s).toNat = ((bs.filter (·.free)).map (·.size.toNat)).sum := by
  have hsum : ((bs.filter (·.free)).map fun b => (s.get .sizeBytes b.addr).toNat) =
      (bs.filter (·.free)).map (·.size.toNat) := by
    apply List.map_congr_left
    intro b hb
    rw [(h.phys.header b (List.mem_filter.mp hb).1).size]
  have htiles := tiles_sum h.phys.tiles
  have hsplit := sum_free_used bs
  have hend := s.heapEndPtr.toNat_lt
  rw [heapBytesFree, if_neg (by simp [h.phys.region.ready]), h.freeSum, hsum]
  exact UInt32.toNat_ofNat_of_lt' (by simp only [UInt32.size]; omega)

end rep

theorem Region.bytesTotal (h : Region s) : (heapBytesTotal s).toNat = 2 ^ 20 - 32 := by
  have hspan := h.span
  have hend := s.heapEndPtr.toNat_lt
  have hstart : (s.heapStartPtr + heapHeaderSize).toNat = s.heapStartPtr.toNat + 32 := by
    rw [toNat_add_of_lt (by rw [heapHeaderSize_toNat]; omega), heapHeaderSize_toNat]
  have hlarge : ¬s.heapEndPtr ≤ s.heapStartPtr + heapHeaderSize := by
    rw [UInt32.le_iff_toNat_le, hstart]
    omega
  have hsize : (s.heapEndPtr - s.heapStartPtr).toNat = 2 ^ 20 := by
    rw [toNat_sub_of_le (by omega)]
    omega
  rw [heapBytesTotal, heapTotalPayloadBytes, if_neg (by simp [h.ready, hlarge]),
    toNat_sub_of_le (by rw [heapHeaderSize_toNat, hsize]; omega), hsize, heapHeaderSize_toNat]

theorem Rep.balanced {bs : List Block} (h : Rep s bs) : Balanced s := by
  have htotal := h.totalBlockCount
  have hfree := h.bytesFree
  have hall := h.phys.region.bytesTotal
  have htiles := tiles_sum h.phys.tiles
  have hspan := h.phys.region.span
  have hsplit := sum_free_used bs
  have hpos : 0 < bs.length := List.length_pos_of_ne_nil h.ne_nil
  have hused : usedBytes s = ((used bs).map (·.size.toNat)).sum := by rw [usedBytes, h.blocks_eq]
  have hle : heapBytesFree s ≤ heapBytesTotal s := by
    rw [UInt32.le_iff_toNat_le]
    omega
  refine ⟨?_, ?_, ?_, hle⟩
  · have hparts := List.length_eq_length_filter_add (l := bs) (fun b => b.free)
    rw [htotal, h.usedBlockCount, h.freeBlockCount, used]
    omega
  · omega
  · rw [heapBytesUsed, if_pos hle, toNat_sub_of_le (UInt32.le_iff_toNat_le.mp hle)]
    omega

/-! ### Behind a wrapped `kcalloc` -/

theorem Lost.totalBlockCount (h : Lost s) : heapTotalBlockCount s = 0 := by
  rw [heapTotalBlockCount, if_neg (by simp [h.2])]
  cases (heapMaxWalks s).toNat with
  | zero => rfl
  | succ walks =>
    rw [heapCountScan, if_pos (h.1.not_sane _)]
    split <;> rfl

theorem Lost.usedBytes (h : Lost s) : usedBytes s = 0 := by
  rw [TermobKernel.Heap.usedBytes, h.1.blocks_eq]
  rfl

theorem Barren.bytesFree (h : Barren s) : heapBytesFree s = 0 := by
  have hend : ∀ walks, heapFreeSum s (s.get .sizeBytes) walks 0 0 = 0 := by
    intro walks
    cases walks with
    | zero => rfl
    | succ walks => rfl
  rw [heapBytesFree]
  split
  · rfl
  rcases h with h0 | ⟨hsize, hnext⟩
  · rw [h0]
    exact hend _
  · cases (heapMaxWalks s).toNat with
    | zero => rfl
    | succ walks =>
      rw [heapFreeSum, hsize, hnext]
      split
      · rfl
      · exact hend walks

theorem Lost.not_balanced (h : Lost s) (hbarren : Barren s) (hregion : Region s) : ¬Balanced s := by
  intro hbalanced
  have hbytes := hbalanced.bytes
  rw [h.totalBlockCount, hbarren.bytesFree, h.usedBytes, hregion.bytesTotal, UInt32.toNat_zero] at hbytes
  omega

/-! ### The result -/

/-- **The statistics add up.** In every run from `heap_init` the statistics of the state it ends in
are balanced, exactly when no step of the run was a `kcalloc` whose product rounds to zero. -/
theorem statistics_balanced_iff {kernelEnd : UInt32} (hfits : HeapFits kernelEnd) (s₀ : State)
    (ops : List Op) (hcaller : Allowed step CallerOk (heapInit kernelEnd s₀) ops) :
    ∃ s', run step (heapInit kernelEnd s₀) ops = some s' ∧
      (Balanced s' ↔ Allowed step (fun s op => ¬Wraps s op) (heapInit kernelEnd s₀) ops) := by
  obtain ⟨s', hrun, hend⟩ := run_sound (heapInit_sound hfits s₀) hcaller
  have hreach : Reachable kernelEnd s' := ⟨s₀, ops, hcaller, hrun⟩
  refine ⟨s', hrun, ?_⟩
  rcases hend with ⟨⟨_, bs, hrep⟩, hno⟩ | ⟨hlost, hwrap⟩
  · exact iff_of_true hrep.balanced hno
  · refine iff_of_false ?_ hwrap
    rcases hreach.settled hfits with ⟨_, bs, hrep⟩ | ⟨_, hbarren⟩
    · exact absurd hlost.1 hrep.not_wiped
    · exact hlost.not_balanced hbarren (hreach.region hfits).1

theorem statistics_balanced_two_calls :
    ∃ s', run step (heapInit 0x00200000 bootState) [.kmalloc 100, .kfree 0x00200020] = some s' ∧
        Balanced s' := by
  obtain ⟨s', hrun, hiff⟩ := statistics_balanced_iff (by decide : HeapFits 0x00200000) bootState
    [.kmalloc 100, .kfree 0x00200020] ⟨trivial, fun _ _ => ⟨trivial, fun _ _ => trivial⟩⟩
  exact ⟨s', hrun, hiff.mpr ⟨fun h => h, fun _ _ => ⟨fun h => h, fun _ _ => trivial⟩⟩⟩

/-- `kcalloc(0xFFFFFFFF, 1)` right after `heap_init`: of 1048544 payload bytes none are free, none
are used, and there are no blocks. -/
theorem wrapped_kcalloc_unbalanced :
    ∃ s', run step (heapInit 0x00200000 bootState) [.kcalloc 0xFFFFFFFF 1] = some s' ∧
      heapTotalBlockCount s' = 0 ∧ heapBytesFree s' = 0 ∧ usedBytes s' = 0 ∧
      (heapBytesTotal s').toNat = 1048544 ∧ ¬Balanced s' := by
  have hrep := heapInit_rep (show HeapFits 0x00200000 by decide) bootState
  obtain ⟨p, s', hk, hlost⟩ := kcalloc_lost_at_boot
  have hbarren := hrep.kcalloc_barren hk roundsToZero_at_boot
  have hregion := hrep.phys.region.of_statics (hrep.kcalloc_statics hk)
  refine ⟨s', ?_, hlost.totalBlockCount, hbarren.bytesFree, hlost.usedBytes, hregion.bytesTotal,
    hlost.not_balanced hbarren hregion⟩
  rw [run, step, hk]
  rfl

end TermobKernel.Heap

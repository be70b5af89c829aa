import TermobKernel.Heap.LiveMap

/-!
# First fit

`kmalloc` searches a list, and `heap_largest_free_block` walks the same list without its tests. In
every reachable state the two agree on whether a request can be served, and the block that serves it
is the lowest one that is large enough. Behind a wrapped `kcalloc` they agree as well: the search
stops at a header that is gone, and the walk finds a zero there.
-/

namespace TermobKernel.Heap
open Word Dll Runs

variable {s : State} {bs : List Block}

/-! ### The largest free block -/

theorem heapLargestScan_spec (h : Phys s bs) (n : UInt32) {fs : List Block} {walks : Nat}
    {previous block : UInt32} (hscan : FreeScan s bs walks previous block fs) (largest : UInt32) :
    n ≤ heapLargestScan s walks block largest ↔ n ≤ largest ∨ ∃ b ∈ fs, n ≤ b.size := by
  induction hscan generalizing largest with
  | done => simp [heapLargestScan]
  | visit b h0 _ hb _ ih =>
    rw [heapLargestScan, if_neg h0, (h.header b hb.1).size, ih]
    have hmax : n ≤ (if b.size > largest then b.size else largest) ↔ n ≤ largest ∨ n ≤ b.size := by
      simp only [gt_iff_lt, UInt32.lt_iff_toNat_lt, UInt32.le_iff_toNat_le]
      split
      · omega
      · omega
    simp only [hmax, List.exists_mem_cons_iff, or_assoc]

theorem Rep.le_largest (h : Rep s bs) {n : UInt32} (hn : n ≠ 0) :
    n ≤ heapLargestFreeBlock s ↔ ∃ b ∈ bs, b.free = true ∧ n ≤ b.size := by
  have hzero : ¬n ≤ 0 := by
    rw [UInt32.le_iff_toNat_le, UInt32.toNat_zero, Nat.le_zero]
    exact fun h => hn (UInt32.toNat_inj.mp h)
  rw [heapLargestFreeBlock, if_neg (by simp [h.phys.region.ready]),
    heapLargestScan_spec h.phys n (h.scan h.phys.length_lt_walks)]
  simp only [hzero, false_or, List.mem_filter, and_assoc]

/-! ### Behind a wrapped `kcalloc` -/

/-- The free list leads to a cleared header, if anywhere. -/
def Barren (s : State) : Prop :=
  s.heapFreeList = 0 ∨ s.get .sizeBytes s.heapFreeList = 0 ∧ s.get .nextFree s.heapFreeList = 0

theorem Barren.largest (h : Barren s) : heapLargestFreeBlock s = 0 := by
  have hend : ∀ walks, heapLargestScan s walks 0 0 = 0 := by
    intro walks
    cases walks with
    | zero => rfl
    | succ walks => rfl
  rw [heapLargestFreeBlock]
  split
  · rfl
  rcases h with h0 | ⟨hsize, hnext⟩
  · rw [h0]
    exact hend _
  · cases (heapMaxWalks s).toNat with
    | zero => rfl
    | succ walks =>
      rw [heapLargestScan, hsize, hnext]
      split
      · rfl
      · exact hend walks

theorem SameHeap.barren {s s' : State} (hsame : SameHeap s s') (h : Barren s) : Barren s' := by
  rw [hsame]
  exact h

theorem get_zeroed (s : State) {dst block : UInt32} {count : Nat} (hcount : count ≤ 2 ^ 32) {f : Field}
    (hin : ∀ i < 4, (block.toNat + f.offset.toNat + i + (2 ^ 32 - dst.toNat)) % 2 ^ 32 < count) :
    (heapZeroBytes s dst count).get f block = 0 := by
  rw [heapZeroBytes_eq s dst count hcount]
  have hzero : Mem.load32 (fun _ => 0) (block + f.offset) = 0 := rfl
  refine (Mem.load32_congr fun i hi => if_pos ?_).trans hzero
  have := hin i.toNat hi
  rw [UInt32.toNat_sub, UInt32.toNat_add, UInt32.toNat_add]
  omega

/-- Clearing nearly all of memory from the payload of a block on clears the header of every other block. -/
theorem barren_of_zero (h : Rep s bs) {b : Block} (hb : b ∈ bs) (hused : b.free = false)
    {count : Nat} (hlo : 2 ^ 32 - 16 < count) (hhi : count ≤ 2 ^ 32) :
    Barren (heapZeroBytes s (heapBlockPayloadAddress b.addr) count) := by
  have hhead : s.heapFreeList = (freeAddrs bs).headD 0 := h.listed.head
  have hlist : (heapZeroBytes s (heapBlockPayloadAddress b.addr) count).heapFreeList = s.heapFreeList := by
    rw [heapZeroBytes_eq s _ count hhi]
  rw [Barren, hlist, hhead]
  cases hfs : freeAddrs bs with
  | nil => exact Or.inl rfl
  | cons a fs =>
    right
    obtain ⟨c, hc, hfree, rfl⟩ := mem_freeAddrs (show a ∈ freeAddrs bs by simp [hfs])
    have hne : b ≠ c := by
      rintro rfl
      rw [hused] at hfree
      cases hfree
    have hpay := h.phys.payload_toNat hb
    have hapart := (tiles_disjoint h.phys.tiles hb hc).resolve_left hne
    have hbs := (tiles_bounds h.phys.tiles hb).2.1
    have hcs := (tiles_bounds h.phys.tiles hc).2.1
    have hend := s.heapEndPtr.toNat_lt
    simp only [Block.stop] at hapart hbs hcs
    refine ⟨get_zeroed s hhi fun i hi => ?_, get_zeroed s hhi fun i hi => ?_⟩
    · rw [hpay]
      change (c.addr.toNat + 8 + i + _) % _ < _
      omega
    · rw [hpay]
      change (c.addr.toNat + 24 + i + _) % _ < _
      omega

theorem Rep.kcalloc_barren {s s' : State} (h : Rep s bs) {count size p : UInt32}
    (hk : kcalloc s count size = some (p, s')) (hwrap : RoundsToZero s (requested count size)) :
    Barren s' := by
  obtain ⟨hlo, hhi, hlist, _⟩ := hwrap
  rcases h.kcalloc_served count size with ⟨_, hnone⟩ | ⟨xs, b, ys, t, _, _, rfl, _, _, _, _, hrep', _, hk'⟩
  · exfalso
    rcases hnone with h0 | hout | ⟨hreq, hff⟩
    · omega
    · omega
    · rw [heapAlignUp_wrap (by omega)] at hff
      exact hlist (h.freeList_eq_zero hff)
  · have hmem := served_mem xs ys b (heapAlignUp (count * size) heapAlignment)
    have hbarren := barren_of_zero hrep' hmem (served_free ..) hlo hhi.le
    rw [hk'] at hk
    cases hk
    rwa [served_addr] at hbarren

/-! ### Reachable states -/

/-- The heap is in order, or its headers are gone. -/
def Settled (start : UInt32) (s : State) : Prop := Sound start s ∨ Lost s ∧ Barren s

theorem step_settled {start : UInt32} (h : Settled start s) {op : Op} (hok : CallerOk s op) :
    ∃ s', step s op = some s' ∧ Settled start s' := by
  rcases h with hsound | ⟨hlost, hbarren⟩
  · obtain ⟨s', hstep, ⟨hs', _⟩ | ⟨hlost, hwrap⟩⟩ := step_sound hsound hok
    · exact ⟨s', hstep, Or.inl hs'⟩
    · refine ⟨s', hstep, Or.inr ⟨hlost, ?_⟩⟩
      cases op with
      | kcalloc count size =>
        obtain ⟨_, bs, hrep⟩ := hsound
        obtain ⟨⟨p, t⟩, hk, rfl⟩ := Option.map_eq_some_iff.mp hstep
        exact hrep.kcalloc_barren hk hwrap
      | kmalloc _ => exact hwrap.elim
      | kfree _ => exact hwrap.elim
      | write _ _ => exact hwrap.elim
  · obtain ⟨s', hstep, hlost', hsame⟩ := step_lost hlost hok
    exact ⟨s', hstep, Or.inr ⟨hlost', hsame.barren hbarren⟩⟩

theorem Reachable.settled {kernelEnd : UInt32} (hfits : HeapFits kernelEnd) (h : Reachable kernelEnd s) :
    Settled (heapAlignUp kernelEnd heapAlignment) s := by
  obtain ⟨s₀, ops, hok, hrun⟩ := h
  obtain ⟨s', hs', hend⟩ := run_invariant (fun _ _ hs hop => step_settled hs hop)
    (Or.inl (heapInit_sound hfits s₀)) hok
  obtain rfl : s' = s := by simpa [hrun] using hs'.symm
  exact hend

theorem Reachable.kmalloc_cases {kernelEnd : UInt32} (hfits : HeapFits kernelEnd)
    (hreach : Reachable kernelEnd s) (size : UInt32) :
    (∃ s', kmalloc s size = some (0, s') ∧
        (size = 0 ∨ firstFit (blocks s) (heapAlignUp size heapAlignment) = none)) ∨
      ∃ b s', Rep s (blocks s) ∧ b ∈ blocks s ∧ size ≠ 0 ∧ b.free = true ∧
        heapAlignUp size heapAlignment ≤ b.size ∧
        kmalloc s size = some (heapBlockPayloadAddress b.addr, s') := by
  rcases hreach.settled hfits with ⟨_, bs, hrep⟩ | ⟨hlost, _⟩
  · rw [hrep.blocks_eq]
    rcases Heap.kmalloc_cases hrep size with ⟨hk, hnone⟩ | ⟨xs, b, ys, s', hne, rfl, hb, hfit, _, hk, _⟩
    · exact Or.inl ⟨s, hk, hnone⟩
    · exact Or.inr ⟨b, s', hrep, by simp, hne, hb, hfit, hk⟩
  · have hnone : firstFit (blocks s) (heapAlignUp size heapAlignment) = none := by
      rw [hlost.1.blocks_eq]
      rfl
    rcases hlost.1.kmalloc_null size with hk | hk
    · exact Or.inl ⟨s, hk, Or.inr hnone⟩
    · exact Or.inl ⟨_, hk, Or.inr hnone⟩

/-! ### Completeness -/

theorem tiles_addr_le {lo hi : Nat} {xs ys : List Block} {b c : Block} (h : Tiles lo (xs ++ b :: ys) hi)
    (hc : c ∈ b :: ys) : b.addr ≤ c.addr := by
  rw [UInt32.le_iff_toNat_le]
  rcases List.mem_cons.mp hc with rfl | hc
  · exact Nat.le_refl _
  · have hstop := (tiles_bounds (tiles_middle.mp h).2.2 hc).1
    simp only [Block.stop] at hstop
    omega

theorem taken_eq (b : Block) (size : UInt32) :
    taken b size =
      if b.size.toNat ≥ size.toNat + 48 then
        [⟨b.addr, size, false⟩, ⟨heapBlockPayloadAddress b.addr + size,
          b.size - size - heapHeaderSize, true⟩]
      else [⟨b.addr, b.size, false⟩] := by
  have hheader : heapHeaderSize = 32 := by decide
  rw [heapBlockPayloadAddress, hheader]
  rfl

/-- **First fit.** In every reachable state and for every size that can be rounded up, `kmalloc`
returns a block if and only if the largest free block is large enough. It is the lowest one that is,
split exactly if 48 bytes would be left over. A failed call leaves the heap as it was, and the
diagnostics unless no block is left. -/
theorem first_fit_complete {kernelEnd : UInt32} (hfits : HeapFits kernelEnd) {s : State}
    (hreach : Reachable kernelEnd s) {size : UInt32} (hpos : 1 ≤ size) (hle : size ≤ 0xFFFFFFF0) :
    let rounded := heapAlignUp size heapAlignment
    rounded.toNat = (size.toNat + 15) / 16 * 16 ∧
      ∃ p s', kmalloc s size = some (p, s') ∧ (p ≠ 0 ↔ heapLargestFreeBlock s ≥ rounded) ∧
        (p ≠ 0 → ∃ xs b ys, blocks s = xs ++ b :: ys ∧ b.free = true ∧ b.size ≥ rounded ∧
          (∀ c ∈ blocks s, c.free = true → c.size ≥ rounded → b.addr ≤ c.addr) ∧
          p = heapBlockPayloadAddress b.addr ∧
          blocks s' = xs ++ (if b.size.toNat ≥ rounded.toNat + 48 then
              [⟨b.addr, rounded, false⟩, ⟨p + rounded, b.size - rounded - heapHeaderSize, true⟩]
            else [⟨b.addr, b.size, false⟩]) ++ ys) ∧
        (p = 0 → SameHeap s s' ∧ (blocks s ≠ [] → s' = s)) := by
  intro rounded
  rw [UInt32.le_iff_toNat_le] at hpos hle
  change 1 ≤ size.toNat at hpos
  change size.toNat ≤ 2 ^ 32 - 16 at hle
  have hrounded : rounded.toNat = (size.toNat + 15) / 16 * 16 := by
    rw [heapAlignUp_toNat]
    omega
  have hne : rounded ≠ 0 := by
    intro h0
    rw [h0, UInt32.toNat_zero] at hrounded
    omega
  refine ⟨hrounded, ?_⟩
  rcases hreach.settled hfits with ⟨_, bs, hrep⟩ | ⟨hlost, hbarren⟩
  · have hlargest := hrep.le_largest hne
    rw [hrep.blocks_eq]
    rcases kmalloc_cases hrep size with
      ⟨hk, hnone⟩ | ⟨xs, b, ys, s', _, rfl, hb, hfit, hfirst, hk, hrep', _⟩
    · refine ⟨0, s, hk, iff_of_false (fun h => h rfl) ?_, fun h => absurd rfl h,
        fun _ => ⟨rfl, fun _ => rfl⟩⟩
      rw [ge_iff_le, hlargest]
      rintro ⟨b, hb, hfree, hfit⟩
      rcases hnone with rfl | hnone
      · exact absurd hpos (by decide)
      · exact List.find?_eq_none.mp hnone b hb (by simp [hfree, rounded, hfit])
    · have hmem : b ∈ xs ++ b :: ys := by simp
      have hp0 := hrep.phys.payload_ne_zero hmem
      refine ⟨_, s', hk, iff_of_true hp0 (hlargest.mpr ⟨b, hmem, hb, hfit⟩), fun _ => ?_,
        fun h => absurd h hp0⟩
      refine ⟨xs, b, ys, rfl, hb, hfit, fun c hc hfree hsize => ?_, rfl, ?_⟩
      · rcases List.mem_append.mp hc with hc | hc
        · exact absurd (hfirst c hc hfree) (UInt32.not_lt.mpr hsize)
        · exact tiles_addr_le hrep.phys.tiles hc
      · rw [hrep'.blocks_eq, taken_eq, List.append_assoc]
  · have hblocks := hlost.1.blocks_eq
    have hfail : ¬heapLargestFreeBlock s ≥ rounded := by
      rw [hbarren.largest, ge_iff_le, UInt32.le_iff_toNat_le, UInt32.toNat_zero, Nat.le_zero]
      exact fun h => hne (UInt32.toNat_inj.mp h)
    rcases hlost.1.kmalloc_null size with hk | hk
    · exact ⟨0, s, hk, iff_of_false (fun h => h rfl) hfail, fun h => absurd rfl h,
        fun _ => ⟨rfl, fun h => absurd hblocks h⟩⟩
    · exact ⟨0, _, hk, iff_of_false (fun h => h rfl) hfail, fun h => absurd rfl h,
        fun _ => ⟨rfl, fun h => absurd hblocks h⟩⟩

/-- The largest request after `heap_init` that splits the block: it leaves a header and 16 bytes. -/
theorem first_fit_at_boot : ∃ s', kmalloc (heapInit 0x00200000 bootState) 1048496 = some (0x00200020, s') ∧
    blocks s' = [⟨0x00200000, 1048496, false⟩, ⟨0x002FFFD0, 16, true⟩] := by
  have hfits : HeapFits 0x00200000 := by decide
  have hrep := heapInit_rep hfits bootState
  obtain ⟨_, p, s', hk, hserves, hserved, _⟩ := first_fit_complete hfits reachable_init
    (by decide : (1 : UInt32) ≤ 1048496) (by decide)
  have hp : p ≠ 0 :=
    hserves.mpr ((hrep.le_largest (by decide)).mpr ⟨_, List.mem_singleton_self _, rfl, by decide⟩)
  obtain ⟨xs, b, ys, hsplit, _, _, _, rfl, hblocks⟩ := hserved hp
  rw [hrep.blocks_eq] at hsplit
  obtain ⟨rfl, rfl, rfl⟩ : xs = [] ∧ b = initialBlock 0x00200000 ∧ ys = [] := by
    cases xs with
    | nil => simpa [eq_comm] using hsplit
    | cons x xs => simp at hsplit
  exact ⟨s', hk, hblocks.trans (by decide)⟩

end TermobKernel.Heap

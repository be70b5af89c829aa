import TermobKernel.Heap.Allocate

/-!
# The integrity check

`heap_check_integrity_internal` accepts every state that holds a list of blocks: each of its three loops
walks the list it is meant to walk, within the walk bound, and finds what it expects.
-/

namespace TermobKernel.Heap
open Word Dll

variable {bs : List Block} {s : State}

theorem tiles_sorted {lo hi : Nat} (h : Tiles lo bs hi) :
    bs.Pairwise fun b c => b.stop ≤ c.addr.toNat := by
  induction bs generalizing lo with
  | nil => exact List.Pairwise.nil
  | cons b bs ih =>
    obtain ⟨_, _, hrest⟩ := h
    exact List.pairwise_cons.mpr ⟨fun c hc => (tiles_bounds hrest hc).1, ih hrest⟩

theorem tiles_freeAddrs_sorted {lo hi : Nat} (h : Tiles lo bs hi) :
    (freeAddrs bs).Pairwise (· < ·) := by
  refine List.pairwise_map.mpr (((tiles_sorted h).filter _).imp fun hle => ?_)
  simp only [Block.stop] at hle
  rw [UInt32.lt_iff_toNat_lt]
  omega

theorem heapCheckPhysical_spec (h : Phys s bs) {cs : List Block} {walks hi : Nat}
    {previous block expected : UInt32} (hscan : PhysScan s bs walks previous block cs)
    (htiles : Tiles expected.toNat cs hi) (hco : Coalesced cs) (count : UInt32) :
    ∃ stop, heapCheckPhysical s walks block previous expected count =
      .ok (stop, count + UInt32.ofNat (freeAddrs cs).length) ∧ stop.toNat = hi := by
  induction hscan generalizing expected count with
  | done => exact ⟨expected, by simp [heapCheckPhysical, freeAddrs], htiles⟩
  | visit b h0 hprev hb hrest ih =>
    obtain ⟨hlo, _, htail⟩ := htiles
    have haddr : b.addr = expected := UInt32.toNat_inj.mp hlo
    have hfree := (h.header b hb).free
    -- a free block is not followed by another one
    have hpair : ¬(b.free = true ∧ s.get .nextPhys b.addr ≠ 0 ∧
        heapBlockIsFree s (s.get .nextPhys b.addr) = true) := by
      rintro ⟨hf, hne, hnf⟩
      generalize s.get .nextPhys b.addr = next at hrest hne hnf
      cases hrest with
      | done => exact hne rfl
      | visit c _ _ hc _ =>
        rw [(h.header c hc).free] at hnf
        exact (List.isChain_cons_cons.mp hco).1 ⟨hf, hnf⟩
    rw [heapCheckPhysical, if_neg h0]
    simp only [h.sane hb, Bool.true_eq_false, if_false, hprev, haddr.symm, ne_eq, not_true_eq_false, hfree]
    rw [if_neg hpair]
    obtain ⟨stop, hstop, hhi⟩ := ih (by rw [h.end_toNat hb]; exact htail) hco.tail
      (if b.free = true then count + 1 else count)
    refine ⟨stop, ?_, hhi⟩
    rw [hstop]
    by_cases hbf : b.free = true
    · rw [if_pos hbf, freeAddrs_cons_free hbf, List.length_cons, UInt32.ofNat_add, UInt32.add_assoc,
        UInt32.add_comm (UInt32.ofNat _)]
      rfl
    · rw [if_neg hbf, freeAddrs_cons_used (by simpa using hbf)]

theorem heapCheckFreeList_spec (h : Phys s bs) {fs : List Block} {walks : Nat} {previous block : UInt32}
    (hscan : FreeScan s bs walks previous block fs) (hsorted : (addrs fs).Pairwise (· < ·))
    (hbelow : ∀ a ∈ addrs fs, previous ≠ 0 → previous < a) (count : UInt32) :
    heapCheckFreeList s walks block previous count = .ok (count + UInt32.ofNat fs.length) := by
  induction hscan generalizing count with
  | done => simp [heapCheckFreeList]
  | @visit _ previous _ b h0 hprev hb _ ih =>
    obtain ⟨hlt, hsorted⟩ := List.pairwise_cons.mp hsorted
    have horder : ¬(previous ≠ 0 ∧ previous ≥ b.addr) := by
      rintro ⟨hne, hge⟩
      exact UInt32.not_lt.mpr hge (hbelow b.addr (by simp) hne)
    rw [heapCheckFreeList, if_neg h0]
    simp only [h.sane hb.1, (h.header b hb.1).free, hb.2, Bool.true_eq_false, or_self, if_false,
      hprev, ne_eq, not_true_eq_false]
    rw [if_neg horder, ih hsorted (fun c hc _ => hlt c hc), List.length_cons, UInt32.ofNat_add,
      UInt32.add_assoc, UInt32.add_comm (UInt32.ofNat _)]
    rfl

theorem heapContainsScan_of_mem {fs : List Block} {walks : Nat} {previous block : UInt32}
    {b : Block} (hscan : FreeScan s bs walks previous block fs) (hb : b ∈ fs) :
    heapContainsScan s b.addr walks block = true := by
  induction hscan with
  | done => exact absurd hb List.not_mem_nil
  | visit c h0 _ _ _ ih =>
    rw [heapContainsScan, if_neg h0]
    rcases List.mem_cons.mp hb with rfl | hb
    · rw [if_pos rfl]
    · rw [ih hb, ite_self]

theorem heapCheckListed_spec
    (hlisted : ∀ b ∈ bs, heapBlockIsFree s b.addr = true → heapFreeListContains s b.addr = true)
    {cs : List Block} {walks : Nat} {previous block : UInt32}
    (hscan : PhysScan s bs walks previous block cs) :
    heapCheckListed s walks block = .ok () := by
  induction hscan with
  | done => simp [heapCheckListed]
  | visit b h0 _ hb _ ih =>
    have hguard : ¬(heapBlockIsFree s b.addr = true ∧ heapFreeListContains s b.addr = false) := by
      rintro ⟨hf, hn⟩
      rw [hlisted b hb hf] at hn
      exact absurd hn (by simp)
    rw [heapCheckListed, if_neg h0]
    simp only [if_neg hguard, ih]

theorem mem_freeAddrs {a : UInt32} (ha : a ∈ freeAddrs bs) : ∃ b ∈ bs, b.free = true ∧ b.addr = a := by
  obtain ⟨b, hb, rfl⟩ := List.mem_map.mp ha
  obtain ⟨hmem, hfree⟩ := List.mem_filter.mp hb
  exact ⟨b, hmem, hfree, rfl⟩

section rep
variable {s : State} {bs : List Block} (h : Rep s bs)
include h

theorem Rep.freeListContains {b : Block} (hb : b ∈ bs) (hfree : b.free = true) :
    heapFreeListContains s b.addr = true := by
  rw [heapFreeListContains, if_neg (h.phys.addr_ne_zero hb)]
  exact heapContainsScan_of_mem (h.scan h.phys.length_lt_walks) (List.mem_filter.mpr ⟨hb, hfree⟩)

theorem Rep.checkChains : heapCheckChains s = .ok () := by
  have hphys := h.phys
  obtain ⟨stop, hcheck, hstop⟩ := heapCheckPhysical_spec hphys hphys.scan hphys.tiles h.coalesced 0
  obtain rfl : stop = s.heapEndPtr := UInt32.toNat_inj.mp hstop
  have hfree := heapCheckFreeList_spec hphys (h.scan hphys.length_lt_walks)
    (tiles_freeAddrs_sorted hphys.tiles)
    (fun a _ h0 => absurd rfl h0) 0
  have hlisted := heapCheckListed_spec (fun b hb hf => h.freeListContains hb
    ((hphys.header b hb).free.symm.trans hf))
    hphys.scan
  simp only [heapCheckChains, hcheck, hfree, hlisted, freeAddrs, List.length_map, bind, Except.bind, ne_eq,
    not_true_eq_false, if_false]

theorem Rep.ne_nil : bs ≠ [] := by
  rintro rfl
  have htiles : s.heapStartPtr.toNat = s.heapEndPtr.toNat := h.phys.tiles
  have hspan := h.phys.region.span
  omega

theorem Rep.heapFirstBlock_ne_zero : s.heapFirstBlock ≠ 0 := by
  obtain ⟨b, ys, rfl⟩ := List.exists_cons_of_ne_nil h.ne_nil
  have hhead : s.heapFirstBlock = b.addr := h.phys.chain.head
  rw [hhead]
  exact h.phys.addr_ne_zero (by simp)

theorem Rep.integrity (logErrors : Bool) : heapCheckIntegrityInternal s logErrors = (true, s) := by
  rw [heapCheckIntegrityInternal, if_neg (by simp [h.phys.region.ready, h.heapFirstBlock_ne_zero]),
    h.checkChains]

end rep

end TermobKernel.Heap

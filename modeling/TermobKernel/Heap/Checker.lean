import TermobKernel.Heap.System

/-!
# What the integrity check accepts

`heap_check_integrity_internal` on any memory, corrupted headers and links included. Each loop that
ends without a complaint has walked a list, and what it looked at on the way is what the list has to
satisfy. That the free list then holds exactly the free blocks is a matter of counting: the third
loop finds every free block on it, and the numbers agree.
-/

namespace TermobKernel.Heap
open Word Dll

variable {s : State}

/-! ### One block -/

structure Sane (s : State) (block : UInt32) : Prop where
  ne_zero : block ≠ 0
  magic : s.get .magic block = heapBlockMagic
  size : (s.get .sizeBytes block).toNat % 16 = 0
  stop : (heapBlockEndAddress s block).toNat = block.toNat + 32 + (s.get .sizeBytes block).toNat

theorem mod_of_mask {x : UInt32} (h : x &&& (heapAlignment - 1) = 0) : x.toNat % 16 = 0 := by
  have hmask := toNat_and_mask x 4 (by omega)
  rw [show UInt32.ofNat (2 ^ 4 - 1) = heapAlignment - 1 from rfl, h] at hmask
  exact hmask.symm

theorem sane_of_check {block : UInt32} (h : heapBlockIsSane s block = true) : Sane s block := by
  unfold heapBlockIsSane at h
  split_ifs at h with hzero halign hwithin hmagic hsize hstop
  rw [not_not] at hmagic hsize
  rw [not_or] at hwithin hstop
  have hblock := block.toNat_lt
  have hlen := (s.get .sizeBytes block).toNat_lt
  have hpayload : (heapBlockPayloadAddress block).toNat = block.toNat + 32 := by
    have hle := UInt32.le_iff_toNat_le.mp (UInt32.not_lt.mp hwithin.2)
    rw [heapBlockPayloadAddress, UInt32.toNat_add, heapHeaderSize_toNat] at hle ⊢
    omega
  refine ⟨hzero, hmagic, mod_of_mask hsize, ?_⟩
  have hle := UInt32.le_iff_toNat_le.mp (UInt32.not_lt.mp hstop.1)
  rw [heapBlockEndAddress, UInt32.toNat_add, hpayload] at hle ⊢
  omega

def blockOf (s : State) (block : UInt32) : Block := ⟨block, s.get .sizeBytes block, heapBlockIsFree s block⟩

theorem Sane.header {block : UInt32} (h : Sane s block) : Header s (blockOf s block) :=
  ⟨h.magic, rfl, rfl⟩

/-! ### The physical chain -/

/-- What the first loop has seen when it ends. -/
structure Walked (s : State) (block previous expected stop : UInt32) (bs : List Block) : Prop where
  head : (addrs bs).headD 0 = block
  seg : Seg (s.get .nextPhys) (s.get .prevPhys) previous (addrs bs) 0
  tiles : Tiles expected.toNat bs stop.toNat
  coalesced : Coalesced bs
  sane : ∀ b ∈ bs, Sane s b.addr ∧ Header s b

theorem Walked.cons {block previous stop : UInt32} {bs : List Block} (hsane : Sane s block)
    (hprev : s.get .prevPhys block = previous)
    (hpair : ¬(heapBlockIsFree s block = true ∧ s.get .nextPhys block ≠ 0 ∧
      heapBlockIsFree s (s.get .nextPhys block) = true))
    (h : Walked s (s.get .nextPhys block) block (heapBlockEndAddress s block) stop bs) :
    Walked s block previous block stop (blockOf s block :: bs) := by
  refine ⟨rfl, ⟨hprev, h.head.symm, h.seg⟩, ⟨rfl, hsane.size, ?_⟩, ?_, ?_⟩
  · have htiles := h.tiles
    rw [hsane.stop] at htiles
    exact htiles
  · refine List.isChain_cons.mpr ⟨?_, h.coalesced⟩
    rintro c hc ⟨hfree, hcfree⟩
    obtain ⟨cs, rfl⟩ : ∃ cs, bs = c :: cs := by
      cases bs with
      | nil => cases hc
      | cons d ds => exact ⟨ds, by rw [show d = c by simpa using hc]⟩
    obtain ⟨hcsane, hcheader⟩ := h.sane c List.mem_cons_self
    have hnext : c.addr = s.get .nextPhys block := h.head
    rw [← hcheader.free, hnext] at hcfree
    rw [hnext] at hcsane
    exact hpair ⟨hfree, hcsane.ne_zero, hcfree⟩
  · intro b hb
    rcases List.mem_cons.mp hb with rfl | hb
    · exact ⟨hsane, hsane.header⟩
    · exact h.sane b hb

theorem heapCheckPhysical_sound (walks : Nat) :
    ∀ {block previous expected count stop n : UInt32},
      heapCheckPhysical s walks block previous expected count = .ok (stop, n) →
      ∃ bs, Walked s block previous expected stop bs ∧ n = count + UInt32.ofNat (freeAddrs bs).length := by
  induction walks with
  | zero =>
    intro block previous expected count stop n h
    rw [heapCheckPhysical] at h
    split_ifs at h with hzero
    obtain ⟨rfl, rfl⟩ := Prod.mk.inj (Except.ok.inj h)
    exact ⟨[], ⟨hzero.symm, trivial, rfl, List.isChain_nil, by simp⟩, by simp [freeAddrs]⟩
  | succ walks ih =>
    intro block previous expected count stop n h
    rw [heapCheckPhysical] at h
    split_ifs at h with hzero hsane hplace hprev hpair hfree
    · obtain ⟨rfl, rfl⟩ := Prod.mk.inj (Except.ok.inj h)
      exact ⟨[], ⟨hzero.symm, trivial, rfl, List.isChain_nil, by simp⟩, by simp [freeAddrs]⟩
    all_goals
      obtain ⟨bs, hbs, hn⟩ := ih h
      rw [Bool.not_eq_false] at hsane
      obtain rfl := not_not.mp hplace
      refine ⟨_, Walked.cons (sane_of_check hsane) (not_not.mp hprev) hpair hbs, ?_⟩
    · rw [hn, freeAddrs_cons_free (b := blockOf s block) hfree, List.length_cons, UInt32.ofNat_add,
        UInt32.add_assoc, UInt32.add_comm (UInt32.ofNat _)]
      rfl
    · rw [hn, freeAddrs_cons_used (b := blockOf s block) (Bool.eq_false_of_not_eq_true hfree)]

/-! ### The free list -/

/-- What the second loop has seen when it ends. -/
structure Listed (s : State) (block previous : UInt32) (fs : List UInt32) : Prop where
  head : fs.headD 0 = block
  seg : Seg (s.get .nextFree) (s.get .prevFree) previous fs 0
  increasing : fs.Pairwise (· < ·)
  above : ∀ a ∈ fs, previous ≠ 0 → previous < a
  ne_zero : ∀ a ∈ fs, a ≠ 0

theorem heapCheckFreeList_sound (walks : Nat) :
    ∀ {block previous count n : UInt32}, heapCheckFreeList s walks block previous count = .ok n →
      ∃ fs, Listed s block previous fs ∧ n = count + UInt32.ofNat fs.length ∧ fs.length ≤ walks := by
  induction walks with
  | zero =>
    intro block previous count n h
    rw [heapCheckFreeList] at h
    split_ifs at h with hzero
    obtain rfl := Except.ok.inj h
    exact ⟨[], ⟨hzero.symm, trivial, List.Pairwise.nil, by simp, by simp⟩, by simp, le_rfl⟩
  | succ walks ih =>
    intro block previous count n h
    rw [heapCheckFreeList] at h
    split_ifs at h with hzero hsane hprev horder
    · obtain rfl := Except.ok.inj h
      exact ⟨[], ⟨hzero.symm, trivial, List.Pairwise.nil, by simp, by simp⟩, by simp, Nat.zero_le _⟩
    · obtain ⟨fs, hfs, hn, hlen⟩ := ih h
      have habove : previous ≠ 0 → previous < block := fun hne =>
        UInt32.not_le.mp fun hle => horder ⟨hne, hle⟩
      refine ⟨block :: fs, ⟨rfl, ⟨not_not.mp hprev, hfs.head.symm, hfs.seg⟩, ?_, ?_, ?_⟩, ?_, ?_⟩
      · exact List.pairwise_cons.mpr ⟨fun a ha => hfs.above a ha hzero, hfs.increasing⟩
      · intro a ha hne
        rcases List.mem_cons.mp ha with rfl | ha
        · exact habove hne
        · exact UInt32.lt_trans (habove hne) (hfs.above a ha hzero)
      · intro a ha
        rcases List.mem_cons.mp ha with rfl | ha
        · exact hzero
        · exact hfs.ne_zero a ha
      · rw [hn, List.length_cons, UInt32.ofNat_add, UInt32.add_assoc, UInt32.add_comm (UInt32.ofNat _)]
        rfl
      · rw [List.length_cons]
        omega

theorem mem_of_heapContainsScan {target : UInt32} (fs : List UInt32) :
    ∀ {walks : Nat} {previous : UInt32}, Seg (s.get .nextFree) (s.get .prevFree) previous fs 0 →
      heapContainsScan s target walks (fs.headD 0) = true → target ∈ fs := by
  induction fs with
  | nil =>
    intro walks previous _ h
    cases walks <;> simp [heapContainsScan] at h
  | cons a fs ih =>
    intro walks previous hseg h
    cases walks with
    | zero => simp [heapContainsScan] at h
    | succ walks =>
      obtain ⟨_, hnext, hrest⟩ := hseg
      rw [List.headD_cons, heapContainsScan] at h
      split_ifs at h with hzero htarget
      · exact List.mem_cons.mpr (Or.inl htarget.symm)
      · rw [hnext] at h
        exact List.mem_cons_of_mem _ (ih hrest h)

/-! ### The second walk along the physical chain -/

theorem heapCheckListed_sound (bs : List Block) :
    ∀ {walks : Nat} {previous : UInt32}, Seg (s.get .nextPhys) (s.get .prevPhys) previous (addrs bs) 0 →
      (∀ b ∈ bs, b.addr ≠ 0) → heapCheckListed s walks ((addrs bs).headD 0) = .ok () →
      ∀ b ∈ bs, heapBlockIsFree s b.addr = true → heapFreeListContains s b.addr = true := by
  induction bs with
  | nil => simp
  | cons b bs ih =>
    intro walks previous hseg hne h
    obtain ⟨_, hnext, hrest⟩ := hseg
    change s.get .nextPhys b.addr = (addrs bs).headD 0 at hnext
    cases walks with
    | zero =>
      rw [show (addrs (b :: bs)).headD 0 = b.addr from rfl, heapCheckListed,
        if_neg (hne b List.mem_cons_self)] at h
      cases h
    | succ walks =>
      rw [show (addrs (b :: bs)).headD 0 = b.addr from rfl, heapCheckListed,
        if_neg (hne b List.mem_cons_self)] at h
      split_ifs at h with hmissing
      rw [hnext] at h
      intro c hc hfree
      rcases List.mem_cons.mp hc with rfl | hc
      · by_contra hnot
        exact hmissing ⟨hfree, by simpa using hnot⟩
      · exact ih hrest (fun d hd => hne d (List.mem_cons_of_mem _ hd)) h c hc hfree

/-! ### The check as a whole -/

theorem heapCheckChains_ok (h : heapCheckChains s = .ok ()) :
    ∃ n, heapCheckPhysical s (heapMaxWalks s).toNat s.heapFirstBlock 0 s.heapStartPtr 0 =
      .ok (s.heapEndPtr, n) ∧
      heapCheckFreeList s (heapMaxWalks s).toNat s.heapFreeList 0 0 = .ok n ∧
      heapCheckListed s (heapMaxWalks s).toNat s.heapFirstBlock = .ok () := by
  unfold heapCheckChains at h
  dsimp only at h
  cases hphysical : heapCheckPhysical s (heapMaxWalks s).toNat s.heapFirstBlock 0 s.heapStartPtr 0 with
  | error message => simp [hphysical, bind, Except.bind] at h
  | ok result =>
    obtain ⟨stop, n⟩ := result
    simp only [hphysical, bind, Except.bind] at h
    split_ifs at h with hstop
    obtain rfl := not_not.mp hstop
    cases hfree : heapCheckFreeList s (heapMaxWalks s).toNat s.heapFreeList 0 0 with
    | error message => simp [hfree] at h
    | ok m =>
      simp only [hfree] at h
      split_ifs at h with hcount
      obtain rfl := not_not.mp hcount
      exact ⟨_, rfl, rfl, h⟩

theorem eq_of_sorted_subset {xs ys : List UInt32} (hxs : xs.Pairwise (· < ·)) (hys : ys.Pairwise (· < ·))
    (hsub : ∀ a ∈ xs, a ∈ ys) (hlen : ys.length ≤ xs.length) : xs = ys := by
  have hnodup : xs.Nodup := hxs.imp fun hlt heq => by
    rw [heq] at hlt
    exact UInt32.lt_irrefl _ hlt
  have hperm : xs.Perm ys := (hnodup.subperm hsub).perm_of_length_le hlen
  refine hperm.eq_of_pairwise ?_ hxs hys
  intro a b _ _ hab hba
  exact absurd hba (UInt32.lt_asymm hab)

/-- A well-formed heap, with nothing assumed about the state: the blocks linked from
`heap_first_block` tile the region, with headers in order and no two free neighbours, and the free
list links exactly the free blocks, both ways and with increasing addresses. -/
structure WellFormed (s : State) (bs : List Block) (fs : List UInt32) : Prop where
  tiles : Tiles s.heapStartPtr.toNat bs s.heapEndPtr.toNat
  chain : IsList 0 (physLinks s) (addrs bs)
  header : ∀ b ∈ bs, Header s b
  coalesced : Coalesced bs
  listed : IsList 0 (freeLinks s) fs
  increasing : fs.Pairwise (· < ·)
  exact_free : ∀ a, a ∈ fs ↔ ∃ b ∈ bs, b.free = true ∧ b.addr = a

section
variable {s : State} {bs : List Block} {fs : List UInt32}

theorem freeAddrs_iff {a : UInt32} : a ∈ freeAddrs bs ↔ ∃ b ∈ bs, b.free = true ∧ b.addr = a := by
  constructor
  · exact mem_freeAddrs
  · rintro ⟨b, hb, hfree, rfl⟩
    exact List.mem_map_of_mem (List.mem_filter.mpr ⟨hb, hfree⟩)

theorem WellFormed.rep (h : WellFormed s bs fs) (hready : s.heapReady = true)
    (haligned : s.heapStartPtr.toNat % 16 = 0)
    (hspan : s.heapEndPtr.toNat = s.heapStartPtr.toNat + 2 ^ 20) :
    Rep s bs := by
  have hpos : 0 < s.heapStartPtr.toNat := by
    have htiles := h.tiles
    have hnil := h.chain.nil_notMem
    cases bs with
    | nil =>
      have hsame : s.heapStartPtr.toNat = s.heapEndPtr.toNat := htiles
      omega
    | cons b bs =>
      have haddr : b.addr.toNat = s.heapStartPtr.toNat := htiles.1
      have hne : b.addr ≠ 0 := fun hzero => hnil (by rw [addrs_cons, hzero]; exact List.mem_cons_self)
      rw [← haddr]
      refine Nat.pos_of_ne_zero (fun hzero => hne ?_)
      exact UInt32.toNat_inj.mp hzero
  refine ⟨⟨⟨hready, hpos, haligned, hspan⟩, h.tiles, h.chain, h.header⟩, ?_, h.coalesced⟩
  have hsorted := tiles_freeAddrs_sorted h.tiles
  have hsame : freeAddrs bs = fs := by
    refine eq_of_sorted_subset hsorted h.increasing
      (fun a ha => (h.exact_free a).mpr (freeAddrs_iff.mp ha)) ?_
    have hnodup : fs.Nodup := h.listed.nodup
    exact (hnodup.subperm fun a ha => freeAddrs_iff.mpr ((h.exact_free a).mp ha)).length_le
  rw [hsame]
  exact h.listed

theorem tiles_addrs_sorted {lo hi : Nat} (h : Tiles lo bs hi) : (addrs bs).Pairwise (· < ·) := by
  refine List.pairwise_map.mpr ((tiles_sorted h).imp fun hle => ?_)
  simp only [Block.stop] at hle
  rw [UInt32.lt_iff_toNat_lt]
  omega

theorem nodup_of_increasing {xs : List UInt32} (h : xs.Pairwise (· < ·)) : xs.Nodup :=
  h.imp fun hlt heq => by
    rw [heq] at hlt
    exact UInt32.lt_irrefl _ hlt

theorem wellFormed_of_checkChains (hspan : s.heapEndPtr.toNat = s.heapStartPtr.toNat + 2 ^ 20)
    (h : heapCheckChains s = .ok ()) : ∃ bs fs, WellFormed s bs fs := by
  obtain ⟨n, hphysical, hfree, hlisted⟩ := heapCheckChains_ok h
  obtain ⟨bs, hbs, hcount⟩ := heapCheckPhysical_sound _ hphysical
  obtain ⟨fs, hfs, hcount', hlen⟩ := heapCheckFreeList_sound _ hfree
  have hne : ∀ b ∈ bs, b.addr ≠ 0 := fun b hb => (hbs.sane b hb).1.ne_zero
  -- both numbers are small, so that equal counters are equal lengths
  have hshort : (freeAddrs bs).length ≤ 32768 := by
    have htiles := tiles_length hbs.tiles
    have hfilter := List.length_filter_le (fun b : Block => b.free) bs
    rw [freeAddrs, List.length_map]
    omega
  have hwalks := (heapMaxWalks s).toNat_lt
  have hlengths : fs.length = (freeAddrs bs).length := by
    have heq := congrArg UInt32.toNat (hcount'.symm.trans hcount)
    rw [UInt32.zero_add, UInt32.zero_add, UInt32.toNat_ofNat_of_lt' (Nat.lt_of_le_of_lt hlen hwalks),
      UInt32.toNat_ofNat_of_lt' (show _ < 2 ^ 32 by omega)] at heq
    exact heq
  have hmem : ∀ a ∈ freeAddrs bs, a ∈ fs := by
    intro a ha
    obtain ⟨b, hb, hbf, rfl⟩ := mem_freeAddrs ha
    rw [← hbs.head] at hlisted
    have hin := heapCheckListed_sound bs hbs.seg hne hlisted b hb ((hbs.sane b hb).2.free.trans hbf)
    rw [heapFreeListContains, if_neg (hne b hb), ← hfs.head] at hin
    exact mem_of_heapContainsScan fs hfs.seg hin
  have hsame : freeAddrs bs = fs :=
    eq_of_sorted_subset (tiles_freeAddrs_sorted hbs.tiles) hfs.increasing hmem hlengths.le
  refine ⟨bs, fs, hbs.tiles,
    ⟨hbs.head.symm, hbs.seg, nodup_of_increasing (tiles_addrs_sorted hbs.tiles), ?_⟩,
    fun b hb => (hbs.sane b hb).2, hbs.coalesced,
    ⟨hfs.head.symm, hfs.seg, nodup_of_increasing hfs.increasing, fun hzero => hfs.ne_zero 0 hzero rfl⟩,
    hfs.increasing, ?_⟩
  · intro hzero
    obtain ⟨b, hb, haddr⟩ := List.mem_map.mp hzero
    exact hne b hb haddr
  · intro a
    rw [← hsame]
    exact freeAddrs_iff

end

/-- **The integrity check.** On any memory, for a region of 1 MiB at an aligned address, the check
accepts the state if and only if it holds a well-formed heap. -/
theorem integrity_check_iff (s : State) (hready : s.heapReady = true)
    (haligned : s.heapStartPtr.toNat % 16 = 0)
    (hspan : s.heapEndPtr.toNat = s.heapStartPtr.toNat + 2 ^ 20) (logErrors : Bool) :
    (heapCheckIntegrityInternal s logErrors).1 = true ↔ ∃ bs fs, WellFormed s bs fs := by
  constructor
  · intro h
    rw [heapCheckIntegrityInternal] at h
    by_cases hfirst : s.heapReady = false ∨ s.heapFirstBlock = 0
    · simp [hfirst] at h
    rw [if_neg hfirst] at h
    cases hchains : heapCheckChains s with
    | error message => simp [hchains] at h
    | ok done => exact wellFormed_of_checkChains hspan hchains
  · rintro ⟨bs, fs, h⟩
    rw [(h.rep hready haligned hspan).integrity logErrors]

theorem integrity_check_at_boot :
    (heapCheckIntegrityInternal (heapInit 0x00200000 bootState) true).1 = true ∧
      ∃ bs fs, WellFormed (heapInit 0x00200000 bootState) bs fs := by
  have hrep := heapInit_rep (show HeapFits 0x00200000 by decide) bootState
  have hregion := hrep.phys.region
  have hpass : (heapCheckIntegrityInternal (heapInit 0x00200000 bootState) true).1 = true := by
    rw [hrep.integrity true]
  exact ⟨hpass, (integrity_check_iff _ hregion.ready hregion.aligned hregion.span true).mp hpass⟩

end TermobKernel.Heap

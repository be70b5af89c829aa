import TermobKernel.Heap.LiveMap

/-!
# The order of releases

A tiling of the region without two free neighbours is determined by its used blocks
(`tiling_unique`): a free block fills the whole gap between two of them. A release removes one used
block and keeps the rest, so that the lists after any number of releases do not depend on their
order, and after the last one only the block of `heap_init` is left.
-/

namespace TermobKernel.Heap
open Word Dll Runs

variable {bs : List Block} {s : State} {lo hi : Nat}

/-! ### The canonical tiling -/

theorem tiles_free_stop {b : Block} (h : Tiles lo (b :: bs) hi)
    (hc : Coalesced (b :: bs)) (hb : b.free = true) :
    b.stop = ((used bs).head?.map (·.addr.toNat)).getD hi := by
  obtain ⟨_, _, hrest⟩ := h
  cases bs with
  | nil => exact hrest
  | cons c cs =>
    have hused : c.free = false := by simpa [hb] using (List.isChain_cons_cons.mp hc).1
    rw [used_cons_used hused]
    exact hrest.1.symm

theorem tiles_head_used {b c : Block} {bs cs : List Block} (hb : Tiles lo (b :: bs) hi)
    (hc : Tiles lo (c :: cs) hi) (hused : used (b :: bs) = used (c :: cs)) (hfree : b.free = false) :
    c.free = false := by
  by_contra hcf
  rw [Bool.not_eq_false] at hcf
  rw [used_cons_used hfree, used_cons_free hcf] at hused
  have hmem : b ∈ cs := (List.mem_filter.mp (show b ∈ used cs by rw [← hused]; exact List.mem_cons_self)).1
  have hbound := (tiles_bounds hc.2.2 hmem).1
  have hlo := hb.1
  have hlo' := hc.1
  simp only [Block.stop] at hbound
  omega

theorem tiling_unique {bs cs : List Block} (hb : Tiles lo bs hi) (hc : Tiles lo cs hi)
    (hbc : Coalesced bs) (hcc : Coalesced cs) (hused : used bs = used cs) : bs = cs := by
  induction bs generalizing lo cs with
  | nil =>
    cases cs with
    | nil => rfl
    | cons c cs =>
      have hlo : lo = hi := hb
      have hlen := tiles_length hc
      rw [List.length_cons] at hlen
      omega
  | cons b bs ih =>
    cases cs with
    | nil =>
      have hlo : lo = hi := hc
      have hlen := tiles_length hb
      rw [List.length_cons] at hlen
      omega
    | cons c cs =>
      have haddr : b.addr = c.addr := UInt32.toNat_inj.mp (hb.1.trans hc.1.symm)
      have hboth : b = c ∧ used bs = used cs := by
        by_cases hfree : b.free = true
        · have hfree' : c.free = true := by
            by_contra hcu
            rw [Bool.not_eq_true] at hcu
            rw [tiles_head_used hc hb hused.symm hcu] at hfree
            cases hfree
          rw [used_cons_free hfree, used_cons_free hfree'] at hused
          -- both free blocks fill the gap up to the same used block
          have hstop : b.stop = c.stop := by
            rw [tiles_free_stop hb hbc hfree, tiles_free_stop hc hcc hfree', hused]
          have hsize : b.size = c.size := by
            simp only [Block.stop, haddr] at hstop
            exact UInt32.toNat_inj.mp (by omega)
          refine ⟨?_, hused⟩
          obtain ⟨a, n, f⟩ := b
          obtain ⟨a', n', f'⟩ := c
          simp_all
        · rw [Bool.not_eq_true] at hfree
          have hfree' := tiles_head_used hb hc hused hfree
          rw [used_cons_used hfree, used_cons_used hfree'] at hused
          exact List.cons.inj hused
      obtain ⟨rfl, hrest⟩ := hboth
      rw [ih hb.2.2 hc.2.2 hbc.tail hcc.tail hrest]

/-! ### The free list of a state -/

/-- The free list as the code walks it, within the walk bound. -/
def freeScan (s : State) : Nat → UInt32 → List UInt32
  | 0, _ => []
  | walks + 1, block => if block = 0 then [] else block :: freeScan s walks (s.get .nextFree block)

def freeBlocks (s : State) : List UInt32 := freeScan s (heapMaxWalks s).toNat s.heapFreeList

theorem freeScan_spec {fs : List Block} {walks : Nat} {previous block : UInt32}
    (hscan : FreeScan s bs walks previous block fs) : freeScan s walks block = addrs fs := by
  induction hscan with
  | done => rfl
  | visit b h0 _ _ _ ih =>
    rw [freeScan, if_neg h0, ih]
    rfl

theorem Rep.freeBlocks_eq (h : Rep s bs) : freeBlocks s = freeAddrs bs :=
  freeScan_spec (h.scan h.phys.length_lt_walks)

/-! ### Releases -/

def spared (bs : List Block) (ps : List UInt32) : List Block :=
  (used bs).filter fun b => decide (heapBlockPayloadAddress b.addr ∉ ps)

def Live (s : State) (p : UInt32) : Prop := p ∈ (liveMap s).map (·.1)

theorem Rep.live_iff (h : Rep s bs) {p : UInt32} :
    Live s p ↔ ∃ b ∈ bs, b.free = false ∧ heapBlockPayloadAddress b.addr = p := by
  rw [Live, List.mem_map]
  constructor
  · rintro ⟨⟨q, n⟩, he, rfl⟩
    obtain ⟨b, hb, hfree, hpay, _⟩ := h.entry_mem.mp he
    exact ⟨b, hb, hfree, hpay⟩
  · rintro ⟨b, hb, hfree, rfl⟩
    exact ⟨(_, b.size), h.entry_mem.mpr ⟨b, hb, hfree, rfl, rfl⟩, rfl⟩

theorem Phys.payload_ne {xs ys : List Block} {b c : Block} (h : Phys s (xs ++ b :: ys))
    (hc : c ∈ xs ++ ys) : heapBlockPayloadAddress c.addr ≠ heapBlockPayloadAddress b.addr := by
  obtain ⟨hlt, hgt⟩ := tiles_addr_lt h.tiles
  intro heq
  have haddr : c.addr = b.addr := by
    rw [← heapBlockPayloadAddress_sub c.addr, heq, heapBlockPayloadAddress_sub]
  rcases List.mem_append.mp hc with hx | hy
  · have := hlt c.addr (List.mem_map_of_mem hx)
    rw [haddr] at this
    exact UInt32.lt_irrefl _ this
  · have := hgt c.addr (List.mem_map_of_mem hy)
    rw [haddr] at this
    exact UInt32.lt_irrefl _ this

theorem Rep.kfree_spared (h : Rep s bs) {p : UInt32} (hp : Live s p) :
    ∃ s' bs', kfree s p = some s' ∧ Rep s' bs' ∧ s'.statics = s.statics ∧ used bs' = spared bs [p] := by
  obtain ⟨b, hb, hfree, rfl⟩ := h.live_iff.mp hp
  obtain ⟨xs, ys, rfl⟩ := List.append_of_mem hb
  obtain ⟨s', hs', hrep, hst⟩ := kfree_used h hfree
  refine ⟨s', _, hs', hrep, hst.statics, ?_⟩
  have hkeep : ∀ zs : List Block, (∀ c ∈ zs, c ∈ xs ++ ys) →
      (used zs).filter
        (fun c => decide (heapBlockPayloadAddress c.addr ∉ [heapBlockPayloadAddress b.addr])) =
          used zs := by
    intro zs hzs
    rw [List.filter_eq_self]
    intro c hc
    simpa using h.phys.payload_ne (hzs c (List.mem_filter.mp hc).1)
  rw [released, used_coalesced _ rfl, spared, used_append, used_append, used_cons_used hfree,
    List.filter_append,
    List.filter_cons_of_neg (by simp), hkeep xs (fun c hc => List.mem_append_left _ hc),
    hkeep ys (fun c hc => List.mem_append_right _ hc)]

theorem Rep.run_kfree (h : Rep s bs) {ps : List UInt32} (hnodup : ps.Nodup)
    (hlive : ∀ p ∈ ps, Live s p) :
    ∃ s' bs', run step s (ps.map .kfree) = some s' ∧ Rep s' bs' ∧ s'.statics = s.statics ∧
      used bs' = spared bs ps := by
  induction ps generalizing s bs with
  | nil => exact ⟨s, bs, rfl, h, rfl, by simp [spared]⟩
  | cons p ps ih =>
    obtain ⟨hnew, hnodup⟩ := List.nodup_cons.mp hnodup
    obtain ⟨s₁, bs₁, hs₁, hrep₁, hst₁, hused₁⟩ := h.kfree_spared (hlive p List.mem_cons_self)
    have hlive₁ : ∀ q ∈ ps, Live s₁ q := by
      intro q hq
      obtain ⟨b, hb, hfree, rfl⟩ := h.live_iff.mp (hlive q (List.mem_cons_of_mem _ hq))
      have hmem : b ∈ used bs₁ := by
        rw [hused₁]
        refine List.mem_filter.mpr ⟨List.mem_filter.mpr ⟨hb, by simp [hfree]⟩, ?_⟩
        simp only [List.mem_singleton, decide_eq_true_eq]
        rintro rfl
        exact hnew hq
      obtain ⟨hmem, hfree'⟩ := List.mem_filter.mp hmem
      exact hrep₁.live_iff.mpr ⟨b, hmem, by simpa using hfree', rfl⟩
    obtain ⟨s', bs', hrun, hrep', hst', hused'⟩ := ih hrep₁ hnodup hlive₁
    refine ⟨s', bs', ?_, hrep', hst'.trans hst₁, ?_⟩
    · rw [List.map_cons, run, step, hs₁, Option.bind_some, hrun]
    · rw [hused', spared, hused₁, spared, spared, List.filter_filter]
      apply List.filter_congr
      intro b _
      rw [Bool.eq_iff_iff]
      simp only [Bool.and_eq_true, decide_eq_true_eq, List.mem_cons, List.not_mem_nil, or_false, not_or]
      exact and_comm

theorem Rep.same_blocks {s t : State} {bs cs : List Block} (hs : Rep s bs) (ht : Rep t cs)
    (hstart : t.heapStartPtr = s.heapStartPtr) (hend : t.heapEndPtr = s.heapEndPtr)
    (hused : used bs = used cs) :
    bs = cs := by
  have htiles := ht.phys.tiles
  rw [hstart, hend] at htiles
  exact tiling_unique hs.phys.tiles htiles hs.coalesced ht.coalesced hused

/-! ### The result -/

def FreesCommute (s : State) : Prop :=
  ∀ p q, Live s p → Live s q → p ≠ q →
    ∃ s₁ s₂, run step s [.kfree p, .kfree q] = some s₁ ∧ run step s [.kfree q, .kfree p] = some s₂ ∧
      blocks s₁ = blocks s₂ ∧ freeBlocks s₁ = freeBlocks s₂

/-- Releasing all live blocks, in any order, brings back the block of `heap_init`. -/
def Drains (kernelEnd : UInt32) (s : State) : Prop :=
  ∀ ps : List UInt32, ps.Perm ((liveMap s).map (·.1)) →
    ∃ s', run step s (ps.map .kfree) = some s' ∧ Rep s' [initialBlock kernelEnd] ∧
      blocks s' = [initialBlock kernelEnd] ∧ freeBlocks s' = [(initialBlock kernelEnd).addr]

theorem Rep.freesCommute (h : Rep s bs) : FreesCommute s := by
  intro p q hp hq hne
  have hpq : [p, q].Nodup := by simpa using hne
  have hqp : [q, p].Nodup := by simpa using hne.symm
  obtain ⟨s₁, bs₁, hrun₁, hrep₁, hst₁, hused₁⟩ := h.run_kfree hpq (by simp [hp, hq])
  obtain ⟨s₂, bs₂, hrun₂, hrep₂, hst₂, hused₂⟩ := h.run_kfree hqp (by simp [hp, hq])
  have hsame : bs₁ = bs₂ := by
    refine hrep₁.same_blocks hrep₂ ?_ ?_ ?_
    · rw [statics_start hst₁, statics_start hst₂]
    · rw [statics_end hst₁, statics_end hst₂]
    · rw [hused₁, hused₂, spared, spared]
      apply List.filter_congr
      intro b _
      simp [and_comm]
  refine ⟨s₁, s₂, hrun₁, hrun₂, ?_, ?_⟩
  · rw [hrep₁.blocks_eq, hrep₂.blocks_eq, hsame]
  · rw [hrep₁.freeBlocks_eq, hrep₂.freeBlocks_eq, hsame]

theorem Rep.drains (h : Rep s bs) {kernelEnd : UInt32} (hfits : HeapFits kernelEnd)
    (hstart : s.heapStartPtr = heapAlignUp kernelEnd heapAlignment) : Drains kernelEnd s := by
  intro ps hperm
  have hnodup : ps.Nodup := hperm.nodup_iff.mpr (h.liveMap_sorted.imp (fun hlt heq => by
    rw [heq] at hlt
    exact UInt32.lt_irrefl _ hlt))
  obtain ⟨s', bs', hrun, hrep, hst, hused⟩ := h.run_kfree hnodup (fun p hp => hperm.mem_iff.mp hp)
  have hnone : used bs' = [] := by
    rw [hused, spared, List.filter_eq_nil_iff]
    intro b hb
    obtain ⟨hmem, hfree⟩ := List.mem_filter.mp hb
    have hp : heapBlockPayloadAddress b.addr ∈ ps :=
      hperm.mem_iff.mpr (h.live_iff.mpr ⟨b, hmem, by simpa using hfree, rfl⟩)
    simp [hp]
  -- the block of `heap_init` tiles the same region
  have hinit := heapInit_rep hfits s
  have hinitStart : (heapInit kernelEnd s).heapStartPtr = s'.heapStartPtr := by
    rw [statics_start hst, hstart]
    exact (heapInit_sound hfits s).1
  have hinitEnd : (heapInit kernelEnd s).heapEndPtr = s'.heapEndPtr := by
    apply UInt32.toNat_inj.mp
    rw [hinit.phys.region.span, hrep.phys.region.span, hinitStart]
  have hsame : bs' = [initialBlock kernelEnd] := hrep.same_blocks hinit hinitStart hinitEnd hnone
  subst hsame
  exact ⟨s', hrun, hrep, hrep.blocks_eq, hrep.freeBlocks_eq⟩

theorem Lost.not_drains (h : Lost s) (kernelEnd : UInt32) : ¬Drains kernelEnd s := by
  intro hd
  obtain ⟨s', hrun, _, hblocks, _⟩ := hd [] (by rw [h.1.liveMap_eq]; exact List.Perm.refl _)
  obtain rfl : s = s' := Option.some.inj hrun
  rw [h.1.blocks_eq] at hblocks
  cases hblocks

/-- In every run from `heap_init`, the heap ends in a state in which releases commute and drain it
exactly when no step of the run was a `kcalloc` whose product rounds to zero. -/
theorem frees_commute_and_drain_iff {kernelEnd : UInt32} (hfits : HeapFits kernelEnd) (s₀ : State)
    (ops : List Op) (hcaller : Allowed step CallerOk (heapInit kernelEnd s₀) ops) :
    ∃ s', run step (heapInit kernelEnd s₀) ops = some s' ∧
      ((FreesCommute s' ∧ Drains kernelEnd s') ↔
        Allowed step (fun s op => ¬Wraps s op) (heapInit kernelEnd s₀) ops) := by
  obtain ⟨s', hrun, hend⟩ := run_sound (heapInit_sound hfits s₀) hcaller
  refine ⟨s', hrun, ?_⟩
  rcases hend with ⟨⟨hstart, bs, hrep⟩, hno⟩ | ⟨hlost, hwrap⟩
  · exact iff_of_true ⟨hrep.freesCommute, hrep.drains hfits hstart⟩ hno
  · exact iff_of_false (fun h => hlost.not_drains kernelEnd h.2) hwrap

theorem frees_commute_and_drain_two_calls :
    ∃ s', run step (heapInit 0x00200000 bootState) [.kmalloc 100, .kmalloc 200] = some s' ∧
      FreesCommute s' ∧ Drains 0x00200000 s' := by
  obtain ⟨s', hrun, hiff⟩ := frees_commute_and_drain_iff (by decide : HeapFits 0x00200000) bootState
    [.kmalloc 100, .kmalloc 200] ⟨trivial, fun _ _ => ⟨trivial, fun _ _ => trivial⟩⟩
  exact ⟨s', hrun, hiff.mpr ⟨fun h => h, fun _ _ => ⟨fun h => h, fun _ _ => trivial⟩⟩⟩

/-- After `kcalloc(0xFFFFFFFF, 1)` the release of the block that it returned does not bring the heap
back. -/
theorem wrapped_kcalloc_not_drained :
    ∃ p s' s'', kcalloc (heapInit 0x00200000 bootState) 0xFFFFFFFF 1 = some (p, s') ∧ p ≠ 0 ∧
      kfree s' p = some s'' ∧ blocks s'' = [] ∧ ¬Drains 0x00200000 s' := by
  have hfits : HeapFits 0x00200000 := by decide
  have hrep := heapInit_rep hfits bootState
  obtain ⟨p, s', hk, hlost⟩ := kcalloc_lost_at_boot
  have hp : p ≠ 0 := by
    rintro rfl
    rw [kcalloc_eq, if_neg (by decide)] at hk
    rcases kmalloc_cases hrep (0xFFFFFFFF * 1) with
      ⟨hnull, _⟩ | ⟨xs, b, ys, t, _, hsplit, _, _, _, hserved, _, _⟩
    · rw [hnull] at hk
      obtain rfl : heapInit 0x00200000 bootState = s' := by simpa using hk
      exact hrep.not_wiped hlost.1
    · have hb : b ∈ [initialBlock 0x00200000] := by simp [hsplit]
      have hpay := hrep.phys.payload_toNat hb
      rw [hserved] at hk
      dsimp only at hk
      split at hk
      · next hzero =>
        rw [hzero] at hpay
        simp at hpay
      · next hpos => exact hpos (Prod.mk.inj (Option.some.inj hk)).1
  rcases hlost.1.kfree_noted hlost.2 hp with hfree | hfree
  · exact ⟨p, s', _, hk, hp, hfree, Wiped.blocks_eq hlost.1, hlost.not_drains _⟩
  · exact ⟨p, s', _, hk, hp, hfree, Wiped.blocks_eq hlost.1, hlost.not_drains _⟩

end TermobKernel.Heap

import TermobKernel.Heap.System

/-!
# The heap as an allocator

What the callers see of the heap is the live map, and what they rely on is stated here for every run: which
requests are really covered by the block that comes back, and that `kmalloc` and `kfree` insert and remove
exactly one entry. The latter holds exactly as long as no `kcalloc` has wrapped.
-/

namespace TermobKernel.Heap
open Word Dll Runs

variable {s : State} {bs : List Block} {kernelEnd : UInt32}

/-- A state that a run from `heap_init` reaches, with callers that keep to the bytes they own. -/
def Reachable (kernelEnd : UInt32) (s : State) : Prop :=
  ∃ s₀ ops, Allowed step CallerOk (heapInit kernelEnd s₀) ops ∧
    run step (heapInit kernelEnd s₀) ops = some s

theorem Reachable.sound_or_lost (hfits : HeapFits kernelEnd)
    (h : Reachable kernelEnd s) : Sound (heapAlignUp kernelEnd heapAlignment) s ∨ Lost s := by
  obtain ⟨s₀, ops, hok, hrun⟩ := h
  obtain ⟨s', hs', hend⟩ := run_sound (heapInit_sound hfits s₀) hok
  obtain rfl : s' = s := by simpa [hrun] using hs'.symm
  exact hend.imp And.left And.left

theorem Reachable.cases (hfits : HeapFits kernelEnd) (h : Reachable kernelEnd s) :
    (∃ bs, Rep s bs) ∨ Lost s :=
  (h.sound_or_lost hfits).imp_left And.right

/-! ### Requests and the blocks that serve them -/

def Covers (s : State) (p : UInt32) (n : Nat) : Prop := n ≤ (s.get .sizeBytes (p - heapHeaderSize)).toNat

theorem heapBlockPayloadAddress_sub (block : UInt32) :
    heapBlockPayloadAddress block - heapHeaderSize = block :=
  UInt32.add_sub_cancel block heapHeaderSize

theorem Rep.kmalloc_covers (h : Rep s bs) (size : UInt32) :
    ∃ p s', kmalloc s size = some (p, s') ∧ ((p ≠ 0 → Covers s' p size.toNat) ↔
        ¬RoundsToZero s size.toNat) := by
  rcases kmalloc_cases h size with ⟨hk, hnone⟩ | ⟨xs, b, ys, s', _, rfl, hb, hfit, _, hk, hrep, _⟩
  · refine ⟨0, s, hk, iff_of_true (fun h0 => absurd rfl h0) ?_⟩
    rintro ⟨h1, _, h3, _⟩
    rcases hnone with rfl | hff
    · exact absurd h1 (by simp)
    · rw [heapAlignUp_wrap h1] at hff
      exact h3 (h.freeList_eq_zero hff)
  · have hmem := served_mem xs ys b (heapAlignUp size heapAlignment)
    have hsize := hrep.phys.header _ hmem
    obtain ⟨hge, hle⟩ := served_size hfit
    rw [UInt32.le_iff_toNat_le] at hge hle
    have hp0 : heapBlockPayloadAddress b.addr ≠ 0 := h.phys.payload_ne_zero (by simp)
    have hget : s'.get .sizeBytes (heapBlockPayloadAddress b.addr - heapHeaderSize) =
        (served b (heapAlignUp size heapAlignment)).size := by
      rw [heapBlockPayloadAddress_sub, ← hsize.size, served_addr]
    refine ⟨_, s', hk, ?_⟩
    unfold Covers
    rw [hget]
    by_cases hbig : 2 ^ 32 - 16 < size.toNat
    · -- the block is smaller than the region, the request is not
      have hstop := (tiles_bounds h.phys.tiles (b := b) (by simp)).2.1
      have hlo := (tiles_bounds h.phys.tiles (b := b) (by simp)).1
      have hspan := h.phys.region.span
      simp only [Block.stop] at hstop
      obtain ⟨hf0, hfs⟩ := h.freeList (b := b) (by simp) hb
      refine iff_of_false (fun hc => ?_) (fun hn => hn ⟨hbig, size.toNat_lt, hf0, hfs⟩)
      have := hc hp0
      omega
    · have hround : size.toNat ≤ (heapAlignUp size heapAlignment).toNat := heapAlignUp_ge (by omega)
      exact iff_of_true (fun _ => by omega) (fun hr => hbig hr.1)

/-- For every reachable state and every request: the block that `kmalloc` returns has the bytes
asked for, and `kcalloc` clears bytes of its own block only, exactly when the request is not one of
the fifteen largest sizes met by a free list that starts with a sane block. -/
theorem allocation_covers_iff {kernelEnd : UInt32} (hfits : HeapFits kernelEnd) {s : State}
    (h : Reachable kernelEnd s) :
    (∀ size, (∃ p s', kmalloc s size = some (p, s') ∧ (p ≠ 0 → Covers s' p size.toNat)) ↔
        ¬RoundsToZero s size.toNat) ∧
      ∀ count size,
        (∃ p s', kcalloc s count size = some (p, s') ∧
          (p ≠ 0 → ∃ t, kmalloc s (count * size) = some (p, t) ∧
            s' = heapZeroBytes t p (requested count size) ∧ Covers t p (requested count size))) ↔
        ¬RoundsToZero s (requested count size) := by
  rcases h.cases hfits with ⟨bs, hrep⟩ | hlost
  · constructor
    · intro size
      obtain ⟨p, s', hk, hiff⟩ := hrep.kmalloc_covers size
      rw [← hiff]
      constructor
      · rintro ⟨p', t, hk', hc⟩
        obtain ⟨rfl, rfl⟩ : p = p' ∧ s' = t := by simpa [hk] using hk'
        exact hc
      · exact fun hc => ⟨p, s', hk, hc⟩
    · intro count size
      rw [kcalloc_eq]
      by_cases hout : requested count size = 0 ∨ 2 ^ 32 ≤ requested count size
      · rw [if_pos hout]
        refine iff_of_true ⟨0, s, rfl, fun h0 => absurd rfl h0⟩ ?_
        rintro ⟨h1, h2, _⟩
        omega
      · rw [if_neg hout]
        have hreq : (count * size).toNat = requested count size :=
          toNat_mul_of_lt (by unfold requested at hout; omega)
        obtain ⟨p, t, hk, hiff⟩ := hrep.kmalloc_covers (count * size)
        rw [hreq] at hiff
        rw [← hiff, hk]
        by_cases hp : p = 0
        · simp only [hp, if_true]
          exact iff_of_true ⟨0, t, rfl, fun h0 => absurd rfl h0⟩ (fun h0 => absurd rfl h0)
        · simp only [if_neg hp]
          constructor
          · rintro ⟨p', s', hs', hc⟩
            obtain ⟨rfl, rfl⟩ : p = p' ∧ heapZeroBytes t p (requested count size) = s' := by simpa using hs'
            obtain ⟨t', ht', _, hcov⟩ := hc hp
            obtain rfl : t = t' := by simpa using ht'
            exact fun _ => hcov
          · exact fun hc => ⟨p, _, rfl, fun h0 => ⟨t, rfl, rfl, hc h0⟩⟩
  · -- nothing is handed out any more
    have hno : ∀ n, ¬RoundsToZero s n := by
      rintro n ⟨_, _, _, hsane⟩
      rw [hlost.1.not_sane] at hsane
      exact absurd hsane (by simp)
    constructor
    · intro size
      refine iff_of_true ?_ (hno _)
      rcases hlost.1.kmalloc_null size with hk | hk
      · exact ⟨0, _, hk, fun h0 => absurd rfl h0⟩
      · exact ⟨0, _, hk, fun h0 => absurd rfl h0⟩
    · intro count size
      refine iff_of_true ?_ (hno _)
      rcases hlost.1.kcalloc_null count size with hk | hk
      · exact ⟨0, _, hk, fun h0 => absurd rfl h0⟩
      · exact ⟨0, _, hk, fun h0 => absurd rfl h0⟩

theorem reachable_init : Reachable kernelEnd (heapInit kernelEnd bootState) :=
  ⟨bootState, [], trivial, rfl⟩

theorem kmalloc_served_at_boot :
    ∃ p s', kmalloc (heapInit 0x00200000 bootState) 100 = some (p, s') ∧ p ≠ 0 := by
  have hrep := heapInit_rep (show HeapFits 0x00200000 by decide) bootState
  rcases kmalloc_cases hrep 100 with ⟨_, hnone⟩ | ⟨xs, b, ys, t, _, hsplit, _, _, _, hk, _, _⟩
  · exact absurd hnone (by decide)
  · have hb : b ∈ [initialBlock 0x00200000] := by simp [hsplit]
    obtain rfl := List.mem_singleton.mp hb
    exact ⟨_, t, hk, by decide⟩

/-- A request of a hundred bytes right after `heap_init`. -/
theorem allocation_covers_at_boot :
    HeapFits 0x00200000 ∧ Reachable 0x00200000 (heapInit 0x00200000 bootState) ∧
      ∃ p s', kmalloc (heapInit 0x00200000 bootState) 100 = some (p, s') ∧ p ≠ 0 ∧ Covers s' p 100 := by
  obtain ⟨p, s', hk, hp⟩ := kmalloc_served_at_boot
  have hround : ¬RoundsToZero (heapInit 0x00200000 bootState) (100 : UInt32).toNat := fun h =>
    absurd h.1 (by decide)
  obtain ⟨q, t, hq, hcovers⟩ := ((allocation_covers_iff (by decide) reachable_init).1 100).mpr hround
  rw [hk] at hq
  obtain ⟨rfl, rfl⟩ := Prod.mk.inj (Option.some.inj hq)
  exact ⟨by decide, reachable_init, p, s', hk, hp, hcovers hp⟩

/-- Right after `heap_init` both `kmalloc(0xFFFFFFFF)` and `kcalloc(0xFFFFFFFF, 1)` hand out a block that is
not what was asked for. -/
theorem largest_request_not_covered :
    (∃ p s', kmalloc (heapInit 0x00200000 bootState) 0xFFFFFFFF = some (p, s') ∧ p ≠ 0 ∧
        ¬Covers s' p (0xFFFFFFFF : UInt32).toNat) ∧
      ∃ p t, kcalloc (heapInit 0x00200000 bootState) 0xFFFFFFFF 1 =
          some (p, heapZeroBytes t p (requested 0xFFFFFFFF 1)) ∧ p ≠ 0 ∧
        kmalloc (heapInit 0x00200000 bootState) (0xFFFFFFFF * 1) = some (p, t) ∧
        ¬Covers t p (requested 0xFFFFFFFF 1) := by
  have hrep := heapInit_rep (show HeapFits 0x00200000 by decide) bootState
  have hfree := hrep.freeList (List.mem_singleton_self _) rfl
  obtain ⟨p, s', hk, hiff⟩ := hrep.kmalloc_covers 0xFFFFFFFF
  have hnot : ¬(p ≠ 0 → Covers s' p (0xFFFFFFFF : UInt32).toNat) := by
    rw [hiff, not_not]
    exact ⟨by decide, by decide, hfree⟩
  obtain ⟨hp, hcov⟩ := Classical.not_imp.mp hnot
  refine ⟨⟨p, s', hk, hp, hcov⟩, p, s', ?_, hp, hk, hcov⟩
  rw [kcalloc_eq, if_neg (by decide), show (0xFFFFFFFF : UInt32) * 1 = 0xFFFFFFFF from rfl, hk]
  exact if_neg hp

/-! ### Inserting and removing entries -/

def Clear (p n q m : Nat) : Prop := p + n ≤ q ∨ q + m ≤ p

theorem Clear.mono {p n n' q m m' : Nat} (h : Clear p n q m) (hn : n' ≤ n) (hm : m' ≤ m) :
    Clear p n' q m' := by
  unfold Clear at h ⊢
  omega

/-- Memory, region and both lists are the same; only diagnostics may differ. -/
structure OnlyNoted (s s' : State) : Prop where
  mem : s'.mem = s.mem
  heapStartPtr : s'.heapStartPtr = s.heapStartPtr
  heapEndPtr : s'.heapEndPtr = s.heapEndPtr
  heapFirstBlock : s'.heapFirstBlock = s.heapFirstBlock
  heapFreeList : s'.heapFreeList = s.heapFreeList
  heapReady : s'.heapReady = s.heapReady

theorem onlyNoted_note (s : State) (flag : UInt32) (message : String) :
    OnlyNoted s (heapNoteError s flag message) := ⟨rfl, rfl, rfl, rfl, rfl, rfl⟩

theorem blockAt_of_mem (h : Rep s bs) {b : Block} (hb : b ∈ bs) :
    blockAt bs (heapBlockPayloadAddress b.addr) = some b := by
  obtain ⟨c, hc⟩ : ∃ c, blockAt bs (heapBlockPayloadAddress b.addr) = some c := by
    refine Option.isSome_iff_exists.mp (List.find?_isSome.mpr ⟨b, hb, by simp⟩)
  have hmem : c ∈ bs := List.mem_of_find?_eq_some hc
  have hpay : heapBlockPayloadAddress c.addr = heapBlockPayloadAddress b.addr := by
    simpa using List.find?_some hc
  have haddr : c.addr = b.addr := by
    rw [← heapBlockPayloadAddress_sub c.addr, hpay, heapBlockPayloadAddress_sub]
  rw [hc, tiles_addr_inj h.phys.tiles hmem hb haddr]

theorem Rep.entry_mem (h : Rep s bs) {p n : UInt32} :
    (p, n) ∈ liveMap s ↔ ∃ b ∈ bs, b.free = false ∧ heapBlockPayloadAddress b.addr = p ∧ b.size = n := by
  rw [h.liveMap_eq, List.mem_map]
  constructor
  · rintro ⟨b, hb, he⟩
    obtain ⟨hmem, hfree⟩ := List.mem_filter.mp hb
    obtain ⟨rfl, rfl⟩ := Prod.mk.inj he
    exact ⟨b, hmem, by simpa using hfree, rfl, rfl⟩
  · rintro ⟨b, hb, hfree, rfl, rfl⟩
    exact ⟨b, List.mem_filter.mpr ⟨hb, by simpa using hfree⟩, rfl⟩

section rep
variable {s : State} {bs : List Block} (h : Rep s bs)
variable {p n : UInt32}
include h

theorem Rep.liveMap_sorted : ((liveMap s).map (·.1)).Pairwise (· < ·) := by
  have hsorted := (tiles_sorted h.phys.tiles).filter fun b => !b.free
  rw [h.liveMap_eq, List.map_map]
  refine List.pairwise_map.mpr (hsorted.imp_of_mem fun {b c} hb hc hle => ?_)
  have hbp := h.phys.payload_toNat (List.mem_filter.mp hb).1
  have hcp := h.phys.payload_toNat (List.mem_filter.mp hc).1
  simp only [Block.stop] at hle
  simp only [Function.comp_apply, Block.entry]
  rw [UInt32.lt_iff_toNat_lt, hbp, hcp]
  omega

theorem Rep.live_range (hp : (p, n) ∈ liveMap s) :
    s.heapStartPtr.toNat ≤ p.toNat ∧ p.toNat + n.toNat ≤ s.heapEndPtr.toNat := by
  obtain ⟨b, hb, _, rfl, rfl⟩ := h.entry_mem.mp hp
  obtain ⟨hlo, hhi, _⟩ := tiles_bounds h.phys.tiles hb
  rw [h.phys.payload_toNat hb]
  simp only [Block.stop] at hhi
  omega

theorem Rep.live_clear {p n q m : UInt32} (hp : (p, n) ∈ liveMap s) (hq : (q, m) ∈ liveMap s)
    (hne : p ≠ q) :
    Clear p.toNat n.toNat q.toNat m.toNat := by
  obtain ⟨b, hb, _, rfl, rfl⟩ := h.entry_mem.mp hp
  obtain ⟨c, hc, _, rfl, rfl⟩ := h.entry_mem.mp hq
  rw [h.phys.payload_toNat hb, h.phys.payload_toNat hc, Clear]
  rcases tiles_disjoint h.phys.tiles hb hc with rfl | hle | hle
  · exact absurd rfl hne
  · simp only [Block.stop] at hle
    omega
  · simp only [Block.stop] at hle
    omega

theorem Rep.kmalloc_inserts {size p : UInt32} {s' : State} (hk : kmalloc s size = some (p, s'))
    (hp : p ≠ 0) :
    ∃ us vs n, liveMap s = us ++ vs ∧ liveMap s' = us ++ (p, n) :: vs ∧ p.toNat % 16 = 0 ∧
      s.heapStartPtr.toNat ≤ p.toNat ∧ p.toNat + n.toNat ≤ s.heapEndPtr.toNat ∧
      (∀ b ∈ blocks s', Clear p.toNat n.toNat b.addr.toNat 32) ∧
      ∀ e ∈ us ++ vs, Clear p.toNat n.toNat e.1.toNat e.2.toNat := by
  rcases kmalloc_cases h size with ⟨hnull, _⟩ | ⟨xs, b, ys, t, _, rfl, hb, _, _, hk', hrep, hst⟩
  · have hnp : 0 = p ∧ s = s' := by simpa [hnull] using hk
    exact absurd hnp.1.symm hp
  · obtain ⟨rfl, rfl⟩ : heapBlockPayloadAddress b.addr = p ∧ t = s' := by simpa [hk'] using hk
    generalize heapAlignUp size heapAlignment = need at hrep
    have hmem := served_mem xs ys b need
    have hpay := hrep.phys.payload_toNat hmem
    have htiles := hrep.phys.tiles
    obtain ⟨hlo, hhi, _⟩ := tiles_bounds htiles hmem
    have halign := (tiles_aligned htiles hrep.phys.region.aligned).2 _ hmem
    rw [statics_start hst.statics] at hlo
    rw [statics_end hst.statics] at hhi
    have hold : liveMap s = (used xs).map Block.entry ++ (used ys).map Block.entry := by
      rw [h.liveMap_eq, used_append, used_cons_free hb, List.map_append]
    have hnew : liveMap t =
        (used xs).map Block.entry ++ (served b need).entry :: (used ys).map Block.entry := by
      rw [hrep.liveMap_eq, used_append, used_taken, List.map_append, List.map_cons]
    have hentry : (served b need).entry = (heapBlockPayloadAddress b.addr, (served b need).size) := by
      rw [Block.entry, served_addr]
    rw [served_addr] at hpay halign hlo
    simp only [Block.stop, served_addr] at hhi
    -- every other block lies wholly on one side of the new one
    have hside : ∀ c ∈ xs ++ (taken b need ++ ys), c = served b need ∨
        b.addr.toNat + 32 + (served b need).size.toNat ≤ c.addr.toNat ∨ c.stop ≤ b.addr.toNat := by
      intro c hc
      have hdis := tiles_disjoint htiles hmem hc
      simp only [Block.stop, served_addr] at hdis ⊢
      rcases hdis with heq | hle | hle
      · exact Or.inl heq.symm
      · exact Or.inr (Or.inl hle)
      · exact Or.inr (Or.inr hle)
    refine ⟨_, _, (served b need).size, hold, by rw [hnew, hentry], by omega, by omega,
      by omega, fun c hc => ?_, fun e he => ?_⟩
    · rw [hrep.blocks_eq] at hc
      unfold Clear
      rcases hside c hc with rfl | hle | hle
      · rw [served_addr]
        omega
      · omega
      · simp only [Block.stop] at hle
        omega
    · rw [← List.map_append] at he
      obtain ⟨c, hc, rfl⟩ := List.mem_map.mp he
      have hcmem : c ∈ xs ∨ c ∈ ys := by
        rw [← used_append] at hc
        exact List.mem_append.mp (List.mem_filter.mp hc).1
      have hc' : c ∈ xs ++ (taken b need ++ ys) := by
        rcases hcmem with hx | hy
        · simp [hx]
        · simp [hy]
      have hcpay := hrep.phys.payload_toNat hc'
      -- it is not the new block: it lies before or behind the block that was free
      have hne : c.stop ≤ b.addr.toNat ∨ b.stop ≤ c.addr.toNat := by
        obtain ⟨h1, _, h3⟩ := tiles_middle.mp h.phys.tiles
        rcases hcmem with hx | hy
        · exact Or.inl (tiles_bounds h1 hx).2.1
        · exact Or.inr (tiles_bounds h3 hy).1
      simp only [Block.entry, Clear, hcpay, hpay]
      simp only [Block.stop] at hne
      rcases hside c hc' with rfl | hle | hle
      · rw [served_addr] at hne
        omega
      · omega
      · simp only [Block.stop] at hle
        omega

theorem Rep.fill (he : (p, n) ∈ liveMap s) {mem : Mem}
    (hdiff : ∀ a, mem a ≠ s.mem a → p.toNat ≤ a.toNat ∧ a.toNat < p.toNat + n.toNat) :
    Rep { s with mem := mem } bs := by
  obtain ⟨b, hb, _, rfl, rfl⟩ := h.entry_mem.mp he
  refine h.payload hb fun a ha => ?_
  have hin := hdiff a ha
  rw [h.phys.payload_toNat hb] at hin
  exact hin

theorem Rep.fill_byte {p n address : UInt32} (he : (p, n) ∈ liveMap s) (hlo : p.toNat ≤ address.toNat)
    (hhi : address.toNat < p.toNat + n.toNat) (value : UInt8) :
    Rep { s with mem := s.mem.store8 address value } bs ∧
      liveMap { s with mem := s.mem.store8 address value } = liveMap s := by
  have hrep : Rep { s with mem := s.mem.store8 address value } bs := by
    refine h.fill he fun a ha => ?_
    have haddress : a = address := by
      by_contra hne
      exact ha (if_neg hne)
    rw [haddress]
    exact ⟨hlo, hhi⟩
  exact ⟨hrep, by rw [hrep.liveMap_eq, h.liveMap_eq]⟩

theorem Rep.kcalloc_spec {count size : UInt32} (hsmall : requested count size ≤ 2 ^ 32 - 16) :
    ∃ p s' bs', kcalloc s count size = some (p, s') ∧ Rep s' bs' ∧ s'.statics = s.statics ∧
      ((p = 0 ∧ s' = s ∧
          (requested count size = 0 ∨ firstFit bs (heapAlignUp (count * size) heapAlignment) = none)) ∨
        (p ≠ 0 ∧ ∃ n : UInt32, requested count size ≤ n.toNat ∧ s.heapStartPtr.toNat ≤ p.toNat ∧
          p.toNat + n.toNat ≤ s.heapEndPtr.toNat ∧ (∀ m, (p, m) ∉ liveMap s) ∧
          ∀ e, e ∈ liveMap s' ↔ e = (p, n) ∨ e ∈ liveMap s)) := by
  rcases h.kcalloc_served count size with
    ⟨hk, hnone⟩ | ⟨xs, b, ys, t, hreq, _, rfl, hb, hfit, hp0, hk, hrep, hst, hk'⟩
  · refine ⟨0, s, bs, hk, h, rfl, Or.inl ⟨rfl, rfl, ?_⟩⟩
    rcases hnone with h0 | hout | ⟨_, hff⟩
    · exact Or.inl h0
    · omega
    · exact Or.inr hff
  · have hround : (count * size).toNat ≤ (heapAlignUp (count * size) heapAlignment).toNat :=
      heapAlignUp_ge (by omega)
    have hzero := hrep.zero hfit (show requested count size ≤
      (heapAlignUp (count * size) heapAlignment).toNat by omega)
    refine ⟨_, _, _, hk', hzero, ?_, Or.inr ⟨hp0, ?_⟩⟩
    · rw [heapZeroBytes_eq t _ _ (by omega)]
      exact hst.statics
    · -- the live map is the one that `kmalloc` left, and its keys are distinct
      have hlive : liveMap (heapZeroBytes t (heapBlockPayloadAddress b.addr)
          (requested count size)) = liveMap t := by
        rw [hzero.liveMap_eq, hrep.liveMap_eq]
      obtain ⟨us, vs, n, hold, hnew, _, hlo, hhi, _⟩ := h.kmalloc_inserts hk hp0
      have hsorted := hrep.liveMap_sorted
      have hcover : requested count size ≤ n.toNat := by
        have hmem : (heapBlockPayloadAddress b.addr, n) ∈ liveMap t := by simp [hnew]
        obtain ⟨c, hc, _, hcp, rfl⟩ := hrep.entry_mem.mp hmem
        have hserved := served_mem xs ys b (heapAlignUp (count * size) heapAlignment)
        have haddr : c.addr = (served b (heapAlignUp (count * size) heapAlignment)).addr := by
          rw [served_addr, ← heapBlockPayloadAddress_sub c.addr, hcp, heapBlockPayloadAddress_sub]
        have hsize := (served_size hfit).1
        rw [tiles_addr_inj hrep.phys.tiles hc hserved haddr]
        rw [UInt32.le_iff_toNat_le] at hsize
        omega
      rw [hlive]
      refine ⟨n, hcover, hlo, hhi, fun m hm => ?_, fun e => ?_⟩
      · rw [hold] at hm
        rw [hnew, List.map_append, List.map_cons, List.pairwise_append, List.pairwise_cons] at hsorted
        obtain ⟨_, ⟨hbehind, _⟩, hbefore⟩ := hsorted
        rcases List.mem_append.mp hm with hu | hv
        · exact UInt32.lt_irrefl _ (hbefore _ (List.mem_map_of_mem hu) _ (List.mem_cons_self ..))
        · exact UInt32.lt_irrefl _ (hbehind _ (List.mem_map.mpr ⟨_, hv, rfl⟩))
      · rw [hnew, hold]
        simp only [List.mem_append, List.mem_cons]
        tauto

theorem Rep.kfree_removes (hp : (p, n) ∈ liveMap s) :
    ∃ s' us vs, kfree s p = some s' ∧ liveMap s = us ++ (p, n) :: vs ∧ liveMap s' = us ++ vs := by
  obtain ⟨b, hb, hfree, rfl, rfl⟩ := h.entry_mem.mp hp
  obtain ⟨xs, ys, rfl⟩ := List.append_of_mem hb
  obtain ⟨s', hs', hrep, _⟩ := kfree_used h hfree
  refine ⟨s', (used xs).map Block.entry, (used ys).map Block.entry, hs', ?_, ?_⟩
  · rw [h.liveMap_eq, used_append, used_cons_used hfree, List.map_append, List.map_cons]
    rfl
  · rw [hrep.liveMap_eq, released, used_coalesced _ rfl, used_append, List.map_append]

end rep

/-! ### What a lost heap still has -/

theorem Rep.kcalloc_statics {s s' : State} (h : Rep s bs) {count size p : UInt32}
    (hk : kcalloc s count size = some (p, s')) : s'.statics = s.statics := by
  rcases h.kcalloc_served count size with ⟨hk', _⟩ | ⟨xs, b, ys, t, hreq, _, rfl, _, _, _, _, _, hkept, hk'⟩
  · rw [hk'] at hk
    cases hk
    rfl
  · have hlt := (count * size).toNat_lt
    rw [hk'] at hk
    cases hk
    rw [heapZeroBytes_eq t _ _ (by omega)]
    exact hkept.statics

/-- No step moves the region or the start of the physical chain, a wrapped `kcalloc` included. -/
theorem step_region {start : UInt32} {s s' : State} (h : Sound start s ∨ Lost s)
    (hregion : Region s ∧ s.heapFirstBlock ≠ 0) {op : Op} (hok : CallerOk s op)
    (hstep : step s op = some s') :
    Region s' ∧ s'.heapFirstBlock ≠ 0 := by
  rcases h with hsound | hlost
  · obtain ⟨t, ht, ⟨⟨_, bs, hrep⟩, _⟩ | ⟨_, hwrap⟩⟩ := step_sound hsound hok
    · obtain rfl : t = s' := Option.some.inj (ht.symm.trans hstep)
      exact ⟨hrep.phys.region, hrep.heapFirstBlock_ne_zero⟩
    · obtain ⟨_, bs, hrep⟩ := hsound
      cases op with
      | kcalloc count size =>
        obtain ⟨⟨p, u⟩, hk, rfl⟩ := Option.map_eq_some_iff.mp hstep
        have hst := hrep.kcalloc_statics hk
        refine ⟨hregion.1.of_statics hst, ?_⟩
        rw [statics_first hst]
        exact hregion.2
      | kmalloc _ => exact hwrap.elim
      | kfree _ => exact hwrap.elim
      | write _ _ => exact hwrap.elim
  · obtain ⟨t, ht, _, hsame⟩ := step_lost hlost hok
    obtain rfl : t = s' := Option.some.inj (ht.symm.trans hstep)
    rw [hsame]
    exact ⟨⟨hregion.1.ready, hregion.1.start_pos, hregion.1.aligned, hregion.1.span⟩, hregion.2⟩

theorem Reachable.region (hfits : HeapFits kernelEnd) (h : Reachable kernelEnd s) :
    Region s ∧ s.heapFirstBlock ≠ 0 := by
  obtain ⟨s₀, ops, hok, hrun⟩ := h
  have hstep : ∀ t op, (Sound (heapAlignUp kernelEnd heapAlignment) t ∨ Lost t) ∧ Region t ∧
      t.heapFirstBlock ≠ 0 → CallerOk t op → ∃ t', step t op = some t' ∧
        (Sound (heapAlignUp kernelEnd heapAlignment) t' ∨ Lost t') ∧ Region t' ∧ t'.heapFirstBlock ≠ 0 := by
    rintro t op ⟨ht, hregion⟩ hop
    obtain ⟨t', hstep, hend⟩ : ∃ t', step t op = some t' ∧
        (Sound (heapAlignUp kernelEnd heapAlignment) t' ∨ Lost t') := by
      rcases ht with hsound | hlost
      · obtain ⟨t', hstep, hend⟩ := step_sound hsound hop
        exact ⟨t', hstep, hend.imp And.left And.left⟩
      · obtain ⟨t', hstep, hend, _⟩ := step_lost hlost hop
        exact ⟨t', hstep, Or.inr hend⟩
    exact ⟨t', hstep, hend, step_region ht hregion hop hstep⟩
  have hrep := heapInit_rep hfits s₀
  obtain ⟨s', hs', _, hend⟩ := run_invariant hstep
    ⟨Or.inl (heapInit_sound hfits s₀), hrep.phys.region, hrep.heapFirstBlock_ne_zero⟩ hok
  obtain rfl : s' = s := by simpa [hrun] using hs'.symm
  exact hend

/-! ### The result -/

/-- What callers rely on, in terms of the live map. A successful `kmalloc` inserts one entry,
aligned, inside the region and clear of every header and every other entry. `kfree` of a live
address removes its entry; of any other address but null it changes no list and records what was
wrong: a double free for the payload of a free block, an invalid free otherwise. -/
structure RefinesAllocator (s : State) : Prop where
  sorted : ((liveMap s).map (·.1)).Pairwise (· < ·)
  inserts : ∀ size p s', kmalloc s size = some (p, s') → p ≠ 0 →
    ∃ us vs n, liveMap s = us ++ vs ∧ liveMap s' = us ++ (p, n) :: vs ∧ p.toNat % 16 = 0 ∧
      s.heapStartPtr.toNat ≤ p.toNat ∧ p.toNat + n.toNat ≤ s.heapEndPtr.toNat ∧
      (∀ b ∈ blocks s', Clear p.toNat n.toNat b.addr.toNat 32) ∧
      ∀ e ∈ us ++ vs, Clear p.toNat n.toNat e.1.toNat e.2.toNat
  removes : ∀ p n, (p, n) ∈ liveMap s →
    ∃ s' us vs, kfree s p = some s' ∧ liveMap s = us ++ (p, n) :: vs ∧ liveMap s' = us ++ vs
  refuses : ∀ p, p ≠ 0 → (∀ n, (p, n) ∉ liveMap s) →
    ∃ s', kfree s p = some s' ∧ OnlyNoted s s' ∧ blocks s' = blocks s ∧ liveMap s' = liveMap s ∧
      if ∃ b ∈ blocks s, b.free = true ∧ heapBlockPayloadAddress b.addr = p then
        s' = heapNoteError s heapDiagDoubleFree "TERMOB: double free detected"
      else s' = heapNoteError s heapDiagInvalidFree "TERMOB: invalid kfree pointer"

theorem Rep.refinesAllocator (hrep : Rep s bs) : RefinesAllocator s := by
  refine ⟨hrep.liveMap_sorted, fun size p s' hk hp => hrep.kmalloc_inserts hk hp,
    fun p n hp => hrep.kfree_removes hp, fun p hp hdead => ?_⟩
  have hsame : ∀ flag message, blocks (heapNoteError s flag message) = blocks s ∧
      liveMap (heapNoteError s flag message) = liveMap s := by
    intro flag message
    have hn := hrep.note flag message
    rw [hn.blocks_eq, hrep.blocks_eq, hn.liveMap_eq, hrep.liveMap_eq]
    exact ⟨rfl, rfl⟩
  cases hat : blockAt bs p with
  | none =>
    have hno : ¬∃ b ∈ blocks s, b.free = true ∧ heapBlockPayloadAddress b.addr = p := by
      rintro ⟨b, hb, _, rfl⟩
      rw [hrep.blocks_eq] at hb
      rw [blockAt_of_mem hrep hb] at hat
      exact absurd hat (by simp)
    refine ⟨_, kfree_foreign hrep hat hp, onlyNoted_note _ _ _, (hsame _ _).1, (hsame _ _).2, ?_⟩
    rw [if_neg hno]
  | some b =>
    have hmem : b ∈ bs := List.mem_of_find?_eq_some hat
    have hpay : heapBlockPayloadAddress b.addr = p := by simpa using List.find?_some hat
    have hb : b.free = true := by
      by_contra hused
      exact hdead b.size (hrep.entry_mem.mpr ⟨b, hmem, by simpa using hused, hpay, rfl⟩)
    refine ⟨_, kfree_free hrep hat hb hp, onlyNoted_note _ _ _, (hsame _ _).1, (hsame _ _).2, ?_⟩
    rw [if_pos ⟨b, by rwa [hrep.blocks_eq], hb, hpay⟩]

theorem Lost.not_refinesAllocator (h : Lost s) (hregion : Region s) (hfirst : s.heapFirstBlock ≠ 0) :
    ¬RefinesAllocator s := by
  intro hrefines
  obtain ⟨s', hk, _, _, _, hnote⟩ := hrefines.refuses 1 (by decide) (by simp [h.1.liveMap_eq])
  rw [h.1.kfree_corruption hregion hfirst (by decide)] at hk
  rw [if_neg (by simp [h.1.blocks_eq]), ← Option.some.inj hk] at hnote
  have hcount : s.heapDiagErrorCount + 1 + 1 = s.heapDiagErrorCount + 1 :=
    congrArg State.heapDiagErrorCount hnote
  rw [UInt32.add_eq_left] at hcount
  exact absurd hcount (by decide)

/-- In every run from `heap_init`, the heap ends as an allocator, exactly when no step of the run
was a `kcalloc` whose product rounds to zero. -/
theorem heap_refines_allocator_iff {kernelEnd : UInt32} (hfits : HeapFits kernelEnd) (s₀ : State)
    (ops : List Op) (hcaller : Allowed step CallerOk (heapInit kernelEnd s₀) ops) :
    ∃ s', run step (heapInit kernelEnd s₀) ops = some s' ∧
      (RefinesAllocator s' ↔ Allowed step (fun s op => ¬Wraps s op) (heapInit kernelEnd s₀) ops) := by
  obtain ⟨s', hrun, hend⟩ := run_sound (heapInit_sound hfits s₀) hcaller
  refine ⟨s', hrun, ?_⟩
  rcases hend with ⟨⟨_, bs, hrep⟩, hno⟩ | ⟨hlost, hwrap⟩
  · exact iff_of_true hrep.refinesAllocator hno
  · have hreach : Reachable kernelEnd s' := ⟨s₀, ops, hcaller, hrun⟩
    obtain ⟨hregion, hfirst⟩ := hreach.region hfits
    exact iff_of_false (hlost.not_refinesAllocator hregion hfirst) hwrap

/-- One allocation right after `heap_init`, and its release. -/
theorem heap_refines_allocator_round_trip :
    ∃ p n s' s'', kmalloc (heapInit 0x00200000 bootState) 100 = some (p, s') ∧ p ≠ 0 ∧
      liveMap s' = [(p, n)] ∧ kfree s' p = some s'' ∧ liveMap s'' = [] := by
  have hfits : HeapFits 0x00200000 := by decide
  have hempty : liveMap (heapInit 0x00200000 bootState) = [] := by
    rw [(heapInit_rep hfits bootState).liveMap_eq]
    rfl
  obtain ⟨p, s', hk, hp⟩ := kmalloc_served_at_boot
  obtain ⟨t, ht, hboot⟩ := heap_refines_allocator_iff hfits bootState [] trivial
  obtain ⟨t', ht', hafter⟩ := heap_refines_allocator_iff hfits bootState [.kmalloc 100]
    ⟨trivial, fun _ _ => trivial⟩
  obtain rfl : heapInit 0x00200000 bootState = t := Option.some.inj ht
  obtain rfl : s' = t' := by
    rw [run, step, hk] at ht'
    exact Option.some.inj ht'
  obtain ⟨us, vs, n, hold, hnew, _⟩ := (hboot.mpr trivial).inserts 100 p s' hk hp
  obtain ⟨rfl, rfl⟩ := List.append_eq_nil_iff.mp (hold.symm.trans hempty)
  obtain ⟨s'', us, vs, hfree, hbefore, hrest⟩ :=
    (hafter.mpr ⟨fun h => h, fun _ _ => trivial⟩).removes p n (by simp [hnew])
  refine ⟨p, n, s', s'', hk, hp, hnew, hfree, ?_⟩
  have hlen := congrArg List.length (hbefore.symm.trans hnew)
  simp only [List.nil_append, List.length_append, List.length_cons, List.length_nil] at hlen
  rw [hrest]
  exact List.eq_nil_of_length_eq_zero (by simp only [List.length_append]; omega)

/-- After `kcalloc(0xFFFFFFFF, 1)` the release of an address that is no block leaves two notes, the
first of them about a corruption. -/
theorem wrapped_kcalloc_notes_corruption :
    ∃ s', run step (heapInit 0x00200000 bootState) [.kcalloc 0xFFFFFFFF 1] = some s' ∧ liveMap s' = [] ∧
      kfree s' 0x00300000 = some (heapNoteError
        (heapNoteError s' heapDiagCorruption "TERMOB: heap corruption detected during free lookup")
        heapDiagInvalidFree "TERMOB: invalid kfree pointer") ∧
      ¬RefinesAllocator s' := by
  have hfits : HeapFits 0x00200000 := by decide
  obtain ⟨p, s', hk, hlost⟩ := kcalloc_lost_at_boot
  have hrun : run step (heapInit 0x00200000 bootState) [.kcalloc 0xFFFFFFFF 1] = some s' := by
    rw [run, step, hk]
    rfl
  have hreach : Reachable 0x00200000 s' :=
    ⟨bootState, [.kcalloc 0xFFFFFFFF 1], ⟨trivial, fun _ _ => trivial⟩, hrun⟩
  obtain ⟨hregion, hfirst⟩ := hreach.region hfits
  exact ⟨s', hrun, hlost.1.liveMap_eq, hlost.1.kfree_corruption hregion hfirst (by decide),
    hlost.not_refinesAllocator hregion hfirst⟩

end TermobKernel.Heap

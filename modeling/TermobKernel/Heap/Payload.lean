import TermobKernel.Heap.Integrity

/-!
# Payload bytes

What is written into payloads: by the callers, who own the bytes of the blocks they hold, and by `kcalloc`,
which clears the block it returns. A write inside a used payload touches no header. A `kcalloc` whose size
is rounded past the end of the address space is another matter: it clears everything but the few bytes
before the payload, and what is left has no block in it (`Wiped`).
-/

namespace TermobKernel.Heap
open Word Dll

variable {bs : List Block} {s : State}

/-! ### Headers depend on header bytes -/

theorem get_of_bytes {s s' : State} {c : UInt32} (h : ∀ x, (x - c).toNat < 28 → s'.mem x = s.mem x)
    (f : Field) : s'.get f c = s.get f c := by
  refine Mem.load32_congr (fun i hi => h _ ?_)
  have hf := f.offset_le
  have hc := c.toNat_lt
  rw [UInt32.toNat_sub, UInt32.toNat_add, UInt32.toNat_add]
  omega

theorem Rep.frame {s s' : State} (h : Rep s bs) (hf : Frame (· ∈ addrs bs) [] s s')
    (hhead : s'.heapFreeList = s.heapFreeList) : Rep s' bs := by
  refine ⟨h.phys.frame (hf.mono (fun _ h => h) (by simp)), ?_, h.coalesced⟩
  exact isList_frame_free h.listed hf hhead (fun _ ha => mem_addrs_of_freeAddrs ha) (by simp) (by simp)

def InPayload (b : Block) (a : UInt32) : Prop := b.addr.toNat + 32 ≤ a.toNat ∧ a.toNat < b.stop

theorem InPayload.far {lo hi : Nat} (h : Tiles lo bs hi) (hhi : hi < 2 ^ 32) {b c : Block}
    (hb : b ∈ bs) (hc : c ∈ bs) {a : UInt32} (ha : InPayload b a) : ¬(a - c.addr).toNat < 28 := by
  obtain ⟨h1, h2⟩ := ha
  have hcb := (tiles_bounds h hc).2.1
  have ha := a.toNat_lt
  simp only [Block.stop] at h2 hcb
  rw [UInt32.toNat_sub]
  rcases tiles_disjoint h hb hc with rfl | hle | hle
  · omega
  · simp only [Block.stop] at hle
    omega
  · simp only [Block.stop] at hle
    omega

theorem Rep.payload_frame (h : Rep s bs) {b : Block} (hb : b ∈ bs) {m : Mem}
    (hm : ∀ a, m a ≠ s.mem a → InPayload b a) : Frame (· ∈ addrs bs) [] s { s with mem := m } := by
  refine ⟨rfl, fun a ha f _ => ?_⟩
  obtain ⟨c, hc, rfl⟩ := List.mem_map.mp ha
  refine get_of_bytes (fun x hx => ?_) f
  by_contra hne
  exact (hm x hne).far h.phys.tiles s.heapEndPtr.toNat_lt hb hc hx

theorem Rep.payload (h : Rep s bs) {b : Block} (hb : b ∈ bs) {m : Mem}
    (hm : ∀ a, m a ≠ s.mem a → InPayload b a) : Rep { s with mem := m } bs :=
  h.frame (h.payload_frame hb hm) rfl

theorem Rep.note (h : Rep s bs) (flag : UInt32) (message : String) :
    Rep (heapNoteError s flag message) bs := by
  obtain ⟨⟨⟨h1, h2, h3, h4⟩, h5, h6, h7⟩, h8, h9⟩ := h
  exact ⟨⟨⟨h1, h2, h3, h4⟩, h5, h6, fun b hb => ⟨(h7 b hb).magic, (h7 b hb).size, (h7 b hb).free⟩⟩, h8, h9⟩

/-! ### `heap_zero_bytes` -/

/-- The loop clears the bytes at distance less than `count` from `dst`, around the end of memory. -/
theorem heapZeroBytes_eq (s : State) (dst : UInt32) :
    ∀ count ≤ 2 ^ 32, heapZeroBytes s dst count =
      { s with mem := fun a => if (a - dst).toNat < count then 0 else s.mem a } := by
  intro count
  induction count with
  | zero =>
    intro _
    simp [heapZeroBytes]
  | succ count ih =>
    intro hcount
    rw [heapZeroBytes, ih (by omega)]
    simp only [State.mk.injEq, and_self, and_true]
    funext a
    have hlast : a = dst + UInt32.ofNat count ↔ (a - dst).toNat = count := by
      have hc : (UInt32.ofNat count).toNat = count :=
        UInt32.toNat_ofNat_of_lt' (by simp [UInt32.size]; omega)
      constructor
      · rintro rfl
        rw [UInt32.add_comm, UInt32.add_sub_cancel, hc]
      · intro e
        rw [← e, UInt32.ofNat_toNat, UInt32.add_comm, UInt32.sub_add_cancel]
    simp only [Mem.store8]
    by_cases ha : a = dst + UInt32.ofNat count
    · rw [if_pos ha, if_pos (by rw [hlast.mp ha]; omega)]
    · have hne : (a - dst).toNat ≠ count := fun e => ha (hlast.mpr e)
      rw [if_neg ha]
      by_cases hlt : (a - dst).toNat < count
      · rw [if_pos hlt, if_pos (by omega)]
      · rw [if_neg hlt, if_neg (by omega)]

/-! ### `kcalloc` -/

/-- The bytes that a request of `kcalloc` clears, in exact integers. -/
def requested (count size : UInt32) : Nat := count.toNat * size.toNat

theorem kcalloc_guard {count size : UInt32} (hsize : size ≠ 0) :
    count > 0xFFFFFFFF / size ↔ 2 ^ 32 ≤ requested count size := by
  have hpos : 0 < size.toNat := by
    refine Nat.pos_of_ne_zero (fun e => hsize ?_)
    exact UInt32.toNat_inj.mp e
  rw [gt_iff_lt, UInt32.lt_iff_toNat_lt, UInt32.toNat_div, show (0xFFFFFFFF : UInt32).toNat =
    2 ^ 32 - 1 from rfl, Nat.div_lt_iff_lt_mul hpos, requested]
  omega

theorem kcalloc_eq (s : State) (count size : UInt32) :
    kcalloc s count size =
      if requested count size = 0 ∨ 2 ^ 32 ≤ requested count size then some (0, s)
      else match kmalloc s (count * size) with
        | none => none
        | some (block, t) =>
          if block = 0 then some (0, t) else
              some (block, heapZeroBytes t block (requested count size)) := by
  unfold kcalloc
  by_cases hzero : count = 0 ∨ size = 0
  · have hreq : requested count size = 0 := by
      rcases hzero with rfl | rfl
      · simp [requested]
      · simp [requested]
    rw [if_pos hzero, if_pos (Or.inl hreq)]
  · obtain ⟨hcount, hsize⟩ := not_or.mp hzero
    have hreq : requested count size ≠ 0 := by
      refine Nat.mul_ne_zero (fun e => hcount ?_) (fun e => hsize ?_)
      · exact UInt32.toNat_inj.mp e
      · exact UInt32.toNat_inj.mp e
    rw [if_neg hzero]
    by_cases hbig : count > 0xFFFFFFFF / size
    · rw [if_pos hbig, if_pos (Or.inr ((kcalloc_guard hsize).mp hbig))]
    · have hlt : requested count size < 2 ^ 32 := by
        have := mt (kcalloc_guard hsize).mpr hbig
        omega
      have htotal : (count * size).toNat = requested count size := toNat_mul_of_lt hlt
      have hin : ¬(requested count size = 0 ∨ 2 ^ 32 ≤ requested count size) := by omega
      cases hk : kmalloc s (count * size) with
      | none => simp only [if_neg hbig, if_neg hin, hk]
      | some r =>
        obtain ⟨block, t⟩ := r
        simp only [if_neg hbig, if_neg hin, hk, htotal]

/-- Every call of `kcalloc` on a well-formed heap: null and an unchanged heap, or a block of
`kmalloc` that is cleared. -/
theorem Rep.kcalloc_served (h : Rep s bs) (count size : UInt32) :
    (kcalloc s count size = some (0, s) ∧ (requested count size = 0 ∨ 2 ^ 32 ≤ requested count size ∨
        ((count * size).toNat = requested count size ∧
          firstFit bs (heapAlignUp (count * size) heapAlignment) = none))) ∨
      ∃ xs b ys t, (count * size).toNat = requested count size ∧ 0 < requested count size ∧
        bs = xs ++ b :: ys ∧
        b.free = true ∧ heapAlignUp (count * size) heapAlignment ≤ b.size ∧
        heapBlockPayloadAddress b.addr ≠ 0 ∧
        kmalloc s (count * size) = some (heapBlockPayloadAddress b.addr, t) ∧
        Rep t (xs ++ (taken b (heapAlignUp (count * size) heapAlignment) ++ ys)) ∧ Kept (· ∈ addrs bs) s t ∧
        kcalloc s count size = some (heapBlockPayloadAddress b.addr,
          heapZeroBytes t (heapBlockPayloadAddress b.addr) (requested count size)) := by
  rw [kcalloc_eq]
  by_cases hout : requested count size = 0 ∨ 2 ^ 32 ≤ requested count size
  · exact Or.inl ⟨if_pos hout, hout.imp_right Or.inl⟩
  rw [if_neg hout]
  have hreq : (count * size).toNat = requested count size :=
    toNat_mul_of_lt (by unfold requested at hout; omega)
  rcases kmalloc_cases h (count * size) with
    ⟨hk, hnone⟩ | ⟨xs, b, ys, t, _, rfl, hb, hfit, _, hk, hrep, hkept⟩
  · rw [hk]
    refine Or.inl ⟨rfl, ?_⟩
    rcases hnone with h0 | hff
    · exact Or.inl (by rw [← hreq, h0, UInt32.toNat_zero])
    · exact Or.inr (Or.inr ⟨hreq, hff⟩)
  · have hp0 : heapBlockPayloadAddress b.addr ≠ 0 := h.phys.payload_ne_zero (by simp)
    refine Or.inr ⟨xs, b, ys, t, hreq, by omega, rfl, hb, hfit, hp0, hk, hrep, hkept, ?_⟩
    simp only [hk, if_neg hp0]

/-! ### A memory without blocks -/

/-- No block header can be read anywhere: the first byte of every aligned address is zero. -/
def Wiped (s : State) : Prop := ∀ a : UInt32, a.toNat % 16 = 0 → s.mem a = 0

theorem Wiped.not_sane (h : Wiped s) (block : UInt32) : heapBlockIsSane s block = false := by
  unfold heapBlockIsSane
  by_cases h0 : block = 0
  · rw [if_pos h0]
  · rw [if_neg h0]
    by_cases halign : block &&& (heapAlignment - 1) = 0
    · have hmod : block.toNat % 16 = 0 := by
        have hmask := toNat_and_mask block 4 (by omega)
        rw [show UInt32.ofNat (2 ^ 4 - 1) = heapAlignment - 1 from rfl, halign] at hmask
        simpa using hmask.symm
      have hmagic : s.get .magic block ≠ heapBlockMagic := by
        intro e
        have hbyte := Mem.load32_mod s.mem (block + Field.magic.offset)
        rw [show s.mem.load32 (block + Field.magic.offset) = heapBlockMagic from e,
          show block + Field.magic.offset = block from UInt32.add_zero block, h block hmod] at hbyte
        exact absurd hbyte (by decide)
      rw [if_neg (by simp [halign]), if_pos hmagic]
      split <;> rfl
    · rw [if_pos halign]

theorem Rep.not_wiped (h : Rep s bs) : ¬Wiped s := by
  intro hw
  obtain ⟨b, ys, rfl⟩ := List.exists_cons_of_ne_nil h.ne_nil
  have hsane := h.phys.sane (b := b) (by simp)
  rw [hw.not_sane] at hsane
  exact absurd hsane (by simp)

theorem wiped_of_zero (s : State) {dst : UInt32} (hdst : dst.toNat % 16 = 0) {count : Nat}
    (hlo : 2 ^ 32 - 16 < count) (hhi : count ≤ 2 ^ 32) : Wiped (heapZeroBytes s dst count) := by
  intro a ha
  rw [heapZeroBytes_eq s dst count hhi]
  have hd := dst.toNat_lt
  have hlt : (a - dst).toNat < count := by
    rw [UInt32.toNat_sub]
    omega
  exact if_pos hlt

section wiped
variable {s : State} (h : Wiped s)
include h

theorem Wiped.kmalloc_null (size : UInt32) :
    kmalloc s size = some (0, s) ∨ kmalloc s size =
      some (0, heapNoteError s heapDiagCorruption
        "TERMOB: heap corruption detected during allocation") := by
  unfold kmalloc
  by_cases hguard : s.heapReady = false ∨ size = 0
  · exact Or.inl (if_pos hguard)
  · rw [if_neg hguard]
    change kmallocScan s _ (4294967295 + 1) _ = _ ∨ kmallocScan s _ (4294967295 + 1) _ = _
    rw [kmallocScan]
    by_cases h0 : s.heapFreeList = 0
    · exact Or.inl (if_pos h0)
    · rw [if_neg h0, if_pos (Or.inl (h.not_sane _))]
      exact Or.inr rfl

theorem Wiped.kcalloc_null (count size : UInt32) :
    kcalloc s count size = some (0, s) ∨ kcalloc s count size =
      some (0, heapNoteError s heapDiagCorruption
        "TERMOB: heap corruption detected during allocation") := by
  rw [kcalloc_eq]
  split
  · exact Or.inl rfl
  · rcases h.kmalloc_null (count * size) with hk | hk
    · rw [hk]
      exact Or.inl rfl
    · rw [hk]
      exact Or.inr rfl

theorem Wiped.kfree_noted {ptr : UInt32} (hready : s.heapReady = true) (hp : ptr ≠ 0) :
    kfree s ptr = some (heapNoteError s heapDiagInvalidFree "TERMOB: invalid kfree pointer") ∨
      kfree s ptr = some (heapNoteError
        (heapNoteError s heapDiagCorruption "TERMOB: heap corruption detected during free lookup")
        heapDiagInvalidFree "TERMOB: invalid kfree pointer") := by
  have hguard : ¬(s.heapReady = false ∨ ptr = 0) := by simp [hready, hp]
  have hfind : heapFindBlockByPayload s ptr = (0, s) ∨ heapFindBlockByPayload s ptr =
      (0, heapNoteError s heapDiagCorruption "TERMOB: heap corruption detected during free lookup") := by
    rw [heapFindBlockByPayload, if_neg hguard]
    cases (heapMaxWalks s).toNat with
    | zero => exact Or.inl rfl
    | succ walks =>
      rw [heapFindScan]
      by_cases h0 : s.heapFirstBlock = 0
      · exact Or.inl (if_pos h0)
      · rw [if_neg h0, if_pos (h.not_sane _)]
        exact Or.inr rfl
  unfold kfree
  rw [if_neg hguard]
  rcases hfind with hk | hk
  · rw [hk]
    exact Or.inl rfl
  · rw [hk]
    exact Or.inr rfl

/-- With the region still in place the lookup does start, and it does not come past the first block. -/
theorem Wiped.kfree_corruption {ptr : UInt32} (hregion : Region s) (hfirst : s.heapFirstBlock ≠ 0)
    (hp : ptr ≠ 0) :
    kfree s ptr = some (heapNoteError
      (heapNoteError s heapDiagCorruption "TERMOB: heap corruption detected during free lookup")
      heapDiagInvalidFree "TERMOB: invalid kfree pointer") := by
  have hguard : ¬(s.heapReady = false ∨ ptr = 0) := by simp [hregion.ready, hp]
  have hfind : heapFindBlockByPayload s ptr =
      (0, heapNoteError s heapDiagCorruption "TERMOB: heap corruption detected during free lookup") := by
    rw [heapFindBlockByPayload, if_neg hguard, hregion.maxWalks, heapFindScan, if_neg hfirst,
      if_pos (h.not_sane _)]
  rw [kfree, if_neg hguard, hfind]
  rfl

end wiped

end TermobKernel.Heap

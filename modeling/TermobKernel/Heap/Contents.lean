import TermobKernel.Heap.LiveMap

/-!
# What the blocks hold

The representation of the heap speaks of headers; here it is the bytes between them. Every write of
the allocator goes to a header it has reached over a link, and as long as the links lead to headers
(`Linked`) it changes no other byte (`Inside`). Together with the tiling this makes a live block an
array of its own: along a run its bytes are what its owner wrote last, and nothing outside the
region is touched.
-/

namespace TermobKernel.Heap
open Word Dll Runs

/-! ### Writes that stay in headers -/

/-- What a word of the header at `a` may be when all headers are in `D` and those on the free list
in `F`. The free links of a block in use are never followed and may be anything. -/
def Allows (D F : UInt32 → Prop) (a : UInt32) : Field → UInt32 → Prop
  | .flags, v => (v &&& heapBlockFlagFree != 0) = true → F a
  | .prevPhys, v => v ≠ 0 → D v
  | .nextPhys, v => v ≠ 0 → D v
  | .prevFree, v => F a → v ≠ 0 → F v
  | .nextFree, v => F a → v ≠ 0 → F v
  | .magic, _ => True
  | .sizeBytes, _ => True

/-- The links lead from headers to headers. -/
structure Linked (D F : UInt32 → Prop) (s : State) : Prop where
  sub : ∀ a, F a → D a
  head : s.heapFreeList ≠ 0 → F s.heapFreeList
  words : ∀ a, D a → ∀ f, Allows D F a f (s.get f a)

/-- The byte at `a` belongs to a header of `D`. -/
def InHeader (D : UInt32 → Prop) (a : UInt32) : Prop := ∃ x, D x ∧ (a - x).toNat < 28

/-- What changed lies in headers of `D`, and the links still lead to headers. -/
structure Inside (D F : UInt32 → Prop) (s s' : State) : Prop where
  linked : Linked D F s'
  mem : ∀ a, ¬InHeader D a → s'.mem a = s.mem a

theorem Inside.trans {D F F' : UInt32 → Prop} {s t u : State} (h : Inside D F s t) (h' : Inside D F' t u) :
    Inside D F' s u :=
  ⟨h'.linked, fun a ha => (h'.mem a ha).trans (h.mem a ha)⟩

theorem mem_set (s : State) (f : Field) {x a : UInt32} (v : UInt32) (h : ¬(a - x).toNat < 28) :
    (s.set f x v).mem a = s.mem a := by
  apply Mem.store32_far
  have hf := f.offset_le
  have hx := x.toNat_lt
  have ha := a.toNat_lt
  rw [UInt32.toNat_sub] at h
  rw [UInt32.toNat_sub, UInt32.toNat_add]
  omega

section linked
variable {D F : UInt32 → Prop} {s : State} {block : UInt32}
variable {v : UInt32}

section
variable (h : Linked D F s)
include h

theorem Linked.refl : Inside D F s s := ⟨h, fun _ _ => rfl⟩

theorem Linked.nextPhys (hb : D block) : s.get .nextPhys block ≠ 0 → D (s.get .nextPhys block) :=
  h.words block hb .nextPhys

theorem Linked.prevPhys (hb : D block) : s.get .prevPhys block ≠ 0 → D (s.get .prevPhys block) :=
  h.words block hb .prevPhys

theorem Linked.nextFree (hb : F block) : s.get .nextFree block ≠ 0 → F (s.get .nextFree block) :=
  h.words block (h.sub block hb) .nextFree hb

theorem Linked.prevFree (hb : F block) : s.get .prevFree block ≠ 0 → F (s.get .prevFree block) :=
  h.words block (h.sub block hb) .prevFree hb

theorem Linked.note (flag : UInt32) (message : String) :
    Inside D F s (heapNoteError s flag message) :=
  ⟨⟨h.sub, h.head, h.words⟩, fun _ _ => rfl⟩

theorem Linked.moveHead (hv : v ≠ 0 → F v) :
    Inside D F s { s with heapFreeList := v } :=
  ⟨⟨h.sub, hv, h.words⟩, fun _ _ => rfl⟩

end

variable (hD : Spread D)
include hD

theorem Linked.set (h : Linked D F s) (hb : D block) (f : Field) (hv : Allows D F block f v) :
    Inside D F s (s.set f block v) := by
  refine ⟨⟨h.sub, h.head, fun a ha g => ?_⟩, fun a ha => mem_set s f v fun hin => ha ⟨block, hb, hin⟩⟩
  rw [get_set hD s f g v hb ha]
  split
  · rename_i heq
    obtain ⟨rfl, rfl⟩ := heq
    exact hv
  · exact h.words a ha g

theorem Linked.set_guarded (h : Linked D F s) (hb : block ≠ 0 → D block) (f : Field)
    (hv : Allows D F block f v) : Inside D F s (if block ≠ 0 then s.set f block v else s) := by
  split
  · rename_i h0
    exact h.set hD (hb h0) f hv
  · exact h.refl

/-! ### The operations on the two lists -/

theorem Linked.clear (h : Linked D F s) (hb : D block) :
    Inside D F s ((s.set .prevFree block 0).set .nextFree block 0) := by
  have hprev := h.set hD hb .prevFree (v := 0) fun _ h0 => absurd rfl h0
  exact hprev.trans (hprev.linked.set hD hb .nextFree fun _ h0 => absurd rfl h0)

theorem Linked.removeFreeBlock (h : Linked D F s) (hb : F block) :
    Inside D F s (heapRemoveFreeBlock s block) := by
  by_cases h0 : block = 0
  · rw [heapRemoveFreeBlock, if_pos h0]
    exact h.refl
  have hunlinkNext : Inside D F s (unlinkNext s block) := by
    unfold unlinkNext
    split
    · rename_i hprev
      exact h.set hD (h.sub _ (h.prevFree hb hprev)) _ fun _ => h.nextFree hb
    · split
      · exact h.moveHead (h.nextFree hb)
      · exact h.refl
  have hunlinkPrev : Inside D F (unlinkNext s block) (unlinkPrev (unlinkNext s block) block) :=
    hunlinkNext.linked.set_guarded hD (fun hn => h.sub _ (hunlinkNext.linked.nextFree hb hn)) _
      fun _ => hunlinkNext.linked.prevFree hb
  rw [heapRemoveFreeBlock_eq s h0]
  exact (hunlinkNext.trans hunlinkPrev).trans (hunlinkPrev.linked.clear hD (h.sub block hb))

omit hD in
theorem Linked.insertScan (h : Linked D F s) (fuel : Nat) {previous cursor p c : UInt32}
    (hprev : F previous) (hcursor : cursor ≠ 0 → F cursor)
    (hscan : heapInsertScan s block fuel previous cursor = some (p, c)) :
    F p ∧ (c ≠ 0 → F c) := by
  induction fuel generalizing previous cursor with
  | zero => exact absurd hscan (by simp [heapInsertScan])
  | succ fuel ih =>
    rw [heapInsertScan] at hscan
    split at hscan
    · rename_i hbelow
      exact ih (hcursor hbelow.1) (h.nextFree (hcursor hbelow.1)) hscan
    · cases hscan
      exact ⟨hprev, hcursor⟩

section
variable (h : Linked D F s)
include h

theorem Linked.insertFront (hb : F block) : Inside D F s (heapInsertFront s block) := by
  have hnext := h.set hD (h.sub block hb) .nextFree fun _ => h.head
  have hprev := hnext.linked.set_guarded hD (fun h0 => h.sub _ (h.head h0)) .prevFree fun _ _ => hb
  exact (hnext.trans hprev).trans (hprev.linked.moveHead fun _ => hb)

theorem Linked.insertBetween (hb : F block) {previous cursor : UInt32} (hp : F previous)
    (hc : cursor ≠ 0 → F cursor) : Inside D F s (heapInsertBetween s block previous cursor) := by
  have hback := h.set hD (h.sub block hb) .prevFree fun _ _ => hp
  have hnext := hback.linked.set hD (h.sub block hb) .nextFree fun _ => hc
  have hlink := hnext.linked.set hD (h.sub previous hp) .nextFree fun _ _ => hb
  have hlast := hlink.linked.set_guarded hD (fun h0 => h.sub cursor (hc h0)) .prevFree fun _ _ => hb
  exact ((hback.trans hnext).trans hlink).trans hlast

theorem Linked.ready {F' : UInt32 → Prop} (hb : D block) (hsub : ∀ a, F a → F' a)
    (hnew : ∀ a, F' a → F a ∨ a = block) (hin : F' block) : Inside D F' s (insertReady s block) := by
  have hget := fun (f : Field) (a : UInt32) (ha : D a) => show (insertReady s block).get f a = _ from by
    rw [insertReady, heapMarkBlockFree, get_set hD _ .nextFree f 0 hb ha, get_set hD _ .prevFree f 0 hb ha,
      get_set hD _ .flags f _ hb ha]
  refine ⟨⟨fun a ha => ?_, fun h0 => hsub _ (h.head h0), fun a ha f => ?_⟩, fun a ha => ?_⟩
  · rcases hnew a ha with hF | rfl
    · exact h.sub a hF
    · exact hb
  · rw [hget f a ha]
    by_cases hab : a = block
    · subst hab
      have hword := h.words a ha f
      cases f
      case flags => exact fun _ => hin
      case prevPhys => simpa [Allows] using hword
      case nextPhys => simpa [Allows] using hword
      case prevFree => exact fun _ h0 => absurd (by simp) h0
      case nextFree => exact fun _ h0 => absurd (by simp) h0
      all_goals trivial
    · have hword := h.words a ha f
      simp only [hab, and_false, if_false]
      cases f
      case flags => exact fun hflag => hsub a (hword hflag)
      case prevFree => exact fun hF h0 => hsub _ (hword ((hnew a hF).resolve_right hab) h0)
      case nextFree => exact fun hF h0 => hsub _ (hword ((hnew a hF).resolve_right hab) h0)
      all_goals exact hword
  · have hfar : ¬(a - block).toNat < 28 := fun hin => ha ⟨block, hb, hin⟩
    simp only [insertReady, heapMarkBlockFree, mem_set _ _ _ hfar]

theorem Linked.insertFreeBlock {F' : UInt32 → Prop} (hb : D block) (h0 : block ≠ 0)
    (hsub : ∀ a, F a → F' a) (hnew : ∀ a, F' a → F a ∨ a = block) (hin : F' block) {s' : State}
    (hk : heapInsertFreeBlock s block = some s') : Inside D F' s s' := by
  have hready := h.ready hD hb hsub hnew hin
  rw [heapInsertFreeBlock, if_neg h0] at hk
  change (if (insertReady s block).heapFreeList = 0 ∨
    block < (insertReady s block).heapFreeList then _ else _) = _ at hk
  split at hk
  · cases hk
    exact hready.trans (hready.linked.insertFront hD hin)
  · rename_i hfirst
    have hhead : F' (insertReady s block).heapFreeList := hready.linked.head fun he => hfirst (Or.inl he)
    split at hk
    · exact absurd hk (by simp)
    · rename_i previous cursor hscan
      cases hk
      obtain ⟨hp, hc⟩ := hready.linked.insertScan _ hhead (hready.linked.nextFree hhead) hscan
      exact hready.trans (hready.linked.insertBetween hD hin hp hc)

theorem Linked.mergeNext (hb : D block) {next : UInt32} (hn : D next) :
    Inside D F s (mergeNext s block next) := by
  have hsize := h.set hD hb .sizeBytes
    (v := s.get .sizeBytes block + (heapHeaderSize + s.get .sizeBytes next)) trivial
  have hskip := hsize.linked.set hD hb .nextPhys (hsize.linked.nextPhys hn)
  have hback := hskip.linked.set_guarded hD (hskip.linked.nextPhys hn) .prevPhys fun _ => hb
  exact (hsize.trans hskip).trans hback

theorem Linked.tryCoalesce (hb : D block) : Inside D F s (heapTryCoalesceWithNext s block) := by
  by_cases hguard : block = 0 ∨ heapBlockIsFree s block = false
  · rw [heapTryCoalesceWithNext, if_pos hguard]
    exact h.refl
  rw [heapTryCoalesceWithNext_eq hguard rfl]
  split
  · exact h.refl
  · rename_i hnext
    rw [not_or, Bool.not_eq_false] at hnext
    have hn : D (s.get .nextPhys block) := h.nextPhys hb hnext.1
    split
    · exact h.note _ _
    · have hremove := h.removeFreeBlock hD (h.words _ hn .flags hnext.2)
      exact hremove.trans (hremove.linked.mergeNext hD hb hn)

theorem Linked.coalesce (hb : D block) : Inside D F s (heapCoalesce s block).2 := by
  unfold heapCoalesce
  split
  · exact h.refl
  · have hfrom : D (if s.get .prevPhys block ≠ 0 ∧ heapBlockIsFree s (s.get .prevPhys block) = true then
        s.get .prevPhys block else block) := by
      split
      · rename_i hprev
        exact h.prevPhys hb hprev.1
      · exact hb
    have honce := h.tryCoalesce hD hfrom
    exact honce.trans (honce.linked.tryCoalesce hD hfrom)

theorem Linked.markUsed (hb : D block) : Inside D F s (heapMarkBlockUsed s block) := by
  refine h.set hD hb .flags fun hflag => ?_
  have hused := heapMarkBlockUsed_isFree s block
  rw [heapBlockIsFree, heapMarkBlockUsed, get_set_self] at hused
  rw [hused] at hflag
  exact Bool.noConfusion hflag

end

theorem Linked.initialize {D₀ F₀ : UInt32 → Prop} (h : Linked D₀ F₀ s) {c : UInt32} (hsub : ∀ a, D₀ a → D a)
    (hnew : ∀ a, D a → D₀ a ∨ a = c) (hc : D c) (size : UInt32) {prevPhys nextPhys : UInt32}
    (hprev : prevPhys ≠ 0 → D prevPhys) (hnext : nextPhys ≠ 0 → D nextPhys) :
    Inside D (fun a => F₀ a ∨ a = c) s (heapInitializeBlock s c size prevPhys nextPhys true) := by
  obtain ⟨-, hlist⟩ := heapInitializeBlock_statics s c size prevPhys nextPhys true
  refine ⟨⟨fun a ha => ?_, fun h0 => ?_, fun a ha f => ?_⟩, fun a ha => ?_⟩
  · rcases ha with hF | rfl
    · exact hsub a (h.sub a hF)
    · exact hc
  · rw [hlist] at h0 ⊢
    exact Or.inl (h.head h0)
  · rw [heapInitializeBlock_get hD s hc size prevPhys nextPhys true f ha]
    by_cases hac : a = c
    · rw [if_pos hac]
      cases f
      case flags => exact fun _ => Or.inr hac
      case prevPhys => exact hprev
      case nextPhys => exact hnext
      case prevFree => exact fun _ h0 => absurd rfl h0
      case nextFree => exact fun _ h0 => absurd rfl h0
      all_goals trivial
    · rw [if_neg hac]
      have hword := h.words a ((hnew a ha).resolve_right hac) f
      cases f
      case flags => exact fun hflag => Or.inl (hword hflag)
      case prevPhys => exact fun h0 => hsub _ (hword h0)
      case nextPhys => exact fun h0 => hsub _ (hword h0)
      case prevFree => exact fun hF h0 => Or.inl (hword (hF.resolve_right hac) h0)
      case nextFree => exact fun hF h0 => Or.inl (hword (hF.resolve_right hac) h0)
      all_goals trivial
  · have hfar : ¬(a - c).toNat < 28 := fun hin => ha ⟨c, hc, hin⟩
    simp only [heapInitializeBlock, heapMarkBlockFree, mem_set _ _ _ hfar, if_true]

theorem Linked.split {D₀ F₀ : UInt32 → Prop} (h : Linked D₀ F₀ s) {size c : UInt32}
    (hsub : ∀ a, D₀ a → D a) (hnew : ∀ a, D a → D₀ a ∨ a = c) (hc : D c) (hb : D₀ block)
    (hcdef : c = heapBlockPayloadAddress block + size)
    (hcan : heapCanSplitBlock s block size = true) :
    ∃ s', heapSplitBlock s block size = (c, s') ∧ Inside D (fun a => F₀ a ∨ a = c) s s' := by
  have hinit := h.initialize hD hsub hnew hc (s.get .sizeBytes block - size - heapHeaderSize)
    (fun _ => hsub block hb) (fun h0 => hsub _ (h.nextPhys hb h0))
  have hback := hinit.linked.set_guarded hD (hinit.linked.nextPhys (hsub _ hb)) .prevPhys fun _ => hc
  have hnext := hback.linked.set hD (hsub _ hb) .nextPhys fun _ => hc
  have hsize := hnext.linked.set hD (hsub _ hb) .sizeBytes (v := size) trivial
  refine ⟨_, ?_, ((hinit.trans hback).trans hnext).trans hsize⟩
  unfold heapSplitBlock
  rw [hcan, if_neg (by decide), ← hcdef]

end linked

/-! ### The calls on a heap in order -/

section calls
variable {s s' : State} {bs : List Block}
variable {xs ys : List Block} {b : Block} {a : UInt32}

theorem Rep.linked (h : Rep s bs) : Linked (· ∈ addrs bs) (· ∈ freeAddrs bs) s := by
  refine ⟨fun a ha => mem_addrs_of_freeAddrs ha, h.listed.head_mem, fun a ha f => ?_⟩
  cases f
  case flags =>
    intro hflag
    obtain ⟨b, hb, rfl⟩ := List.mem_map.mp ha
    have hfree : b.free = true := (h.phys.header b hb).free.symm.trans hflag
    exact List.mem_map_of_mem (List.mem_filter.mpr ⟨hb, hfree⟩)
  case prevPhys => exact h.phys.chain.prev_mem ha
  case nextPhys => exact h.phys.chain.next_mem ha
  case prevFree => exact fun hF => h.listed.prev_mem hF
  case nextFree => exact fun hF => h.listed.next_mem hF
  all_goals trivial

theorem Rep.not_inHeader (h : Rep s bs) (hb : b ∈ bs) (ha : InPayload b a) :
    ¬InHeader (· ∈ addrs bs) a := by
  rintro ⟨x, hx, hin⟩
  obtain ⟨c, hc, rfl⟩ := List.mem_map.mp hx
  exact ha.far h.phys.tiles s.heapEndPtr.toNat_lt hb hc hin

theorem Rep.inHeader_region (h : Rep s bs) (ha : InHeader (· ∈ addrs bs) a) :
    s.heapStartPtr.toNat ≤ a.toNat ∧ a.toNat < s.heapEndPtr.toNat := by
  obtain ⟨x, hx, hin⟩ := ha
  obtain ⟨c, hc, rfl⟩ := List.mem_map.mp hx
  obtain ⟨hlo, hhi, -⟩ := tiles_bounds h.phys.tiles hc
  have hend := s.heapEndPtr.toNat_lt
  have halt := a.toNat_lt
  simp only [Block.stop] at hhi
  rw [UInt32.toNat_sub] at hin
  omega

theorem mem_addrs_taken {size : UInt32} (hfit : size.toNat + 48 ≤ b.size.toNat) :
    a ∈ addrs (xs ++ (taken b size ++ ys)) ↔ a ∈ addrs (xs ++ b :: ys) ∨ a = (splitBack b size).addr := by
  simp only [taken, if_pos hfit, splitFront, addrs, List.map_append, List.map_cons, List.map_nil,
    List.mem_append, List.mem_cons, List.not_mem_nil, or_false]
  tauto

theorem addrs_whole {size : UInt32} (hfit : ¬size.toNat + 48 ≤ b.size.toNat) :
    addrs (xs ++ (taken b size ++ ys)) = addrs (xs ++ b :: ys) := by
  simp [taken, hfit]

theorem Rep.kmallocTake_writes {size p : UInt32} (h : Rep s (xs ++ b :: ys))
    (hb : b.free = true) (hle : size ≤ b.size) (hk : kmallocTake s b.addr size = some (p, s'))
    (hrep : Rep s' (xs ++ (taken b size ++ ys))) (a : UInt32)
    (ha : ¬InHeader (· ∈ addrs (xs ++ (taken b size ++ ys))) a) : s'.mem a = s.mem a := by
  have hmem : b ∈ xs ++ b :: ys := by simp
  have haddr : b.addr ∈ addrs (xs ++ b :: ys) := List.mem_map_of_mem hmem
  have hF : b.addr ∈ freeAddrs (xs ++ b :: ys) := List.mem_map_of_mem (List.mem_filter.mpr ⟨hmem, hb⟩)
  have hremove := h.linked.removeFreeBlock h.phys.spread hF
  have hsize : (heapRemoveFreeBlock s b.addr).get .sizeBytes b.addr = b.size := by
    obtain ⟨us, vs, hlist⟩ := List.append_of_mem hF
    have hl := h.listed
    rw [hlist] at hl
    have hframe :=
      (heapRemoveFreeBlock_spec h.phys.spread hl fun x hx => mem_addrs_of_freeAddrs (hlist ▸ hx)).2
    exact (hframe.get _ haddr _ (by decide)).trans (h.phys.header b hmem).size
  unfold kmallocTake at hk
  generalize heapRemoveFreeBlock s b.addr = t at hremove hsize hk
  by_cases hfit : size.toNat + 48 ≤ b.size.toNat
  · have hcan : heapCanSplitBlock t b.addr size = true := by
      have hnot : ¬size > b.size := UInt32.not_lt.mpr hle
      rw [heapCanSplitBlock, hsize,
        if_neg (by rintro (h0 | h0); exacts [h.phys.addr_ne_zero hmem h0, hnot h0]),
        show heapHeaderSize + heapMinSplitBytes = 48 from by decide, decide_eq_true_eq, ge_iff_le,
        UInt32.le_iff_toNat_le, toNat_sub_of_le (UInt32.le_iff_toNat_le.mp hle)]
      change 48 ≤ _
      omega
    have hD := hrep.phys.spread
    have hback : (splitBack b size).addr ∈ addrs (xs ++ (taken b size ++ ys)) :=
      (mem_addrs_taken hfit).mpr (Or.inr rfl)
    have hne : (splitBack b size).addr ≠ 0 := by
      obtain ⟨c, hc, he⟩ := List.mem_map.mp hback
      exact he ▸ hrep.phys.addr_ne_zero hc
    obtain ⟨t', hsplit, hin⟩ := hremove.linked.split hD (fun x hx => (mem_addrs_taken hfit).mpr (Or.inl hx))
      (fun x hx => (mem_addrs_taken hfit).mp hx) hback haddr
      (by rw [splitBack, heapBlockPayloadAddress, heapHeaderSize_eq]) hcan
    simp only [hsplit, if_pos hne] at hk
    split at hk
    · exact absurd hk (by simp)
    · rename_i u hu
      obtain ⟨rfl, rfl⟩ := Prod.ext_iff.mp (Option.some.inj hk)
      have hinsert := hin.linked.insertFreeBlock hD hback hne (fun _ hx => hx)
        (fun _ hx => Or.inl hx) (Or.inr rfl) hu
      have hmark := hinsert.linked.markUsed hD ((mem_addrs_taken hfit).mpr (Or.inl haddr))
      rw [hmark.mem a ha, hinsert.mem a ha, hin.mem a ha]
      apply hremove.mem a
      rintro ⟨x, hx, hnear⟩
      exact ha ⟨x, (mem_addrs_taken hfit).mpr (Or.inl hx), hnear⟩
  · rw [addrs_whole hfit] at ha
    rw [heapSplitBlock_whole (by rwa [hsize]) (by rwa [hsize])] at hk
    simp only [ne_eq, not_true_eq_false, if_false, Option.some.injEq, Prod.mk.injEq] at hk
    obtain ⟨-, rfl⟩ := hk
    rw [(hremove.linked.markUsed h.phys.spread haddr).mem a ha, hremove.mem a ha]

theorem Rep.kmalloc_writes (h : Rep s bs) (size : UInt32) :
    kmalloc s size = some (0, s) ∨
      ∃ xs b ys s', bs = xs ++ b :: ys ∧ b.free = true ∧ heapAlignUp size heapAlignment ≤ b.size ∧
        kmalloc s size = some (heapBlockPayloadAddress b.addr, s') ∧ s'.statics = s.statics ∧
        Rep s' (xs ++ (taken b (heapAlignUp size heapAlignment) ++ ys)) ∧
        ∀ a, s'.mem a ≠ s.mem a →
        InHeader (· ∈ addrs (xs ++ (taken b (heapAlignUp size heapAlignment) ++ ys))) a := by
  rcases kmalloc_cases h size with ⟨hk, -⟩ | ⟨xs, b, ys, s', hsize, rfl, hb, hle, hxs, hk, hrep, hst⟩
  · exact Or.inl hk
  · have hfirst : firstFit (xs ++ b :: ys) (heapAlignUp size heapAlignment) = some b := by
      rw [firstFit, List.find?_eq_some_iff_append]
      refine ⟨by simp [hb, hle], xs, ys, rfl, fun c hc => ?_⟩
      cases hfree : c.free with
      | false => rfl
      | true => simpa using hxs c hc hfree
    have htake := kmalloc_firstFit h hsize
    rw [hfirst, hk] at htake
    refine Or.inr ⟨xs, b, ys, s', rfl, hb, hle, hk, hst.statics, hrep, fun a hne => ?_⟩
    by_contra ha
    exact hne (h.kmallocTake_writes hb hle htake.symm hrep a ha)

theorem Rep.kfree_writes (h : Rep s (xs ++ b :: ys)) (hb : b.free = false) :
    ∃ s', kfree s (heapBlockPayloadAddress b.addr) = some s' ∧ s'.statics = s.statics ∧
      Rep s' (released xs b ys) ∧
      ∀ a, s'.mem a ≠ s.mem a → InHeader (· ∈ addrs (xs ++ b :: ys)) a := by
  obtain ⟨s', hk, hrep, hst⟩ := kfree_used h hb
  refine ⟨s', hk, hst.statics, hrep, fun a hne => ?_⟩
  by_contra ha
  have hmem : b ∈ xs ++ b :: ys := by simp
  have haddr : b.addr ∈ addrs (xs ++ b :: ys) := List.mem_map_of_mem hmem
  have hp0 := h.phys.payload_ne_zero hmem
  rw [kfree, if_neg (by simp [h.phys.region.ready, hp0]), heapFindBlockByPayload_spec h.phys hp0,
    blockAt_of_mem h hmem] at hk
  simp only [Option.map_some, Option.getD_some] at hk
  rw [if_neg (h.phys.addr_ne_zero hmem), if_neg (by simp [(h.phys.header b hmem).free, hb]),
    Option.map_eq_some_iff] at hk
  obtain ⟨t, ht, rfl⟩ := hk
  have hinsert := @Linked.insertFreeBlock _ _ _ _ h.phys.spread h.linked
    (fun x => x ∈ freeAddrs (xs ++ b :: ys) ∨ x = b.addr) haddr (h.phys.addr_ne_zero hmem)
    (fun _ hx => Or.inl hx) (fun _ hx => hx) (Or.inr rfl) t ht
  have hjoin := hinsert.linked.coalesce h.phys.spread haddr
  exact hne ((hjoin.mem a ha).trans (hinsert.mem a ha))

end calls

/-! ### One step -/

/-- The byte at `a` after a step that finds `v` there, if nobody but the caller writes it. -/
def Op.written (a : UInt32) (v : UInt8) : Op → UInt8
  | .write address value => if a = address then value else v
  | _ => v

/-- A step keeps every live block that it does not release, together with its bytes, except for what
the caller writes, and it stays inside the region. -/
structure Respects (s : State) (op : Op) (s' : State) : Prop where
  region : s'.heapStartPtr = s.heapStartPtr ∧ s'.heapEndPtr = s.heapEndPtr
  live : ∀ p n, (p, n) ∈ liveMap s → op ≠ .kfree p → (p, n) ∈ liveMap s' ∧
    ∀ a : UInt32, p.toNat ≤ a.toNat → a.toNat < p.toNat + n.toNat → s'.mem a = op.written a (s.mem a)
  outside : ∀ a : UInt32, a.toNat < s.heapStartPtr.toNat ∨ s.heapEndPtr.toNat ≤ a.toNat → s'.mem a = s.mem a

section steps
variable {s s' : State} {bs bs' : List Block} {op : Op}

theorem Respects.of_same (hmem : s'.mem = s.mem) (hlive : liveMap s' = liveMap s)
    (hregion : s'.heapStartPtr = s.heapStartPtr ∧ s'.heapEndPtr = s.heapEndPtr)
    (hop : ∀ a v, op.written a v = v) :
    Respects s op s' := by
  refine ⟨hregion, fun p n hp _ => ⟨hlive ▸ hp, fun a _ _ => ?_⟩, fun a _ => by rw [hmem]⟩
  rw [hmem, hop]

theorem Rep.inPayload (h : Rep s bs) {b : Block} (hb : b ∈ bs) {a : UInt32} :
    InPayload b a ↔ (heapBlockPayloadAddress b.addr).toNat ≤ a.toNat ∧
      a.toNat < (heapBlockPayloadAddress b.addr).toNat + b.size.toNat := by
  rw [h.phys.payload_toNat hb, InPayload, Block.stop]

theorem Respects.of_writes (h : Rep s bs) (h' : Rep s' bs') (hst : s'.statics = s.statics)
    (hlive : ∀ p n, (p, n) ∈ liveMap s → op ≠ .kfree p → (p, n) ∈ liveMap s')
    (hop : ∀ a v, op.written a v = v)
    (hmem : ∀ a, s'.mem a ≠ s.mem a → InHeader (· ∈ addrs bs) a ∨ InHeader (· ∈ addrs bs') a ∨
      ∃ b ∈ bs', InPayload b a ∧ ∀ n, (heapBlockPayloadAddress b.addr, n) ∉ liveMap s) :
    Respects s op s' := by
  have hlo := statics_start hst
  have hhi := statics_end hst
  refine ⟨⟨hlo, hhi⟩, fun p n hp hkeep => ⟨hlive p n hp hkeep, fun a ha ha' => ?_⟩, fun a ha => ?_⟩
  · rw [hop]
    by_contra hne
    obtain ⟨c, hc, -, hcp, hcn⟩ := h.entry_mem.mp hp
    obtain ⟨c', hc', -, hcp', hcn'⟩ := h'.entry_mem.mp (hlive p n hp hkeep)
    have hin' : InPayload c' a := (h'.inPayload hc').mpr (by rw [hcp', hcn']; exact ⟨ha, ha'⟩)
    rcases hmem a hne with hold | hnew | ⟨b, hb, hpay, hfresh⟩
    · exact h.not_inHeader hc ((h.inPayload hc).mpr (by rw [hcp, hcn]; exact ⟨ha, ha'⟩)) hold
    · exact h'.not_inHeader hc' hin' hnew
    · -- the payload that was written is another one
      have hsame : b = c' := by
        rcases tiles_disjoint h'.phys.tiles hb hc' with heq | hle | hle
        · exact heq
        · have h1 := hpay.2
          have h2 := hin'.1
          omega
        · have h1 := hpay.1
          have h2 := hin'.2
          omega
      subst hsame
      exact hfresh n (hcp' ▸ hp)
  · by_contra hne
    rcases hmem a hne with hold | hnew | ⟨b, hb, hpay, -⟩
    · have hin := h.inHeader_region hold
      omega
    · have hin := h'.inHeader_region hnew
      rw [hlo, hhi] at hin
      omega
    · obtain ⟨hblo, hbhi, -⟩ := tiles_bounds h'.phys.tiles hb
      obtain ⟨h1, h2⟩ := hpay
      rw [hlo] at hblo
      rw [hhi] at hbhi
      omega

theorem Rep.kmalloc_respects (h : Rep s bs) (size : UInt32) :
    ∃ p s', kmalloc s size = some (p, s') ∧ Respects s (.kmalloc size) s' := by
  rcases h.kmalloc_writes size with hk | ⟨xs, b, ys, s', rfl, hb, hle, hk, hst, hrep, hmem⟩
  · exact ⟨0, s, hk, Respects.of_same rfl rfl ⟨rfl, rfl⟩ fun _ _ => rfl⟩
  · refine ⟨_, s', hk, Respects.of_writes h hrep hst (fun p n hp _ => ?_) (fun _ _ => rfl) fun a ha =>
      Or.inr (Or.inl (hmem a ha))⟩
    obtain ⟨us, vs, m, hold, hnew, -⟩ := h.kmalloc_inserts hk (h.phys.payload_ne_zero (by simp))
    rw [hold] at hp
    rw [hnew]
    simp only [List.mem_append, List.mem_cons] at hp ⊢
    tauto

theorem Rep.kcalloc_respects (h : Rep s bs) (count size : UInt32)
    (hno : ¬RoundsToZero s (requested count size)) :
    ∃ p s', kcalloc s count size = some (p, s') ∧ Respects s (.kcalloc count size) s' := by
  rw [kcalloc_eq]
  by_cases hout : requested count size = 0 ∨ 2 ^ 32 ≤ requested count size
  · rw [if_pos hout]
    exact ⟨0, s, rfl, Respects.of_same rfl rfl ⟨rfl, rfl⟩ fun _ _ => rfl⟩
  rw [if_neg hout]
  have hreq : (count * size).toNat = requested count size :=
    toNat_mul_of_lt (by unfold requested at hout; omega)
  rcases h.kmalloc_writes (count * size) with hk | ⟨xs, b, ys, t, rfl, hb, hle, hk, hst, hrep, hmem⟩
  · rw [hk]
    exact ⟨0, s, rfl, Respects.of_same rfl rfl ⟨rfl, rfl⟩ fun _ _ => rfl⟩
  · have hsmall : requested count size ≤ 2 ^ 32 - 16 := by
      obtain ⟨hf0, hfs⟩ := h.freeList (b := b) (by simp) hb
      by_contra hbig
      exact hno ⟨by omega, by omega, hf0, hfs⟩
    have hround : requested count size ≤ (heapAlignUp (count * size) heapAlignment).toNat := by
      rw [← hreq]
      exact heapAlignUp_ge (by omega)
    have hp0 : heapBlockPayloadAddress b.addr ≠ 0 := h.phys.payload_ne_zero (by simp)
    obtain ⟨m, hzero, hm⟩ := hrep.zero_payload hle hround
    have hrep' := hrep.zero hle hround
    rw [hk]
    simp only [if_neg hp0]
    refine ⟨_, _, rfl, Respects.of_writes h hrep' ?_ (fun p n hp _ => ?_) (fun _ _ => rfl) fun a ha => ?_⟩
    · rw [hzero]
      exact hst
    · rw [hrep'.liveMap_eq, ← hrep.liveMap_eq]
      obtain ⟨us, vs, k, hold, hnew, -⟩ := h.kmalloc_inserts hk hp0
      rw [hold] at hp
      rw [hnew]
      simp only [List.mem_append, List.mem_cons] at hp ⊢
      tauto
    · by_cases hfirst : t.mem a = s.mem a
      · rw [hzero, ← hfirst] at ha
        refine Or.inr (Or.inr ⟨_, served_mem xs ys b _, hm a ha, fun n hn => ?_⟩)
        -- the block that served the request was free
        obtain ⟨c, hc, hcfree, hcp, -⟩ := h.entry_mem.mp hn
        have haddr : c.addr = b.addr := by
          rw [← heapBlockPayloadAddress_sub c.addr, hcp, heapBlockPayloadAddress_sub, served_addr]
        rw [tiles_addr_inj h.phys.tiles hc (by simp) haddr, hb] at hcfree
        exact Bool.noConfusion hcfree
      · exact Or.inr (Or.inl (hmem a hfirst))

theorem Rep.kfree_respects (h : Rep s bs) (ptr : UInt32) :
    ∃ s', kfree s ptr = some s' ∧ Respects s (.kfree ptr) s' := by
  by_cases hp : ptr = 0
  · exact ⟨s, by rw [kfree, if_pos (Or.inr hp)], Respects.of_same rfl rfl ⟨rfl, rfl⟩ fun _ _ => rfl⟩
  have hnoted := fun (flag : UInt32) (message : String) =>
    @Respects.of_same s (heapNoteError s flag message)
    (.kfree ptr) rfl (by rw [(h.note flag message).liveMap_eq, h.liveMap_eq]) ⟨rfl, rfl⟩ fun _ _ => rfl
  cases hat : blockAt bs ptr with
  | none => exact ⟨_, kfree_foreign h hat hp, hnoted _ _⟩
  | some b =>
    by_cases hb : b.free = true
    · exact ⟨_, kfree_free h hat hb hp, hnoted _ _⟩
    · obtain ⟨hpay, xs, ys, rfl, -⟩ := List.find?_eq_some_iff_append.mp hat
      obtain rfl : heapBlockPayloadAddress b.addr = ptr := by simpa using hpay
      have hused : b.free = false := by simpa using hb
      obtain ⟨s', hk, hst, hrep, hmem⟩ := h.kfree_writes hused
      refine ⟨s', hk, Respects.of_writes h hrep hst (fun p n hp hkeep => ?_) (fun _ _ => rfl) fun a ha =>
        Or.inl (hmem a ha)⟩
      rw [h.liveMap_eq, used_append, used_cons_used hused] at hp
      rw [hrep.liveMap_eq, released, used_coalesced _ rfl, used_append]
      simp only [List.map_append, List.map_cons, List.mem_append, List.mem_cons] at hp ⊢
      rcases hp with hp | hp | hp
      · exact Or.inl hp
      · exact absurd (congrArg Op.kfree (Prod.ext_iff.mp hp).1.symm) hkeep
      · exact Or.inr hp

theorem Rep.write_respects (h : Rep s bs) {address : UInt32} (howned : Owned s address) (value : UInt8) :
    Respects s (.write address value) { s with mem := s.mem.store8 address value } := by
  obtain ⟨e, he, hlo, hhi⟩ := howned
  obtain ⟨-, hsame⟩ := h.fill_byte he hlo hhi value
  refine ⟨⟨rfl, rfl⟩, fun p n hp _ => ⟨hsame ▸ hp, fun a _ _ => rfl⟩, fun a ha => ?_⟩
  have hrange := h.live_range he
  have hne : a ≠ address := by
    rintro rfl
    omega
  exact if_neg hne

end steps

/-! ### Runs -/

theorem step_respects {s : State} (h : (∃ bs, Rep s bs) ∨ Lost s) {op : Op} (hok : CallerOk s op)
    (hno : ¬Wraps s op) : ∃ s', step s op = some s' ∧ ((∃ bs, Rep s' bs) ∨ Lost s') ∧ Respects s op s' := by
  rcases h with ⟨bs, hrep⟩ | hlost
  · obtain ⟨s', hstep, hend⟩ := step_sound ⟨rfl, bs, hrep⟩ hok
    refine ⟨s', hstep, hend.imp (fun hs => hs.1.2) And.left, ?_⟩
    cases op with
    | kmalloc size =>
      obtain ⟨p, t, hk, hrespects⟩ := hrep.kmalloc_respects size
      rw [step, hk] at hstep
      exact Option.some.inj hstep ▸ hrespects
    | kcalloc count size =>
      obtain ⟨p, t, hk, hrespects⟩ := hrep.kcalloc_respects count size hno
      rw [step, hk] at hstep
      exact Option.some.inj hstep ▸ hrespects
    | kfree ptr =>
      obtain ⟨t, hk, hrespects⟩ := hrep.kfree_respects ptr
      rw [step, hk] at hstep
      exact Option.some.inj hstep ▸ hrespects
    | write address value =>
      rw [step] at hstep
      exact Option.some.inj hstep ▸ hrep.write_respects hok value
  · obtain ⟨s', hstep, hlost', hsame⟩ := step_lost hlost hok
    refine ⟨s', hstep, Or.inr hlost',
      ⟨by rw [hsame]; exact ⟨rfl, rfl⟩, fun p n hp => ?_, fun a _ => by rw [hsame]⟩⟩
    rw [hlost.1.liveMap_eq] at hp
    exact absurd hp List.not_mem_nil

theorem run_respects {s : State} (h : (∃ bs, Rep s bs) ∨ Lost s) {ops : List Op}
    (hok : Allowed step CallerOk s ops) (hno : Allowed step (fun s op => ¬Wraps s op) s ops) :
    ∃ s', run step s ops = some s' ∧
      (∀ p n, (p, n) ∈ liveMap s → Op.kfree p ∉ ops → (p, n) ∈ liveMap s' ∧
        ∀ a : UInt32, p.toNat ≤ a.toNat → a.toNat < p.toNat + n.toNat →
          s'.mem a = ops.foldl (fun v op => op.written a v) (s.mem a)) ∧
      ∀ a : UInt32, a.toNat < s.heapStartPtr.toNat ∨ s.heapEndPtr.toNat ≤ a.toNat → s'.mem a = s.mem a := by
  induction ops generalizing s with
  | nil => exact ⟨s, rfl, fun p n hp _ => ⟨hp, fun a _ _ => rfl⟩, fun a _ => rfl⟩
  | cons op ops ih =>
    obtain ⟨t, hstep, ht, hfirst⟩ := step_respects h hok.1 hno.1
    obtain ⟨s', hrun, hlive, houtside⟩ := ih ht (hok.2 t hstep) (hno.2 t hstep)
    refine ⟨s', by rw [run, hstep, Option.bind_some, hrun], fun p n hp hkeep => ?_, fun a ha => ?_⟩
    · rw [List.mem_cons, not_or] at hkeep
      obtain ⟨hp', hbytes⟩ := hfirst.live p n hp (Ne.symm hkeep.1)
      obtain ⟨hp'', hbytes'⟩ := hlive p n hp' hkeep.2
      refine ⟨hp'', fun a hlo hhi => ?_⟩
      rw [hbytes' a hlo hhi, hbytes a hlo hhi]
      rfl
    · rw [houtside a (by rw [hfirst.region.1, hfirst.region.2]; exact ha), hfirst.outside a ha]

/-- **A live block is an array of its own.** Along every run from a reachable state in which no
`kcalloc` wraps, a block that is not released stays live, and each of its bytes is what its owner
wrote last, if anything; the allocations and releases around it do not show. No byte outside the
region changes. -/
theorem live_bytes_are_the_owners {kernelEnd : UInt32} (hfits : HeapFits kernelEnd) {s : State}
    (hreach : Reachable kernelEnd s) {ops : List Op} (hok : Allowed step CallerOk s ops)
    (hno : Allowed step (fun s op => ¬Wraps s op) s ops) :
    ∃ s', run step s ops = some s' ∧
      (∀ p n, (p, n) ∈ liveMap s → Op.kfree p ∉ ops → (p, n) ∈ liveMap s' ∧
        ∀ a : UInt32, p.toNat ≤ a.toNat → a.toNat < p.toNat + n.toNat →
          s'.mem a = ops.foldl (fun v op => op.written a v) (s.mem a)) ∧
      ∀ a : UInt32, a.toNat < s.heapStartPtr.toNat ∨ s.heapEndPtr.toNat ≤ a.toNat → s'.mem a = s.mem a :=
  run_respects (hreach.cases hfits) hok hno

theorem live_bytes_are_the_owners_among_calls :
    ∃ p n s s', kmalloc (heapInit 0x00200000 bootState) 100 = some (p, s) ∧ (p, n) ∈ liveMap s ∧
      run step s [.write p 0x41, .kmalloc 16, .kcalloc 4 4, .kfree 7] = some s' ∧ (p, n) ∈ liveMap s' ∧
      s'.mem p = 0x41 := by
  have hfits : HeapFits 0x00200000 := by decide
  have hrep := heapInit_rep hfits bootState
  rcases kmalloc_cases hrep 100 with ⟨-, hnone⟩ | ⟨xs, b, ys, s, -, hsplit, -, hle, -, hk, hrep', -⟩
  · exact absurd hnone (by decide)
  have hb : b ∈ [initialBlock 0x00200000] := by simp [hsplit]
  obtain rfl := List.mem_singleton.mp hb
  have hreach : Reachable 0x00200000 s :=
    ⟨bootState, [.kmalloc 100], ⟨trivial, fun _ _ => trivial⟩, by rw [run, step, hk]; rfl⟩
  have hserved := served_mem xs ys (initialBlock 0x00200000) (heapAlignUp 100 heapAlignment)
  have hmem : (heapBlockPayloadAddress (initialBlock 0x00200000).addr,
      (served (initialBlock 0x00200000) (heapAlignUp 100 heapAlignment)).size) ∈ liveMap s :=
    hrep'.entry_mem.mpr ⟨_, hserved, served_free _ _, by rw [served_addr], rfl⟩
  have hsize : 0 < (served (initialBlock 0x00200000) (heapAlignUp 100 heapAlignment)).size.toNat :=
    by decide
  obtain ⟨s', hrun, hlive, -⟩ := @live_bytes_are_the_owners 0x00200000 hfits s hreach
    [.write (heapBlockPayloadAddress (initialBlock 0x00200000).addr) 0x41, .kmalloc 16,
      .kcalloc 4 4, .kfree 7]
    ⟨⟨_, hmem, le_rfl, Nat.lt_add_of_pos_right hsize⟩,
      fun _ _ => ⟨trivial, fun _ _ => ⟨trivial, fun _ _ => ⟨trivial, fun _ _ => trivial⟩⟩⟩⟩
    ⟨id, fun _ _ => ⟨id, fun _ _ => ⟨fun hw => absurd hw.1 (by decide),
      fun _ _ => ⟨id, fun _ _ => trivial⟩⟩⟩⟩
  obtain ⟨hmem', hbytes⟩ := hlive _ _ hmem (by decide)
  refine ⟨_, _, s, s', hk, hmem, hrun, hmem', ?_⟩
  rw [hbytes _ le_rfl (Nat.lt_add_of_pos_right hsize)]
  rfl

end TermobKernel.Heap

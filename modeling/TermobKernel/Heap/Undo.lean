import TermobKernel.Heap.Drain

/-!
# A release takes an allocation back

`kmalloc` splits a block and `kfree` joins blocks, by code that shares nothing. A tiling without two
free neighbours is determined by its used blocks, so that the release of a block that was just
allocated can only lead back to the list there was before. The same holds of the words: the links
are determined by the two lists, and of the flags only the bit of the free blocks has changed,
twice.
-/

namespace TermobKernel.Heap
open Word Dll

/-- The physical chain and the free list are the same, word for word. -/
structure SameLists (s s' : State) : Prop where
  blocks : blocks s' = blocks s
  first : s'.heapFirstBlock = s.heapFirstBlock
  words : ∀ b ∈ TermobKernel.Heap.blocks s, ∀ f ∈ [Field.magic, .flags, .sizeBytes, .prevPhys, .nextPhys],
    s'.get f b.addr = s.get f b.addr
  freeBlocks : freeBlocks s' = freeBlocks s
  head : s'.heapFreeList = s.heapFreeList
  links : ∀ a ∈ TermobKernel.Heap.freeBlocks s,
    s'.get .prevFree a = s.get .prevFree a ∧ s'.get .nextFree a = s.get .nextFree a

theorem isList_links {L L' : Links UInt32} {xs : List UInt32} (h : IsList 0 L xs)
    (h' : IsList 0 L' xs) {a : UInt32} (ha : a ∈ xs) : L'.prev a = L.prev a ∧ L'.next a = L.next a := by
  obtain ⟨us, vs, rfl⟩ := List.append_of_mem ha
  exact ⟨h'.prev_eq.trans h.prev_eq.symm, h'.next_eq.trans h.next_eq.symm⟩

section rep
variable {s s' : State} {bs : List Block}

theorem Rep.flags_eq (h : Rep s bs) (h' : Rep s' bs) (hkept : Kept (· ∈ addrs bs) s s') {b : Block}
    (hb : b ∈ bs) :
    s'.get .flags b.addr = s.get .flags b.addr := by
  refine eq_of_or_one_of_and_one (hkept.flags b.addr (List.mem_map_of_mem hb)) ?_
  have hfree := (h.phys.header b hb).free.trans (h'.phys.header b hb).free.symm
  have hbit : ∀ x : UInt32, x &&& 1 = 0 ∨ x &&& 1 = 1 := by
    intro x
    have hmod := toNat_and_mask x 1 (by omega)
    rcases Nat.mod_two_eq_zero_or_one x.toNat with h0 | h1
    · exact Or.inl (UInt32.toNat_inj.mp (hmod.trans h0))
    · exact Or.inr (UInt32.toNat_inj.mp (hmod.trans h1))
  simp only [heapBlockIsFree, heapBlockFlagFree] at hfree
  rcases hbit (s.get .flags b.addr) with hs | hs <;> rcases hbit (s'.get .flags b.addr) with hs' | hs'
  · rw [hs, hs']
  · rw [hs, hs'] at hfree
    cases hfree
  · rw [hs, hs'] at hfree
    cases hfree
  · rw [hs, hs']

theorem Rep.sameLists (h : Rep s bs) (h' : Rep s' bs) (hkept : Kept (· ∈ addrs bs) s s') :
    SameLists s s' where
  blocks := h'.blocks_eq.trans h.blocks_eq.symm
  first := statics_first hkept.statics
  words := by
    rw [h.blocks_eq]
    intro b hb f hf
    obtain ⟨hprev, hnext⟩ := isList_links h.phys.chain h'.phys.chain (List.mem_map_of_mem hb)
    have hold := h.phys.header b hb
    have hnew := h'.phys.header b hb
    simp only [List.mem_cons, List.not_mem_nil, or_false] at hf
    rcases hf with rfl | rfl | rfl | rfl | rfl
    · exact hnew.magic.trans hold.magic.symm
    · exact h.flags_eq h' hkept hb
    · exact hnew.size.trans hold.size.symm
    · exact hprev
    · exact hnext
  freeBlocks := h'.freeBlocks_eq.trans h.freeBlocks_eq.symm
  head := h'.listed.head.trans h.listed.head.symm
  links := by
    rw [h.freeBlocks_eq]
    exact fun a ha => isList_links h.listed h'.listed ha

theorem taken_append (b : Block) (size : UInt32) (ys : List Block) :
    ∃ zs, taken b size ++ ys = served b size :: zs ∧ used zs = used ys ∧ ∀ c ∈ ys, c ∈ zs := by
  unfold taken served
  split
  · exact ⟨splitBack b size :: ys, rfl, used_cons_free rfl ys, fun c hc => List.mem_cons_of_mem _ hc⟩
  · exact ⟨ys, rfl, rfl, fun c hc => hc⟩

theorem addrs_taken (xs ys : List Block) (b : Block) (size : UInt32) {a : UInt32}
    (ha : a ∈ addrs (xs ++ b :: ys)) :
    a ∈ addrs (xs ++ (taken b size ++ ys)) := by
  obtain ⟨zs, hzs, _, hsub⟩ := taken_append b size ys
  obtain ⟨c, hc, rfl⟩ := List.mem_map.mp ha
  rw [hzs, addrs_append, List.mem_append]
  rcases List.mem_append.mp hc with hold | hrest
  · exact Or.inl (List.mem_map_of_mem hold)
  · right
    rcases List.mem_cons.mp hrest with rfl | hbehind
    · rw [← served_addr c size]
      exact List.mem_map_of_mem List.mem_cons_self
    · exact List.mem_map_of_mem (List.mem_cons_of_mem _ (hsub c hbehind))

/-- The release of a block that was taken from `b` brings `b` back, whatever was written into the
payload before. -/
theorem Rep.kfree_taken {xs ys : List Block} {b : Block} {size : UInt32} {t t' : State}
    (h : Rep s (xs ++ b :: ys)) (hb : b.free = true) (ht : Kept (· ∈ addrs (xs ++ b :: ys)) s t)
    (ht' : Rep t' (xs ++ (taken b size ++ ys))) (hkept : Kept (· ∈ addrs (xs ++ b :: ys)) t t') :
    ∃ s', kfree t' (heapBlockPayloadAddress b.addr) = some s' ∧ Rep s' (xs ++ b :: ys) ∧
      Kept (· ∈ addrs (xs ++ b :: ys)) s s' := by
  obtain ⟨zs, hzs, hused, _⟩ := taken_append b size ys
  rw [hzs] at ht'
  obtain ⟨s', hk, hrep, hk'⟩ := kfree_used ht' (served_free b size)
  have hst : s'.statics = s.statics := hk'.statics.trans (hkept.statics.trans ht.statics)
  have hsame : xs ++ b :: ys = released xs (served b size) zs := by
    refine h.same_blocks hrep (statics_start hst) (statics_end hst) ?_
    rw [released, used_coalesced _ rfl, used_append, used_append, used_cons_free hb, hused]
  rw [← hsame] at hrep hk'
  rw [served_addr] at hk
  exact ⟨s', hk, hrep, (ht.trans hkept).trans hk'⟩

theorem Rep.kcalloc_cases (h : Rep s bs) {count size : UInt32}
    (hsmall : requested count size ≤ 2 ^ 32 - 16) :
    kcalloc s count size = some (0, s) ∨
      ∃ xs b ys rounded s', bs = xs ++ b :: ys ∧ b.free = true ∧
        kcalloc s count size = some (heapBlockPayloadAddress b.addr, s') ∧
        Rep s' (xs ++ (taken b rounded ++ ys)) ∧ Kept (· ∈ addrs bs) s s' := by
  rcases h.kcalloc_served count size with
    ⟨hk, _⟩ | ⟨xs, b, ys, t, hreq, _, rfl, hb, hfit, _, _, hrep, hkept, hk⟩
  · exact Or.inl hk
  · have hround : (count * size).toNat ≤ (heapAlignUp (count * size) heapAlignment).toNat :=
      heapAlignUp_ge (by omega)
    have hle : requested count size ≤ (heapAlignUp (count * size) heapAlignment).toNat := by omega
    refine Or.inr ⟨xs, b, ys, _, _, rfl, hb, hk, hrep.zero hfit hle, hkept.trans ?_⟩
    refine (hrep.zero_frame hfit hle).kept List.not_mem_nil |>.mono fun a ha => ?_
    exact addrs_taken xs ys b _ ha

theorem freeScan_note (s : State) (flag : UInt32) (message : String) (walks : Nat) (block : UInt32) :
    freeScan (heapNoteError s flag message) walks block = freeScan s walks block := by
  induction walks generalizing block with
  | zero => rfl
  | succ walks ih =>
    rw [freeScan, freeScan, ih]
    rfl

theorem Wiped.sameLists_note (h : Wiped s) (flag : UInt32) (message : String) :
    SameLists s (heapNoteError s flag message) where
  blocks := by
    have hwiped : Wiped (heapNoteError s flag message) := h
    rw [hwiped.blocks_eq, h.blocks_eq]
  first := rfl
  words := fun _ _ _ _ => rfl
  freeBlocks := freeScan_note s flag message _ _
  head := rfl
  links := fun _ _ => ⟨rfl, rfl⟩

theorem SameLists.refl (s : State) : SameLists s s :=
  ⟨rfl, rfl, fun _ _ _ _ => rfl, rfl, rfl, fun _ _ => ⟨rfl, rfl⟩⟩

end rep

/-- **Allocating and releasing is the identity.** In every reachable state, the release of a block
that was just allocated ends, brings back the physical chain and the free list with all their words,
and records nothing. -/
theorem allocate_release_identity {kernelEnd : UInt32} (hfits : HeapFits kernelEnd) {s : State}
    (hreach : Reachable kernelEnd s) {size p : UInt32} {s' : State}
    (hk : kmalloc s size = some (p, s')) (hp : p ≠ 0) :
    ∃ s'', kfree s' p = some s'' ∧ SameLists s s'' ∧ s''.statics = s.statics := by
  rcases hreach.cases hfits with ⟨bs, hrep⟩ | hlost
  · rcases kmalloc_cases hrep size with ⟨hnull, _⟩ | ⟨xs, b, ys, t, _, rfl, hb, _, _, hk', hrep', hkept⟩
    · rw [hnull] at hk
      cases hk
      exact absurd rfl hp
    · rw [hk'] at hk
      cases hk
      obtain ⟨s'', hfree, hback, hsame⟩ := hrep.kfree_taken hb hkept hrep' (Kept.refl _ _)
      exact ⟨s'', hfree, hrep.sameLists hback hsame, hsame.statics⟩
  · -- a heap whose headers are gone serves nothing
    rcases hlost.1.kmalloc_null size with hnull | hnull
    · rw [hnull] at hk
      cases hk
      exact absurd rfl hp
    · rw [hnull] at hk
      cases hk
      exact absurd rfl hp

theorem allocate_release_at_boot :
    ∃ p s' s'', kmalloc (heapInit 0x00200000 bootState) 100 = some (p, s') ∧ p ≠ 0 ∧ kfree s' p = some s'' ∧
      SameLists (heapInit 0x00200000 bootState) s'' ∧
      s''.statics = (heapInit 0x00200000 bootState).statics := by
  have hfits : HeapFits 0x00200000 := by decide
  have hrep := heapInit_rep hfits bootState
  rcases kmalloc_cases hrep 100 with ⟨_, h0 | hff⟩ | ⟨xs, b, ys, s', _, hsplit, _, _, _, hk, _, _⟩
  · exact absurd h0 (by decide)
  · exact absurd hff (by decide)
  · rw [hsplit] at hrep
    have hp := hrep.phys.payload_ne_zero (b := b) (by simp)
    obtain ⟨s'', hfree, hsame, hst⟩ := allocate_release_identity hfits reachable_init hk hp
    exact ⟨_, s', s'', hk, hp, hfree, hsame, hst⟩

end TermobKernel.Heap

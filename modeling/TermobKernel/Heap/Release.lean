import TermobKernel.Heap.Physical

/-!
# Releasing a block

`heap_coalesce` and `kfree` on the list of blocks. A release marks one block free, links it into the free
list at its address and joins it with the free neighbours on either side; the used blocks that remain are
the same ones in the same places.
-/

namespace TermobKernel.Heap
open Word Dll

variable {b : Block} {xs ys : List Block} {s : State} {bs : List Block} {ptr : UInt32}

/-! ### Joining free neighbours -/

/-- What `heap_try_coalesce_with_next` makes of a free block and the blocks behind it. -/
def absorb (b : Block) : List Block → Block × List Block
  | [] => (b, [])
  | n :: ys => if n.free then (merged b n, ys) else (b, n :: ys)

def used (bs : List Block) : List Block := bs.filter fun b => !b.free

@[simp] theorem used_append (xs ys : List Block) : used (xs ++ ys) = used xs ++ used ys := by simp [used]

theorem used_cons_free (h : b.free = true) (bs : List Block) : used (b :: bs) = used bs := by
  simp [used, h]

theorem used_cons_used (h : b.free = false) (bs : List Block) : used (b :: bs) = b :: used bs := by
  simp [used, h]

section absorb
variable {b : Block} {ys : List Block}

theorem absorb_addr (b : Block) (ys : List Block) :
    (absorb b ys).1.addr = b.addr ∧ (absorb b ys).1.free = b.free := by
  cases ys with
  | nil => exact ⟨rfl, rfl⟩
  | cons n ys =>
    rw [absorb]
    split <;> exact ⟨rfl, rfl⟩

theorem used_absorb : used (absorb b ys).2 = used ys := by
  cases ys with
  | nil => rfl
  | cons n ys =>
    rw [absorb]
    split
    · next hn => rw [used_cons_free hn]
    · rfl

theorem absorb_head (h : Coalesced ys) : ∀ c ∈ (absorb b ys).2.head?, c.free = false := by
  intro c hc
  cases ys with
  | nil => simp [absorb] at hc
  | cons n ys =>
    rw [absorb] at hc
    split at hc
    · next hn =>
      cases ys with
      | nil => simp at hc
      | cons m ys =>
        obtain rfl : m = c := by simpa using hc
        have hpair := (List.isChain_cons_cons.mp h).1
        simpa [hn] using hpair
    · next hn =>
      obtain rfl : n = c := by simpa using hc
      simpa using hn

theorem absorb_subset : addrs ((absorb b ys).1 :: (absorb b ys).2) ⊆ addrs (b :: ys) := by
  cases ys with
  | nil => exact List.Subset.refl _
  | cons n ys =>
    rw [absorb]
    split
    · exact List.cons_subset_cons _ (List.subset_cons_self _ _)
    · exact List.Subset.refl _

theorem absorb_of_head (h : ∀ c ∈ ys.head?, c.free = false) : absorb b ys = (b, ys) := by
  cases ys with
  | nil => rfl
  | cons n ys =>
    have hn : n.free = false := h n rfl
    simp [absorb, hn]

theorem Coalesced.of_append {xs zs : List Block} (h : Coalesced (xs ++ zs)) : Coalesced xs ∧ Coalesced zs :=
  ⟨(List.isChain_append.mp h).1, (List.isChain_append.mp h).2.1⟩

theorem coalesced_absorb (h : Coalesced ys) : Coalesced (absorb b ys).2 := by
  cases ys with
  | nil => exact h
  | cons n ys =>
    rw [absorb]
    split
    · exact h.tail
    · exact h

theorem coalesced_middle {xs zs : List Block} (hx : Coalesced xs) (hz : Coalesced zs)
    (hlast : ∀ c ∈ xs.getLast?, c.free = false) (hhead : ∀ c ∈ zs.head?, c.free = false) :
    Coalesced (xs ++ b :: zs) := by
  refine List.isChain_append.mpr ⟨hx, List.isChain_cons.mpr ⟨fun c hc => ?_, hz⟩, fun c hc d _ => ?_⟩
  · simp [hhead c hc]
  · simp [hlast c hc]

end absorb

theorem heapTryCoalesceWithNext_eq {block next : UInt32}
    (hguard : ¬(block = 0 ∨ heapBlockIsFree s block = false)) (hnext : s.get .nextPhys block = next) :
    heapTryCoalesceWithNext s block =
      if next = 0 ∨ heapBlockIsFree s next = false then s
      else if heapBlockIsSane s next = false ∨ heapBlockEndAddress s block ≠ next then
        heapNoteError s heapDiagCorruption "TERMOB: heap corruption detected during coalesce"
      else mergeNext (heapRemoveFreeBlock s next) block next := by
  subst hnext
  rw [heapTryCoalesceWithNext, if_neg hguard]
  rfl

theorem heapTryCoalesceWithNext_spec (h : Phys s (xs ++ b :: ys))
    (hl : IsList 0 (freeLinks s) (freeAddrs (xs ++ b :: ys))) (hb : b.free = true) :
    Phys (heapTryCoalesceWithNext s b.addr) (xs ++ (absorb b ys).1 :: (absorb b ys).2) ∧
      IsList 0 (freeLinks (heapTryCoalesceWithNext s b.addr))
        (freeAddrs (xs ++ (absorb b ys).1 :: (absorb b ys).2)) ∧
      Kept (· ∈ addrs (xs ++ b :: ys)) s (heapTryCoalesceWithNext s b.addr) := by
  have hmem : b ∈ xs ++ b :: ys := by simp
  have hguard : ¬(b.addr = 0 ∨ heapBlockIsFree s b.addr = false) := by
    rw [(h.header b hmem).free, hb]
    simpa using h.addr_ne_zero hmem
  have hchain : IsList 0 (physLinks s) (addrs xs ++ b.addr :: addrs ys) := by simpa using h.chain
  have hnext : s.get .nextPhys b.addr = (addrs ys).headD 0 := hchain.next_eq
  rw [heapTryCoalesceWithNext_eq hguard hnext]
  cases ys with
  | nil =>
    rw [show (addrs []).headD 0 = 0 from rfl, if_pos (Or.inl rfl)]
    exact ⟨h, hl, Kept.refl _ _⟩
  | cons n ys =>
    have hnmem : n ∈ xs ++ b :: n :: ys := by simp
    rw [show (addrs (n :: ys)).headD 0 = n.addr from rfl]
    by_cases hn : n.free = true
    · have hstop : heapBlockEndAddress s b.addr = n.addr := by
        have htiles := (tiles_middle.mp h.tiles).2.2
        rw [← UInt32.toNat_inj, h.end_toNat hmem]
        exact htiles.1.symm
      have hfree : freeAddrs (xs ++ b :: n :: ys) = (freeAddrs xs ++ [b.addr]) ++ n.addr ::
          freeAddrs ys := by
        rw [freeAddrs_append, freeAddrs_cons_free hb, freeAddrs_cons_free hn]
        simp
      have hsub : ∀ a ∈ freeAddrs (xs ++ b :: n :: ys), a ∈ addrs (xs ++ b :: n :: ys) :=
        fun a ha => mem_addrs_of_freeAddrs ha
      rw [hfree] at hl hsub
      rw [if_neg (by simpa [(h.header n hnmem).free, hn] using h.addr_ne_zero hnmem),
        if_neg (by simp [h.sane hnmem, hstop])]
      obtain ⟨hl1, hf1⟩ := heapRemoveFreeBlock_spec h.spread hl hsub
      obtain ⟨hphys, hhead, hf2⟩ := mergeNext_spec (h.frame hf1)
      have hnew : freeAddrs (xs ++ merged b n :: ys) = (freeAddrs xs ++ [b.addr]) ++ freeAddrs ys := by
        rw [freeAddrs_append, freeAddrs_cons_free (b := merged b n) hb]
        simp [merged]
      have hl2 := isList_frame_free hl1 hf2 hhead
        (fun a ha => hsub a (by
          simp only [List.mem_append, List.mem_cons] at ha ⊢
          exact ha.imp_right Or.inr))
        (by simp) (by simp)
      simp only [absorb, hn, if_true, hnew]
      exact ⟨hphys, hl2, (hf1.kept (by simp)).trans (hf2.kept (by simp))⟩
    · rw [Bool.not_eq_true] at hn
      rw [if_pos (Or.inr ((h.header n hnmem).free.trans hn))]
      rw [absorb_of_head (by simpa using hn)]
      exact ⟨h, hl, Kept.refl _ _⟩

def absorbTwice (b : Block) (ys : List Block) : List Block :=
  (absorb (absorb b ys).1 (absorb b ys).2).1 :: (absorb (absorb b ys).1 (absorb b ys).2).2

theorem used_absorbTwice (hb : b.free = true) (ys : List Block) : used (absorbTwice b ys) = used ys := by
  rw [absorbTwice, used_cons_free, used_absorb, used_absorb]
  rw [(absorb_addr _ _).2, (absorb_addr _ _).2, hb]

/-- The blocks after `heap_coalesce` of the free block `b` between `xs` and `ys`: the joins start from the
block before if that is free. -/
def coalesced (xs : List Block) (b : Block) (ys : List Block) : List Block :=
  match xs.getLast? with
  | none => absorbTwice b ys
  | some p => if p.free then xs.dropLast ++ absorbTwice p (b :: ys) else xs ++ absorbTwice b ys

theorem coalesced_of_last_used {xs : List Block} (h : ∀ c ∈ xs.getLast?, c.free = false) (b : Block)
    (ys : List Block) : coalesced xs b ys = xs ++ absorbTwice b ys := by
  unfold coalesced
  rcases List.eq_nil_or_concat' xs with rfl | ⟨zs, p, rfl⟩
  · rfl
  · have hp : p.free = false := h p (by simp)
    simp [hp]

theorem coalesced_of_last_free {zs : List Block} {p : Block} (hp : p.free = true) (b : Block)
    (ys : List Block) :
    coalesced (zs ++ [p]) b ys = zs ++ absorbTwice p (b :: ys) := by
  simp [coalesced, hp]

theorem absorbTwice_subset (b : Block) (ys : List Block) : addrs (absorbTwice b ys) ⊆ addrs (b :: ys) :=
  List.Subset.trans absorb_subset absorb_subset

theorem coalesced_subset (xs : List Block) (b : Block) (ys : List Block) :
    addrs (coalesced xs b ys) ⊆ addrs (xs ++ b :: ys) := by
  by_cases hlast : ∀ c ∈ xs.getLast?, c.free = false
  · rw [coalesced_of_last_used hlast]
    exact addrs_subset_append xs (absorbTwice_subset b ys)
  · rcases List.eq_nil_or_concat' xs with rfl | ⟨zs, p, rfl⟩
    · exact absurd (by simp) hlast
    · have hp : p.free = true := by simpa using hlast
      rw [coalesced_of_last_free hp, List.append_assoc]
      exact addrs_subset_append zs (absorbTwice_subset p (b :: ys))

theorem used_coalesced (xs : List Block) (hb : b.free = true) (ys : List Block) :
    used (coalesced xs b ys) = used (xs ++ ys) := by
  by_cases hlast : ∀ c ∈ xs.getLast?, c.free = false
  · rw [coalesced_of_last_used hlast, used_append, used_absorbTwice hb, used_append]
  · rcases List.eq_nil_or_concat' xs with rfl | ⟨zs, p, rfl⟩
    · exact absurd (by simp) hlast
    · have hp : p.free = true := by simpa using hlast
      rw [coalesced_of_last_free hp, used_append, used_absorbTwice hp, used_cons_free hb, List.append_assoc,
        used_append, List.singleton_append, used_cons_free hp]

theorem coalesceFrom_spec (h : Phys s (xs ++ b :: ys))
    (hl : IsList 0 (freeLinks s) (freeAddrs (xs ++ b :: ys))) (hb : b.free = true)
    (hx : Coalesced xs) (hlast : ∀ c ∈ xs.getLast?, c.free = false) (hy : Coalesced (absorb b ys).2) :
    Rep (heapTryCoalesceWithNext (heapTryCoalesceWithNext s b.addr) b.addr) (xs ++ absorbTwice b ys) ∧
      Kept (· ∈ addrs (xs ++ absorbTwice b ys)) s
        (heapTryCoalesceWithNext (heapTryCoalesceWithNext s b.addr) b.addr) := by
  obtain ⟨h1, hl1, hs1⟩ := heapTryCoalesceWithNext_spec h hl hb
  obtain ⟨haddr, hfree⟩ := absorb_addr b ys
  obtain ⟨h2, hl2, hs2⟩ := heapTryCoalesceWithNext_spec h1 hl1 (hfree.trans hb)
  rw [haddr] at h2 hl2 hs2
  refine ⟨⟨h2, hl2, ?_⟩, (hs1.mono fun a ha => addrs_subset_append xs (absorbTwice_subset b ys) ha).trans
    (hs2.mono fun a ha => addrs_subset_append xs absorb_subset ha)⟩
  exact coalesced_middle hx (coalesced_absorb hy) hlast (absorb_head hy)

theorem heapCoalesce_spec (h : Phys s (xs ++ b :: ys))
    (hl : IsList 0 (freeLinks s) (freeAddrs (xs ++ b :: ys))) (hb : b.free = true)
    (hx : Coalesced xs) (hy : Coalesced ys) :
    Rep (heapCoalesce s b.addr).2 (coalesced xs b ys) ∧
      Kept (· ∈ addrs (coalesced xs b ys)) s (heapCoalesce s b.addr).2 := by
  have hmem : b ∈ xs ++ b :: ys := by simp
  have hchain : IsList 0 (physLinks s) (addrs xs ++ b.addr :: addrs ys) := by simpa using h.chain
  have hprev : s.get .prevPhys b.addr = (addrs xs).getLastD 0 := hchain.prev_eq
  unfold heapCoalesce
  rw [if_neg (h.addr_ne_zero hmem)]
  by_cases hlast : ∀ c ∈ xs.getLast?, c.free = false
  · have hstay : ¬(s.get .prevPhys b.addr ≠ 0 ∧ heapBlockIsFree s (s.get .prevPhys b.addr) = true) := by
      rintro ⟨h0, hf⟩
      rcases List.eq_nil_or_concat' xs with rfl | ⟨zs, p, rfl⟩
      · exact h0 hprev
      · have hp : s.get .prevPhys b.addr = p.addr := by simpa [addrs] using hprev
        rw [hp, (h.header p (by simp)).free, hlast p (by simp)] at hf
        exact absurd hf (by simp)
    simp only [if_neg hstay]
    rw [coalesced_of_last_used hlast]
    exact coalesceFrom_spec h hl hb hx hlast (coalesced_absorb hy)
  · -- the block before is free: the joins start from there
    rcases List.eq_nil_or_concat' xs with rfl | ⟨zs, p, rfl⟩
    · exact absurd (by simp) hlast
    · have hpf : p.free = true := by simpa using hlast
      have hp : s.get .prevPhys b.addr = p.addr := by simpa [addrs] using hprev
      have hpm : p ∈ zs ++ [p] ++ b :: ys := by simp
      have hgo : p.addr ≠ 0 ∧ heapBlockIsFree s p.addr = true := by
        rw [(h.header p hpm).free]
        exact ⟨h.addr_ne_zero hpm, hpf⟩
      simp only [hp, if_pos hgo]
      rw [List.append_assoc, List.cons_append, List.nil_append] at h hl
      obtain ⟨hzs, _, hbound⟩ := List.isChain_append.mp hx
      have hzlast : ∀ c ∈ zs.getLast?, c.free = false := by
        intro c hc
        have hpair := hbound c hc p rfl
        simpa [hpf] using hpair
      rw [coalesced_of_last_free hpf]
      refine coalesceFrom_spec h hl hpf hzs hzlast ?_
      simpa [absorb, hb] using hy

/-! ### Finding a block -/

def blockAt (bs : List Block) (ptr : UInt32) : Option Block :=
  bs.find? fun b => decide (heapBlockPayloadAddress b.addr = ptr)

theorem heapFindScan_spec (h : Phys s bs) {cs : List Block} {walks : Nat} {previous block : UInt32}
    (hscan : PhysScan s bs walks previous block cs) :
    heapFindScan s ptr walks block = (((blockAt cs ptr).map (·.addr)).getD 0, s) := by
  induction hscan with
  | done => rfl
  | visit b h0 _ hb _ ih =>
    rw [heapFindScan, if_neg h0, if_neg (by simp [h.sane hb]), ih]
    by_cases hp : heapBlockPayloadAddress b.addr = ptr
    · simp [blockAt, hp]
    · simp [blockAt, hp]

theorem heapFindBlockByPayload_spec (h : Phys s bs) (hp : ptr ≠ 0) :
    heapFindBlockByPayload s ptr = (((blockAt bs ptr).map (·.addr)).getD 0, s) := by
  rw [heapFindBlockByPayload, if_neg (by simp [h.region.ready, hp])]
  exact heapFindScan_spec h h.scan

/-! ### `kfree` -/

theorem tiles_addr_lt {lo hi : Nat} (h : Tiles lo (xs ++ b :: ys) hi) :
    (∀ x ∈ addrs xs, x < b.addr) ∧ ∀ y ∈ addrs ys, b.addr < y := by
  obtain ⟨h1, _, h3⟩ := tiles_middle.mp h
  constructor
  · intro x hx
    obtain ⟨c, hc, rfl⟩ := List.mem_map.mp hx
    have hle := (tiles_bounds h1 hc).2.1
    simp only [Block.stop] at hle
    rw [UInt32.lt_iff_toNat_lt]
    omega
  · intro y hy
    obtain ⟨c, hc, rfl⟩ := List.mem_map.mp hy
    have hle := (tiles_bounds h3 hc).1
    simp only [Block.stop] at hle
    rw [UInt32.lt_iff_toNat_lt]
    omega

theorem heapInsertFreeBlock_phys {us vs : List UInt32}
    (h : Phys s (xs ++ b :: ys)) (hl : IsList 0 (freeLinks s) (us ++ vs)) (hus : ∀ u ∈ us, u ∈ addrs xs)
    (hvs : ∀ v ∈ vs, v ∈ addrs ys) :
    ∃ s', heapInsertFreeBlock s b.addr = some s' ∧ Phys s' (xs ++ { b with free := true } :: ys) ∧
      IsList 0 (freeLinks s') (us ++ b.addr :: vs) ∧ Kept (· ∈ addrs (xs ++ b :: ys)) s s' := by
  have hmem : b ∈ xs ++ b :: ys := by simp
  have ha : b.addr ∈ addrs (xs ++ b :: ys) := List.mem_map_of_mem hmem
  obtain ⟨hlt, hgt⟩ := tiles_addr_lt h.tiles
  have hbelow : ∀ u ∈ us, u < b.addr := fun u hu => hlt u (hus u hu)
  have habove : ∀ v ∈ vs, b.addr < v := fun v hv => hgt v (hvs v hv)
  have hsub : ∀ a ∈ us ++ vs, a ∈ addrs (xs ++ b :: ys) := by
    intro a hmem'
    rw [addrs_append, addrs_cons, List.mem_append, List.mem_cons]
    rcases List.mem_append.mp hmem' with hu | hv
    · exact Or.inl (hus a hu)
    · exact Or.inr (Or.inr (hvs a hv))
  have hfresh : b.addr ∉ us ++ vs := by
    intro hin
    rcases List.mem_append.mp hin with hu | hv
    · exact UInt32.lt_irrefl _ (hbelow _ hu)
    · exact UInt32.lt_irrefl _ (habove _ hv)
  have hlen : us.length < UInt32.size := by
    have hnodup : us.Nodup := (List.nodup_append.mp hl.nodup).1
    have hle := (hnodup.subperm hus).length_le
    have hbs := h.length_le
    simp only [addrs, List.length_map] at hle
    simp only [List.length_append] at hbs
    simp only [UInt32.size]
    omega
  obtain ⟨s', hs', hl', hf, hflags⟩ :=
    heapInsertFreeBlock_spec h.spread ha (h.addr_ne_zero hmem) hl hsub hfresh
    hbelow habove hlen
  refine ⟨s', hs', ?_, hl', hf.statics, fun a ha' => ?_⟩
  swap
  · rw [hflags a ha']
    split
    · rw [UInt32.or_assoc, UInt32.or_self]
    · rfl
  refine h.mark hf (heapBlockIsFree_or s' _ (s.get .flags b.addr) ?_) (fun a ha' hne => ?_)
  · rw [hflags _ ha, if_pos rfl]
  · rw [hflags _ ha', if_neg hne]

def released (xs : List Block) (b : Block) (ys : List Block) : List Block :=
  coalesced xs { b with free := true } ys

theorem kfree_used (h : Rep s (xs ++ b :: ys)) (hb : b.free = false) :
    ∃ s', kfree s (heapBlockPayloadAddress b.addr) = some s' ∧ Rep s' (released xs b ys) ∧
      Kept (· ∈ addrs (released xs b ys)) s s' := by
  have hmem : b ∈ xs ++ b :: ys := by simp
  have hpay := h.phys.payload_toNat hmem
  have hp0 := h.phys.payload_ne_zero hmem
  have hat : blockAt (xs ++ b :: ys) (heapBlockPayloadAddress b.addr) = some b := by
    unfold blockAt
    rw [List.find?_eq_some_iff_append]
    refine ⟨by simp, xs, ys, rfl, fun c hc => ?_⟩
    have hlt := (tiles_addr_lt h.phys.tiles).1 c.addr (List.mem_map_of_mem hc)
    have hc' := h.phys.payload_toNat (b := c) (by simp [hc])
    rw [UInt32.lt_iff_toNat_lt] at hlt
    have hne : heapBlockPayloadAddress c.addr ≠ heapBlockPayloadAddress b.addr := by
      intro e
      rw [e] at hc'
      omega
    simpa using hne
  have hl : IsList 0 (freeLinks s) (freeAddrs xs ++ freeAddrs ys) := by
    have := h.listed
    rwa [freeAddrs_append, freeAddrs_cons_used hb] at this
  obtain ⟨s1, hs1, hphys, hl1, hst1⟩ := heapInsertFreeBlock_phys h.phys hl
    (fun _ hu => mem_addrs_of_freeAddrs hu) (fun _ hv => mem_addrs_of_freeAddrs hv)
  have hl1' : IsList 0 (freeLinks s1) (freeAddrs (xs ++ { b with free := true } :: ys)) := by
    rwa [freeAddrs_append, freeAddrs_cons_free rfl]
  obtain ⟨hx, hby⟩ := Coalesced.of_append h.coalesced
  obtain ⟨hrep, hst2⟩ := heapCoalesce_spec hphys hl1' rfl hx hby.tail
  have hsub : ∀ a, a ∈ addrs (released xs b ys) → a ∈ addrs (xs ++ b :: ys) := by
    intro a ha
    have hall := coalesced_subset xs { b with free := true } ys ha
    rwa [addrs_append, addrs_cons, ← addrs_cons b, ← addrs_append] at hall
  refine ⟨(heapCoalesce s1 b.addr).2, ?_, hrep, (hst1.mono hsub).trans hst2⟩
  rw [kfree, if_neg (by simp [h.phys.region.ready, hp0]), heapFindBlockByPayload_spec h.phys hp0, hat]
  simp only [Option.map_some, Option.getD_some]
  rw [if_neg (h.phys.addr_ne_zero hmem), if_neg (by simp [(h.phys.header b hmem).free, hb]), hs1]
  rfl

theorem kfree_free (h : Rep s bs)
    (hat : blockAt bs ptr = some b) (hb : b.free = true) (hp : ptr ≠ 0) :
    kfree s ptr = some (heapNoteError s heapDiagDoubleFree "TERMOB: double free detected") := by
  have hmem : b ∈ bs := List.mem_of_find?_eq_some hat
  rw [kfree, if_neg (by simp [h.phys.region.ready, hp]), heapFindBlockByPayload_spec h.phys hp, hat]
  simp only [Option.map_some, Option.getD_some]
  rw [if_neg (h.phys.addr_ne_zero hmem), if_pos ((h.phys.header b hmem).free.trans hb)]

theorem kfree_foreign (h : Rep s bs) (hat : blockAt bs ptr = none) (hp : ptr ≠ 0) :
    kfree s ptr = some (heapNoteError s heapDiagInvalidFree "TERMOB: invalid kfree pointer") := by
  rw [kfree, if_neg (by simp [h.phys.region.ready, hp]), heapFindBlockByPayload_spec h.phys hp, hat]
  rfl

end TermobKernel.Heap

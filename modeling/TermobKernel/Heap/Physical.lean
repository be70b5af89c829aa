import TermobKernel.Heap.Blocks

/-!
# The physical chain

What marking, splitting and merging do to the list of blocks. Each operation is stated on the physical
side alone; the free list is carried along by what the operation leaves of its links.
-/

namespace TermobKernel.Heap
open Word Dll

variable {xs ys : List Block} {D : UInt32 → Prop} {s : State} {lo hi : Nat} {b n : Block}

section frames
variable {s s' : State} {bs : List Block}

theorem Region.of_statics (h : Region s) (hs : s'.statics = s.statics) : Region s' := by
  obtain ⟨h1, h2, h3, h4⟩ := h
  refine ⟨?_, ?_, ?_, ?_⟩
  · rw [statics_ready hs, h1]
  · rwa [statics_start hs]
  · rwa [statics_start hs]
  · rwa [statics_start hs, statics_end hs]

theorem Header.congr {b : Block} (h : Header s b) (hmagic : s'.get .magic b.addr = s.get .magic b.addr)
    (hsize : s'.get .sizeBytes b.addr = s.get .sizeBytes b.addr)
    (hflags : s'.get .flags b.addr = s.get .flags b.addr) : Header s' b := by
  refine ⟨hmagic.trans h.magic, hsize.trans h.size, ?_⟩
  rw [heapBlockIsFree, hflags]
  exact h.free

theorem Phys.frame (h : Phys s bs) (hf : Frame (· ∈ addrs bs) [.prevFree, .nextFree] s s') :
    Phys s' bs := by
  refine ⟨h.region.of_statics hf.statics, ?_, ?_, fun b hb => ?_⟩
  · rw [statics_start hf.statics, statics_end hf.statics]
    exact h.tiles
  · exact isList_frame_phys h.chain hf (fun _ hx => hx) (by simp) (by simp)
  · have ha : b.addr ∈ addrs bs := List.mem_map_of_mem hb
    exact (h.header b hb).congr (hf.get _ ha _ (by simp)) (hf.get _ ha _ (by simp))
      (hf.get _ ha _ (by simp))

theorem Phys.mark {xs ys : List Block} {b : Block} {v : Bool} (h : Phys s (xs ++ b :: ys))
    (hf : Frame (· ∈ addrs (xs ++ b :: ys)) [.flags, .prevFree, .nextFree] s s')
    (hself : heapBlockIsFree s' b.addr = v)
    (hother : ∀ a ∈ addrs (xs ++ b :: ys), a ≠ b.addr → s'.get .flags a = s.get .flags a) :
    Phys s' (xs ++ { b with free := v } :: ys) := by
  have haddrs : addrs (xs ++ { b with free := v } :: ys) = addrs (xs ++ b :: ys) := by simp
  have htiles : Tiles s.heapStartPtr.toNat (xs ++ { b with free := v } :: ys) s.heapEndPtr.toNat := by
    obtain ⟨h1, h2, h3⟩ := tiles_middle.mp h.tiles
    exact tiles_middle.mpr ⟨h1, h2, h3⟩
  refine ⟨h.region.of_statics hf.statics, ?_, ?_, fun c hc => ?_⟩
  · rw [statics_start hf.statics, statics_end hf.statics]
    exact htiles
  · rw [haddrs]
    exact isList_frame_phys h.chain hf (fun _ hx => hx) (by simp) (by simp)
  · rcases eq_or_ne c { b with free := v } with rfl | hne
    · have hb : b ∈ xs ++ b :: ys := by simp
      have ha : b.addr ∈ addrs (xs ++ b :: ys) := List.mem_map_of_mem hb
      obtain ⟨h1, h2, _⟩ := h.header b hb
      exact ⟨(hf.get _ ha _ (by simp)).trans h1, (hf.get _ ha _ (by simp)).trans h2, hself⟩
    · have hc' : c ∈ xs ++ b :: ys := by
        simp only [List.mem_append, List.mem_cons] at hc ⊢
        rcases hc with hc | hc | hc
        · exact Or.inl hc
        · exact absurd hc hne
        · exact Or.inr (Or.inr hc)
      have ha : c.addr ∈ addrs (xs ++ b :: ys) := List.mem_map_of_mem hc'
      have hab : c.addr ≠ b.addr := by
        intro he
        have hmem : ({ b with free := v } : Block) ∈ xs ++ { b with free := v } :: ys := by simp
        exact hne (tiles_addr_inj htiles hc hmem he)
      exact (h.header c hc').congr (hf.get _ ha _ (by simp)) (hf.get _ ha _ (by simp)) (hother _ ha hab)

end frames

theorem heapBlockIsFree_or (s : State) (a x : UInt32) (h : s.get .flags a = x ||| heapBlockFlagFree) :
    heapBlockIsFree s a = true := by
  have hbit := or_one_and_one x
  simp only [heapBlockIsFree, h, heapBlockFlagFree] at hbit ⊢
  rw [show (1 : UInt32) = 0x00000001 from rfl] at hbit
  rw [hbit]
  rfl

theorem heapMarkBlockUsed_isFree (s : State) (a : UInt32) :
    heapBlockIsFree (heapMarkBlockUsed s a) a = false := by
  have hbit := and_not_one_and_one (s.get .flags a)
  simp only [heapBlockIsFree, heapMarkBlockUsed, get_set_self, heapBlockFlagFree]
  rw [show (0x00000001 : UInt32) = 1 from rfl, hbit]
  rfl

theorem heapMarkBlockUsed_phys {b : Block} (h : Phys s (xs ++ b :: ys)) :
    Phys (heapMarkBlockUsed s b.addr) (xs ++ { b with free := false } :: ys) ∧
      Frame (· ∈ addrs (xs ++ b :: ys)) [.flags] s (heapMarkBlockUsed s b.addr) ∧
      Kept (· ∈ addrs (xs ++ b :: ys)) s (heapMarkBlockUsed s b.addr) := by
  have hD := h.spread
  have ha : b.addr ∈ addrs (xs ++ b :: ys) := by simp
  have hf : Frame (· ∈ addrs (xs ++ b :: ys)) [.flags] s (heapMarkBlockUsed s b.addr) :=
    frame_set hD s _ ha (by simp)
  have hget : ∀ a ∈ addrs (xs ++ b :: ys), (heapMarkBlockUsed s b.addr).get .flags a =
      if a = b.addr then s.get .flags a &&& ~~~heapBlockFlagFree else s.get .flags a := by
    intro a ha'
    rw [heapMarkBlockUsed, get_set hD s _ _ _ ha ha']
    by_cases hab : a = b.addr
    · rw [if_pos ⟨rfl, hab⟩, if_pos hab, hab]
    · rw [if_neg (fun h => hab h.2), if_neg hab]
  refine ⟨h.mark (hf.mono (fun _ h => h) (by simp)) (heapMarkBlockUsed_isFree s b.addr) ?_, hf, hf.statics,
    fun a ha' => ?_⟩
  · intro a ha' hne
    rw [hget a ha', if_neg hne]
  · rw [hget a ha']
    split
    · exact and_not_one_or_one _
    · rfl

/-! ### Splitting -/

/-- What `heap_initialize_block` leaves in the header. -/
def initialWord (size prevPhys nextPhys : UInt32) (isFree : Bool) : Field → UInt32
  | .magic => heapBlockMagic
  | .flags => if isFree then 0 ||| heapBlockFlagFree else 0
  | .sizeBytes => size
  | .prevPhys => prevPhys
  | .nextPhys => nextPhys
  | .prevFree => 0
  | .nextFree => 0

theorem heapInitializeBlock_get (hD : Spread D) (s : State) {block : UInt32} (hb : D block)
    (size prevPhys nextPhys : UInt32) (isFree : Bool) (f : Field) {a : UInt32} (ha : D a) :
    (heapInitializeBlock s block size prevPhys nextPhys isFree).get f a =
      if a = block then initialWord size prevPhys nextPhys isFree f else s.get f a := by
  by_cases hab : a = block
  · subst hab
    cases isFree <;> cases f <;>
      simp [heapInitializeBlock, heapMarkBlockFree, get_set hD _ _ _ _ ha ha, initialWord]
  · cases isFree <;>
      simp [heapInitializeBlock, heapMarkBlockFree, get_set hD _ _ _ _ hb ha, hab]

theorem heapInitializeBlock_statics (s : State) (block size prevPhys nextPhys : UInt32) (isFree : Bool) :
    (heapInitializeBlock s block size prevPhys nextPhys isFree).statics = s.statics ∧
      (heapInitializeBlock s block size prevPhys nextPhys isFree).heapFreeList = s.heapFreeList := by
  cases isFree <;> exact ⟨rfl, rfl⟩

theorem heapSplitBlock_get (hD : Spread D) {block size c next : UInt32}
    (hcan : heapCanSplitBlock s block size = true)
    (hcdef : c = heapBlockPayloadAddress block + size) (hnext : s.get .nextPhys block = next)
    (hb : D block) (hc : D c) (hn : next ≠ 0 → D next) (hne : block ≠ c) :
    ∃ s', heapSplitBlock s block size = (c, s') ∧ s'.statics = s.statics ∧
      s'.heapFreeList = s.heapFreeList ∧ ∀ (f : Field) (a : UInt32), D a → s'.get f a =
        if f = .sizeBytes ∧ a = block then size
        else if f = .nextPhys ∧ a = block then c
        else if f = .prevPhys ∧ next ≠ 0 ∧ a = next then c
        else if a = c then initialWord (s.get .sizeBytes block - size - heapHeaderSize) block next true f
        else s.get f a := by
  obtain ⟨hst, hfr⟩ :=
    heapInitializeBlock_statics s c (s.get .sizeBytes block - size - heapHeaderSize) block next true
  have hget := fun (f : Field) (a : UInt32) (ha : D a) =>
    heapInitializeBlock_get hD s hc (s.get .sizeBytes block - size - heapHeaderSize) block next true f ha
  have hunfold : heapSplitBlock s block size =
      (c, ((if (heapInitializeBlock s c (s.get .sizeBytes block - size - heapHeaderSize) block
          next true).get .nextPhys block ≠ 0 then
        (heapInitializeBlock s c (s.get .sizeBytes block - size - heapHeaderSize) block next
          true).set .prevPhys
          ((heapInitializeBlock s c (s.get .sizeBytes block - size - heapHeaderSize) block next true).get
            .nextPhys block) c
        else heapInitializeBlock s c (s.get .sizeBytes block - size - heapHeaderSize) block next true).set
          .nextPhys block c).set .sizeBytes block size) := by
    unfold heapSplitBlock
    rw [hcan, if_neg (by simp), hnext, ← hcdef]
  rw [hunfold]
  generalize heapInitializeBlock s c (s.get .sizeBytes block - size - heapHeaderSize) block next
    true = t at *
  rw [show t.get .nextPhys block = next by rw [hget _ _ hb, if_neg hne, hnext]]
  refine ⟨_, rfl, ?_, ?_, fun f a ha => ?_⟩
  · rw [statics_set, statics_set, ← hst]
    split <;> rfl
  · rw [heapFreeList_set, heapFreeList_set, heapFreeList_set_guarded, hfr]
  · rw [get_set hD _ _ _ _ hb ha, get_set hD _ _ _ _ hb ha, get_set_guarded hD t _ _ _ hn ha, hget f a ha]

def splitFront (b : Block) (size : UInt32) : Block := { b with size }
def splitBack (b : Block) (size : UInt32) : Block := ⟨b.addr + 32 + size, b.size - size - 32, true⟩

theorem splitBack_toNat {b : Block} {size : UInt32} (hfit : size.toNat + 48 ≤ b.size.toNat)
    (hstop : b.stop < 2 ^ 32) :
    (splitBack b size).addr.toNat = b.addr.toNat + 32 + size.toNat ∧
      (splitBack b size).size.toNat = b.size.toNat - size.toNat - 32 := by
  simp only [Block.stop] at hstop
  have h32 : (32 : UInt32).toNat = 32 := rfl
  have h1 : (b.addr + 32).toNat = b.addr.toNat + 32 := toNat_add_of_lt (by omega)
  have h2 : (b.size - size).toNat = b.size.toNat - size.toNat := toNat_sub_of_le (by omega)
  constructor
  · rw [splitBack, toNat_add_of_lt (by omega), h1]
  · rw [splitBack, toNat_sub_of_le (by omega), h2, h32]

theorem tiles_split {b : Block} {size : UInt32}
    (h : Tiles lo (xs ++ b :: ys) hi) (hfit : size.toNat + 48 ≤ b.size.toNat) (hsize : size.toNat % 16 = 0)
    (hstop : b.stop < 2 ^ 32) : Tiles lo (xs ++ splitFront b size :: splitBack b size :: ys) hi := by
  obtain ⟨h1, h2, h3⟩ := tiles_middle.mp h
  obtain ⟨ha, hs⟩ := splitBack_toNat hfit hstop
  refine tiles_middle.mpr ⟨h1, hsize, ?_, ?_, ?_⟩
  · simp only [ha, Block.stop, splitFront]
  · rw [hs]
    omega
  · have : (splitBack b size).stop = b.stop := by
      simp only [Block.stop, ha, hs]
      omega
    rwa [this]

section split
variable {s s' : State} {xs ys : List Block} {b : Block} {size : UInt32}

theorem heapCanSplitBlock_of_fit (h : Phys s (xs ++ b :: ys)) (hfit : size.toNat + 48 ≤ b.size.toNat) :
    heapCanSplitBlock s b.addr size = true := by
  have hb : b ∈ xs ++ b :: ys := by simp
  have hle : ¬size > b.size := by
    rw [gt_iff_lt, UInt32.lt_iff_toNat_lt]
    omega
  have hlim : heapHeaderSize + heapMinSplitBytes = 48 := by decide
  unfold heapCanSplitBlock
  rw [(h.header b hb).size, hlim, if_neg (by rintro (h0 | h0); exacts [h.addr_ne_zero hb h0, hle h0]),
    decide_eq_true_eq, ge_iff_le, UInt32.le_iff_toNat_le, toNat_sub_of_le (by omega)]
  change 48 ≤ _
  omega

theorem Phys.stop_lt (h : Phys s (xs ++ b :: ys)) : b.stop < 2 ^ 32 :=
  lt_of_le_of_lt (tiles_bounds h.tiles (by simp)).2.1 s.heapEndPtr.toNat_lt

theorem splitBack_fresh (h : Phys s (xs ++ b :: ys)) (hfit : size.toNat + 48 ≤ b.size.toNat) :
    (splitBack b size).addr ∉ addrs (xs ++ b :: ys) := by
  obtain ⟨haddr, _⟩ := splitBack_toNat hfit h.stop_lt
  intro hmem
  obtain ⟨c, hc, he⟩ := List.mem_map.mp hmem
  have hd := tiles_disjoint h.tiles (show b ∈ xs ++ b :: ys by simp) hc
  have hpos := congrArg UInt32.toNat he
  simp only [Block.stop] at hd
  rcases hd with rfl | hd | hd <;> omega

theorem splitBack_ne_zero (h : Phys s (xs ++ b :: ys)) (hfit : size.toNat + 48 ≤ b.size.toNat) :
    (splitBack b size).addr ≠ 0 := by
  intro he
  have hz := congrArg UInt32.toNat he
  rw [(splitBack_toNat hfit h.stop_lt).1, UInt32.toNat_zero] at hz
  omega

theorem addrs_split : addrs (xs ++ splitFront b size :: splitBack b size :: ys) =
    addrs xs ++ b.addr :: (splitBack b size).addr :: addrs ys := by
  simp [splitFront]

theorem mem_addrs_split {a : UInt32} (ha : a ∈ addrs (xs ++ b :: ys)) :
    a ∈ addrs (xs ++ splitFront b size :: splitBack b size :: ys) := by
  rw [addrs_split]
  simp only [addrs_append, addrs_cons, List.mem_append, List.mem_cons] at ha ⊢
  rcases ha with ha | ha | ha
  · exact Or.inl ha
  · exact Or.inr (Or.inl ha)
  · exact Or.inr (Or.inr (Or.inr ha))

/-- The words of the headers after a split of `b`: its size and its link, the link back from the
next block, and the new header. -/
structure SplitWords (s s' : State) (xs ys : List Block) (b : Block) (size : UInt32) : Prop where
  fresh : (splitBack b size).addr ∉ addrs (xs ++ b :: ys)
  statics : s'.statics = s.statics
  word : ∀ f, ∀ a ∈ addrs (xs ++ splitFront b size :: splitBack b size :: ys), s'.get f a =
    if f = .sizeBytes ∧ a = b.addr then size
    else if f = .nextPhys ∧ a = b.addr then (splitBack b size).addr
    else if f = .prevPhys ∧ (addrs ys).headD 0 ≠ 0 ∧ a = (addrs ys).headD 0 then (splitBack b size).addr
    else if a = (splitBack b size).addr then
      initialWord (b.size - size - 32) b.addr ((addrs ys).headD 0) true f
    else s.get f a

section
variable (h : SplitWords s s' xs ys b size)
include h

theorem SplitWords.ne {a : UInt32} (ha : a ∈ addrs (xs ++ b :: ys)) :
    a ≠ (splitBack b size).addr :=
  fun he => h.fresh (he ▸ ha)

theorem SplitWords.frame :
    Frame (· ∈ addrs (xs ++ b :: ys)) [.sizeBytes, .prevPhys, .nextPhys] s s' := by
  refine ⟨h.statics, fun a ha f hf => ?_⟩
  simp only [List.mem_cons, List.not_mem_nil, or_false, not_or] at hf
  rw [h.word f a (mem_addrs_split ha)]
  simp only [hf, false_and, if_false, h.ne ha]

theorem SplitWords.header_front (hb : Header s b) :
    Header s' (splitFront b size) := by
  have ha : b.addr ∈ addrs (xs ++ b :: ys) := by simp
  refine ⟨(h.frame.get _ ha _ (by simp)).trans hb.magic, ?_, ?_⟩
  · exact (h.word _ _ (mem_addrs_split ha)).trans (if_pos ⟨rfl, rfl⟩)
  · change heapBlockIsFree s' b.addr = b.free
    rw [heapBlockIsFree, h.frame.get _ ha _ (by simp)]
    exact hb.free

theorem SplitWords.header_back : Header s' (splitBack b size) := by
  have hc : (splitBack b size).addr ∈ addrs (xs ++ splitFront b size :: splitBack b size :: ys) := by simp
  have hne : b.addr ≠ (splitBack b size).addr := h.ne (by simp)
  have hinit : ∀ f, f ≠ .sizeBytes → f ≠ .prevPhys → f ≠ .nextPhys → s'.get f (splitBack b size).addr =
      initialWord (b.size - size - 32) b.addr ((addrs ys).headD 0) true f := by
    intro f h1 h2 h3
    rw [h.word _ _ hc]
    simp only [h1, h2, h3, false_and, if_false, if_true]
  refine ⟨hinit _ (by simp) (by simp) (by simp), ?_, ?_⟩
  · rw [h.word _ _ hc, if_neg (fun hh => hne hh.2.symm), if_neg (by simp), if_neg (by simp), if_pos rfl]
    rfl
  · exact heapBlockIsFree_or s' _ 0 (hinit _ (by simp) (by simp) (by simp))

theorem SplitWords.header_rest (hb : b.addr ∉ addrs xs ++ addrs ys) {d : Block}
    (hd : d ∈ xs ++ ys) (hold : Header s d) : Header s' d := by
  have hd' : d.addr ∈ addrs xs ++ addrs ys := by
    rw [← addrs_append]
    exact List.mem_map_of_mem hd
  have ha : d.addr ∈ addrs (xs ++ b :: ys) := by
    rw [addrs_append, addrs_cons]
    exact List.mem_append.mpr ((List.mem_append.mp hd').imp_right (List.mem_cons_of_mem _))
  have hdb : d.addr ≠ b.addr := fun e => hb (e ▸ hd')
  refine hold.congr (h.frame.get _ ha _ (by simp)) ?_ (h.frame.get _ ha _ (by simp))
  rw [h.word _ _ (mem_addrs_split ha), if_neg (fun hh => hdb hh.2), if_neg (by simp), if_neg (by simp),
    if_neg (h.ne ha)]

theorem SplitWords.chain (hc0 : (splitBack b size).addr ≠ 0)
    (hchain : IsList 0 (physLinks s) (addrs xs ++ b.addr :: addrs ys)) :
    IsList 0 (physLinks s') (addrs (xs ++ splitFront b size :: splitBack b size :: ys)) := by
  have hnext : (physLinks s).next b.addr = (addrs ys).headD 0 := hchain.next_eq
  have hfresh : (splitBack b size).addr ∉ addrs xs ++ b.addr :: addrs ys := by simpa using h.fresh
  have hcn : (splitBack b size).addr ≠ (addrs ys).headD 0 := by
    cases ys with
    | nil => exact hc0
    | cons y ys => exact fun e => hfresh (by simp [e])
  rw [addrs_split]
  refine (hchain.insertAfter hfresh hc0).congr (statics_first h.statics) (fun a ha => ?_) (fun a ha => ?_)
  · change s'.get .nextPhys a = _
    rw [← addrs_split] at ha
    rw [h.word _ a ha]
    simp only [insertAfter, reduceCtorEq, false_and, if_false, true_and, initialWord]
    rw [hnext]
    rfl
  · change s'.get .prevPhys a = _
    rw [← addrs_split] at ha
    rw [h.word _ a ha]
    simp only [insertAfter, reduceCtorEq, false_and, if_false, true_and, initialWord]
    rw [hnext]
    by_cases hac : a = (splitBack b size).addr
    · rw [if_neg (fun hh => hcn (hac ▸ hh.2)), if_pos hac, if_pos hac]
    · simp only [hac, if_false]
      rfl

end

theorem heapSplitBlock_words (h : Phys s (xs ++ b :: ys)) (hfit : size.toNat + 48 ≤ b.size.toNat)
    (hsize : size.toNat % 16 = 0) :
    ∃ s', heapSplitBlock s b.addr size = ((splitBack b size).addr, s') ∧ s'.heapFreeList = s.heapFreeList ∧
      SplitWords s s' xs ys b size := by
  have hD := tiles_spread (tiles_split h.tiles hfit hsize h.stop_lt) (Nat.le_of_lt s.heapEndPtr.toNat_lt)
  have hchain : IsList 0 (physLinks s) (addrs xs ++ b.addr :: addrs ys) := by simpa using h.chain
  have hnext : s.get .nextPhys b.addr = (addrs ys).headD 0 := hchain.next_eq
  have hfresh := splitBack_fresh h hfit
  have hcD : (splitBack b size).addr ∈ addrs (xs ++ splitFront b size :: splitBack b size :: ys) := by simp
  have hne : b.addr ≠ (splitBack b size).addr := fun e => hfresh (by rw [← e]; simp)
  have hnD : (addrs ys).headD 0 ≠ 0 →
      (addrs ys).headD 0 ∈ addrs (xs ++ splitFront b size :: splitBack b size :: ys) := by
    intro h0
    cases ys with
    | nil => exact absurd rfl h0
    | cons y ys => exact mem_addrs_split (by simp)
  obtain ⟨s', heq, hstatics, hfree, hword⟩ := heapSplitBlock_get hD (heapCanSplitBlock_of_fit h hfit)
    (c := (splitBack b size).addr) (by rw [heapBlockPayloadAddress, heapHeaderSize_eq]; rfl) hnext
    (mem_addrs_split (by simp)) hcD hnD hne
  rw [(h.header b (by simp)).size, heapHeaderSize_eq] at hword
  exact ⟨s', heq, hfree, hfresh, hstatics, hword⟩

theorem heapSplitBlock_spec (h : Phys s (xs ++ b :: ys)) (hfit : size.toNat + 48 ≤ b.size.toNat)
    (hsize : size.toNat % 16 = 0) :
    ∃ s', heapSplitBlock s b.addr size = ((splitBack b size).addr, s') ∧
      Phys s' (xs ++ splitFront b size :: splitBack b size :: ys) ∧
      s'.heapFreeList = s.heapFreeList ∧
      Frame (· ∈ addrs (xs ++ b :: ys)) [.sizeBytes, .prevPhys, .nextPhys] s s' := by
  obtain ⟨s', heq, hfree, hwords⟩ := heapSplitBlock_words h hfit hsize
  have hchain : IsList 0 (physLinks s) (addrs xs ++ b.addr :: addrs ys) := by simpa using h.chain
  have hnb : b.addr ∉ addrs xs ++ addrs ys := (List.nodup_middle.mp hchain.nodup).notMem
  refine ⟨s', heq, ⟨h.region.of_statics hwords.statics, ?_, ?_, fun d hd => ?_⟩, hfree, hwords.frame⟩
  · rw [statics_start hwords.statics, statics_end hwords.statics]
    exact tiles_split h.tiles hfit hsize h.stop_lt
  · exact hwords.chain (splitBack_ne_zero h hfit) hchain
  · simp only [List.mem_append, List.mem_cons] at hd
    rcases hd with hd | rfl | rfl | hd
    · exact hwords.header_rest hnb (List.mem_append_left _ hd) (h.header d (by simp [hd]))
    · exact hwords.header_front (h.header b (by simp))
    · exact hwords.header_back
    · exact hwords.header_rest hnb (List.mem_append_right _ hd) (h.header d (by simp [hd]))

end split

/-! ### Merging -/

/-- The last four statements of `heap_try_coalesce_with_next`. -/
def mergeNext (s : State) (block next : UInt32) : State :=
  let s := s.set .sizeBytes block (s.get .sizeBytes block + (heapHeaderSize + s.get .sizeBytes next))
  let s := s.set .nextPhys block (s.get .nextPhys next)
  if s.get .nextPhys next ≠ 0 then s.set .prevPhys (s.get .nextPhys next) block else s

theorem mergeNext_get (hD : Spread D) {block next nn : UInt32} (hb : D block)
    (hn : D next) (hne : next ≠ block) (hnn : s.get .nextPhys next = nn) (hDnn : nn ≠ 0 → D nn) :
    (mergeNext s block next).statics = s.statics ∧ (mergeNext s block next).heapFreeList = s.heapFreeList ∧
      ∀ (f : Field) (a : UInt32), D a → (mergeNext s block next).get f a =
        if f = .prevPhys ∧ nn ≠ 0 ∧ a = nn then block
        else if f = .nextPhys ∧ a = block then nn
        else if f = .sizeBytes ∧ a = block then
          s.get .sizeBytes block + (heapHeaderSize + s.get .sizeBytes next)
        else s.get f a := by
  let t := s.set .sizeBytes block (s.get .sizeBytes block + (heapHeaderSize + s.get .sizeBytes next))
  have ht : t.get .nextPhys next = nn := by
    rw [get_set hD s _ _ _ hb hn, if_neg (by simp), hnn]
  have hu : (t.set .nextPhys block nn).get .nextPhys next = nn := by
    rw [get_set hD t _ _ _ hb hn, if_neg (fun h => hne h.2), ht]
  have hunfold : mergeNext s block next =
      if nn ≠ 0 then (t.set .nextPhys block nn).set .prevPhys nn block else t.set .nextPhys block nn := by
    unfold mergeNext
    change (if (t.set .nextPhys block (t.get .nextPhys next)).get .nextPhys next ≠ 0 then
      (t.set .nextPhys block (t.get .nextPhys next)).set .prevPhys
        ((t.set .nextPhys block (t.get .nextPhys next)).get .nextPhys next) block
      else t.set .nextPhys block (t.get .nextPhys next)) = _
    rw [ht, hu]
  rw [hunfold]
  refine ⟨?_, ?_, fun f a ha => ?_⟩
  · split <;> rfl
  · rw [heapFreeList_set_guarded]
    rfl
  · rw [get_set_guarded hD _ _ _ _ hDnn ha, get_set hD t _ _ _ hb ha, get_set hD s _ _ _ hb ha]

def merged (b n : Block) : Block := { b with size := b.size + (32 + n.size) }

theorem merged_size_toNat (h : Tiles lo (xs ++ b :: n :: ys) hi) (hhi : hi < 2 ^ 32) :
    (merged b n).size.toNat = b.size.toNat + 32 + n.size.toNat ∧ (merged b n).stop = n.stop := by
  obtain ⟨_, _, hn, _, hrest⟩ := tiles_middle.mp h
  have hle := tiles_length hrest
  simp only [Block.stop] at hn hle
  have h32 : (32 : UInt32).toNat = 32 := rfl
  have h1 : (32 + n.size).toNat = 32 + n.size.toNat := toNat_add_of_lt (by omega)
  have h2 : (b.size + (32 + n.size)).toNat = b.size.toNat + 32 + n.size.toNat := by
    rw [toNat_add_of_lt (by omega), h1]
    omega
  refine ⟨h2, ?_⟩
  simp only [Block.stop, merged, h2]
  omega

theorem tiles_merge
    (h : Tiles lo (xs ++ b :: n :: ys) hi) (hhi : hi < 2 ^ 32) : Tiles lo (xs ++ merged b n :: ys) hi := by
  obtain ⟨hsize, hstop⟩ := merged_size_toNat h hhi
  obtain ⟨h1, h2, _, h4, h5⟩ := tiles_middle.mp h
  refine tiles_middle.mpr ⟨h1, ?_, ?_⟩
  · rw [hsize]
    omega
  · rwa [hstop]

theorem mergeNext_spec (h : Phys s (xs ++ b :: n :: ys)) :
    Phys (mergeNext s b.addr n.addr) (xs ++ merged b n :: ys) ∧
      (mergeNext s b.addr n.addr).heapFreeList = s.heapFreeList ∧
      Frame (· ∈ addrs (xs ++ b :: n :: ys)) [.sizeBytes, .prevPhys,
        .nextPhys] s (mergeNext s b.addr n.addr) := by
  have hb : b ∈ xs ++ b :: n :: ys := by simp
  have hn : n ∈ xs ++ b :: n :: ys := by simp
  have hD := h.spread
  have hchain : IsList 0 (physLinks s) (addrs xs ++ b.addr :: n.addr :: addrs ys) := by simpa using h.chain
  have hbn : s.get .nextPhys b.addr = n.addr := hchain.next_eq
  have hnn : s.get .nextPhys n.addr = (addrs ys).headD 0 := by
    have hsplit : addrs xs ++ b.addr :: n.addr :: addrs ys = (addrs xs ++ [b.addr]) ++ n.addr ::
      addrs ys := by simp
    rw [hsplit] at hchain
    exact hchain.next_eq
  have hnb : b.addr ∉ addrs xs ++ n.addr :: addrs ys := (List.nodup_middle.mp hchain.nodup).notMem
  have hne : n.addr ≠ b.addr := fun e => hnb (by simp [e])
  have hDnn : (addrs ys).headD 0 ≠ 0 → (addrs ys).headD 0 ∈ addrs (xs ++ b :: n :: ys) := by
    intro h0
    cases ys with
    | nil => exact absurd rfl h0
    | cons y ys => simp
  obtain ⟨hstatics, hfree, hword⟩ :=
    mergeNext_get hD (List.mem_map_of_mem hb) (List.mem_map_of_mem hn) hne hnn hDnn
  rw [(h.header b hb).size, (h.header n hn).size, heapHeaderSize_eq] at hword
  generalize mergeNext s b.addr n.addr = s' at *
  have hsame : ∀ a ∈ addrs (xs ++ b :: n :: ys), ∀ f, f ≠ .sizeBytes → f ≠ .prevPhys → f ≠ .nextPhys →
      s'.get f a = s.get f a := by
    intro a ha f h1 h2 h3
    rw [hword f a ha]
    simp only [h1, h2, h3, false_and, if_false]
  have hnewAddrs : addrs (xs ++ merged b n :: ys) = addrs xs ++ b.addr :: addrs ys := by simp [merged]
  have hsub : ∀ a ∈ addrs xs ++ b.addr :: addrs ys, a ∈ addrs (xs ++ b :: n :: ys) := by
    intro a ha
    simp only [addrs_append, addrs_cons, List.mem_append, List.mem_cons] at ha ⊢
    rcases ha with ha | ha | ha
    · exact Or.inl ha
    · exact Or.inr (Or.inl ha)
    · exact Or.inr (Or.inr (Or.inr ha))
  refine ⟨⟨h.region.of_statics hstatics, ?_, ?_, fun d hd => ?_⟩, hfree, hstatics, fun a ha f hf => ?_⟩
  · rw [statics_start hstatics, statics_end hstatics]
    exact tiles_merge h.tiles s.heapEndPtr.toNat_lt
  · rw [hnewAddrs]
    refine hchain.removeAfter.congr (statics_first hstatics) (fun a ha => ?_) (fun a ha => ?_)
    · change s'.get .nextPhys a = _
      rw [hword _ a (hsub a ha)]
      simp only [removeAfter, physLinks, hbn, hnn, reduceCtorEq, false_and, if_false, true_and]
    · change s'.get .prevPhys a = _
      rw [hword _ a (hsub a ha)]
      simp only [removeAfter, physLinks, hbn, hnn, reduceCtorEq, false_and, if_false, true_and]
  · simp only [List.mem_append, List.mem_cons] at hd
    have hrest : ∀ c, c ∈ xs ∨ c ∈ ys → Header s' c := by
      intro c hc
      have hmem : c ∈ xs ++ b :: n :: ys := by
        simp only [List.mem_append, List.mem_cons]
        rcases hc with hc | hc
        · exact Or.inl hc
        · exact Or.inr (Or.inr (Or.inr hc))
      have ha : c.addr ∈ addrs (xs ++ b :: n :: ys) := List.mem_map_of_mem hmem
      have hcb : c.addr ≠ b.addr := by
        intro e
        refine hnb (e ▸ ?_)
        simp only [List.mem_append, List.mem_cons]
        exact hc.imp List.mem_map_of_mem (fun hc => Or.inr (List.mem_map_of_mem hc))
      refine (h.header c hmem).congr (hsame _ ha _ (by simp) (by simp) (by simp)) ?_
        (hsame _ ha _ (by simp) (by simp) (by simp))
      rw [hword _ _ ha, if_neg (by simp), if_neg (by simp), if_neg (fun hh => hcb hh.2)]
    rcases hd with hd | rfl | hd
    · exact hrest d (Or.inl hd)
    · have ha : b.addr ∈ addrs (xs ++ b :: n :: ys) := List.mem_map_of_mem hb
      obtain ⟨h1, _, h3⟩ := h.header b hb
      refine ⟨(hsame _ ha _ (by simp) (by simp) (by simp)).trans h1, ?_, ?_⟩
      · change s'.get .sizeBytes b.addr = _
        rw [hword _ _ ha, if_neg (by simp), if_neg (by simp), if_pos ⟨rfl, rfl⟩]
        rfl
      · change heapBlockIsFree s' b.addr = b.free
        rw [heapBlockIsFree, hsame _ ha _ (by simp) (by simp) (by simp)]
        exact h3
    · exact hrest d (Or.inr hd)
  · simp only [List.mem_cons, List.not_mem_nil, or_false, not_or] at hf
    exact hsame a ha f hf.1 hf.2.1 hf.2.2

end TermobKernel.Heap

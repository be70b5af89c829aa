import TermobKernel.Heap.Payload
import TermobKernel.Library.Runs

/-!
# The heap and its callers

The system around the heap: calls of `kmalloc`, `kcalloc` and `kfree` with any arguments, and
callers that write into the payload bytes they own. A run starts from `heap_init`. Two kinds of
state are reached. As long as no `kcalloc` asks for a size that rounding wraps to zero, the state
holds a list of blocks; such a call clears the headers along with everything else, and no block is
ever found again.
-/

namespace TermobKernel.Heap
open Word Dll Runs

variable {s : State} {bs : List Block}

/-! ### The blocks of a state -/

/-- The physical chain as the code walks it: within the walk bound and up to the first block that is not
sane. -/
def blocksScan (s : State) : Nat → UInt32 → List Block
  | 0, _ => []
  | walks + 1, block =>
    if block = 0 then []
    else if heapBlockIsSane s block = false then []
    else ⟨block, s.get .sizeBytes block, heapBlockIsFree s block⟩ ::
      blocksScan s walks (s.get .nextPhys block)

def blocks (s : State) : List Block :=
  if s.heapReady = false then [] else blocksScan s (heapMaxWalks s).toNat s.heapFirstBlock

def Block.entry (b : Block) : UInt32 × UInt32 := (heapBlockPayloadAddress b.addr, b.size)

/-- The live map: the payload address of every used block with its size, in address order. -/
def liveMap (s : State) : List (UInt32 × UInt32) := (used (blocks s)).map Block.entry

theorem blocksScan_spec (h : Phys s bs) {cs : List Block} {walks : Nat} {previous block : UInt32}
    (hscan : PhysScan s bs walks previous block cs) : blocksScan s walks block = cs := by
  induction hscan with
  | done => rfl
  | visit b h0 _ hb _ ih =>
    rw [blocksScan, if_neg h0, if_neg (by simp [h.sane hb]), (h.header b hb).size, (h.header b hb).free, ih]

theorem Rep.blocks_eq (h : Rep s bs) : blocks s = bs := by
  rw [blocks, if_neg (by simp [h.phys.region.ready])]
  exact blocksScan_spec h.phys h.phys.scan

theorem Rep.liveMap_eq (h : Rep s bs) : liveMap s = (used bs).map Block.entry := by
  rw [liveMap, h.blocks_eq]

theorem Wiped.blocks_eq (h : Wiped s) : blocks s = [] := by
  unfold blocks
  split
  · rfl
  · cases (heapMaxWalks s).toNat with
    | zero => rfl
    | succ walks =>
      rw [blocksScan, if_pos (h.not_sane _)]
      split <;> rfl

theorem Wiped.liveMap_eq (h : Wiped s) : liveMap s = [] := by
  rw [liveMap, h.blocks_eq]
  rfl

/-! ### Calls and callers -/

/-- What the rest of the kernel does to the heap. -/
inductive Op where
  | kmalloc (size : UInt32)
  | kcalloc (count size : UInt32)
  | kfree (ptr : UInt32)
  | write (address : UInt32) (value : UInt8)
  deriving DecidableEq, Repr

def step (s : State) : Op → Option State
  | .kmalloc size => (kmalloc s size).map (·.2)
  | .kcalloc count size => (kcalloc s count size).map (·.2)
  | .kfree ptr => kfree s ptr
  | .write address value => some { s with mem := s.mem.store8 address value }

def Owned (s : State) (address : UInt32) : Prop :=
  ∃ e ∈ liveMap s, e.1.toNat ≤ address.toNat ∧ address.toNat < e.1.toNat + e.2.toNat

/-- Any call is allowed; a write has to stay inside the payload of a live block. -/
def CallerOk (s : State) : Op → Prop
  | .write address _ => Owned s address
  | _ => True

/-- Rounding `n` bytes up to the alignment wraps to zero, and the free list starts with a block that the
allocation loop accepts. -/
def RoundsToZero (s : State) (n : Nat) : Prop :=
  2 ^ 32 - 16 < n ∧ n < 2 ^ 32 ∧ s.heapFreeList ≠ 0 ∧ heapBlockIsSane s s.heapFreeList = true

/-- A `kcalloc` whose product rounding wraps to zero. -/
def Wraps (s : State) : Op → Prop
  | .kcalloc count size => RoundsToZero s (requested count size)
  | _ => False

instance (s : State) (n : Nat) : Decidable (RoundsToZero s n) := inferInstanceAs (Decidable (_ ∧ _ ∧ _ ∧ _))

/-! ### Rounding -/

theorem heapAlignUp_ge {size : UInt32} (h : size.toNat ≤ 2 ^ 32 - 16) :
    size.toNat ≤ (heapAlignUp size heapAlignment).toNat := by
  rw [heapAlignUp_toNat]
  omega

theorem heapAlignUp_wrap {size : UInt32} (h : 2 ^ 32 - 16 < size.toNat) :
    heapAlignUp size heapAlignment = 0 := by
  have hlt := size.toNat_lt
  apply UInt32.toNat_inj.mp
  rw [heapAlignUp_toNat, UInt32.toNat_zero]
  omega

theorem Rep.freeList (h : Rep s bs) {b : Block} (hb : b ∈ bs) (hfree : b.free = true) :
    s.heapFreeList ≠ 0 ∧ heapBlockIsSane s s.heapFreeList = true := by
  have hmem : b.addr ∈ freeAddrs bs := List.mem_map_of_mem (List.mem_filter.mpr ⟨hb, hfree⟩)
  obtain ⟨a, fs, hfs⟩ := List.exists_cons_of_ne_nil (List.ne_nil_of_mem hmem)
  have hhead : s.heapFreeList = (freeAddrs bs).headD 0 := h.listed.head
  obtain ⟨c, hc, _, rfl⟩ := mem_freeAddrs (show a ∈ freeAddrs bs by simp [hfs])
  rw [hhead, hfs]
  exact ⟨h.phys.addr_ne_zero hc, h.phys.sane hc⟩

theorem Rep.freeList_eq_zero (h : Rep s bs) (hff : firstFit bs 0 = none) :
    s.heapFreeList = 0 := by
  have hnil : freeAddrs bs = [] := by
    rw [freeAddrs, List.map_eq_nil_iff, List.filter_eq_nil_iff]
    intro b hb
    have hno := List.find?_eq_none.mp hff b hb
    simpa using hno
  have hhead : s.heapFreeList = (freeAddrs bs).headD 0 := h.listed.head
  rw [hhead, hnil]
  rfl

/-! ### One step -/

/-- The state holds a list of blocks over the region that starts at `start`. -/
def Sound (start : UInt32) (s : State) : Prop := s.heapStartPtr = start ∧ ∃ bs, Rep s bs

def Lost (s : State) : Prop := Wiped s ∧ s.heapReady = true

/-- The states differ at most in the diagnostics. -/
def SameHeap (s s' : State) : Prop :=
  s' = { s with
    heapDiagErrorCount := s'.heapDiagErrorCount
    heapDiagErrorFlags := s'.heapDiagErrorFlags
    heapDiagLastErrorMessage := s'.heapDiagLastErrorMessage
    log := s'.log }

section steps
variable {start : UInt32} {s : State}
variable {xs ys : List Block} {size : UInt32} {s : State} {b : Block} {n : Nat}

theorem sound_kmalloc (h : Sound start s) (size : UInt32) :
    ∃ p s', kmalloc s size = some (p, s') ∧ Sound start s' := by
  obtain ⟨hstart, bs, hrep⟩ := h
  rcases kmalloc_cases hrep size with ⟨hk, _⟩ | ⟨xs, b, ys, s', _, _, _, _, _, hk, hrep', hst⟩
  · exact ⟨0, s, hk, hstart, bs, hrep⟩
  · exact ⟨_, s', hk, (statics_start hst.statics).trans hstart, _, hrep'⟩

theorem served_mem (xs ys : List Block) (b : Block) (size : UInt32) :
    served b size ∈ xs ++ (taken b size ++ ys) := by
  unfold served taken
  split
  · simp
  · simp

theorem Rep.zero_payload
    (h : Rep s (xs ++ (taken b size ++ ys))) (hfit : size ≤ b.size) (hn : n ≤ size.toNat) :
    ∃ m, heapZeroBytes s (heapBlockPayloadAddress b.addr) n = { s with mem := m } ∧
      ∀ a, m a ≠ s.mem a → InPayload (served b size) a := by
  have hmem := served_mem xs ys b size
  have hsize := (served_size hfit).1
  have hpay := h.phys.payload_toNat hmem
  have hstop := (tiles_bounds h.phys.tiles hmem).2.1
  have hend := s.heapEndPtr.toNat_lt
  rw [UInt32.le_iff_toNat_le] at hsize
  rw [served_addr] at hpay
  simp only [Block.stop, served_addr] at hstop
  refine ⟨_, heapZeroBytes_eq s _ n (by omega), fun a ha => ?_⟩
  have hin : (a - heapBlockPayloadAddress b.addr).toNat < n := by
    by_contra hnot
    exact ha (if_neg hnot)
  have halt := a.toNat_lt
  rw [UInt32.toNat_sub, hpay] at hin
  simp only [InPayload, Block.stop, served_addr]
  omega

theorem Rep.zero_frame
    (h : Rep s (xs ++ (taken b size ++ ys))) (hfit : size ≤ b.size) (hn : n ≤ size.toNat) :
    Frame (· ∈ addrs (xs ++ (taken b size ++ ys))) [] s
        (heapZeroBytes s (heapBlockPayloadAddress b.addr) n) := by
  obtain ⟨m, hzero, hm⟩ := h.zero_payload hfit hn
  rw [hzero]
  exact h.payload_frame (served_mem xs ys b size) hm

theorem Rep.zero (h : Rep s (xs ++ (taken b size ++ ys)))
    (hfit : size ≤ b.size) (hn : n ≤ size.toNat) :
    Rep (heapZeroBytes s (heapBlockPayloadAddress b.addr) n) (xs ++ (taken b size ++ ys)) := by
  obtain ⟨m, hzero, hm⟩ := h.zero_payload hfit hn
  rw [hzero]
  exact h.payload (served_mem xs ys b size) hm

theorem sound_kcalloc (h : Sound start s) (count size : UInt32) :
    ∃ p s', kcalloc s count size = some (p, s') ∧
      ((Sound start s' ∧ ¬RoundsToZero s (requested count size)) ∨
        (Lost s' ∧ RoundsToZero s (requested count size))) := by
  obtain ⟨hstart, bs, hrep⟩ := h
  rcases hrep.kcalloc_served count size with
    ⟨hk, hnone⟩ | ⟨xs, b, ys, t, hreq, hpos, rfl, hb, hfit, _, _, hrep', hst, hk⟩
  · refine ⟨0, s, hk, Or.inl ⟨⟨hstart, bs, hrep⟩, ?_⟩⟩
    rintro ⟨h1, h2, h3, _⟩
    rcases hnone with h0 | hout | ⟨hreq, hff⟩
    · omega
    · omega
    · rw [heapAlignUp_wrap (by omega)] at hff
      exact h3 (hrep.freeList_eq_zero hff)
  · have hmem := served_mem xs ys b (heapAlignUp (count * size) heapAlignment)
    have hpay := hrep'.phys.payload_toNat hmem
    have halign := (tiles_aligned hrep'.phys.tiles hrep'.phys.region.aligned).2 _ hmem
    rw [served_addr] at hpay halign
    have hlt := (count * size).toNat_lt
    refine ⟨_, _, hk, ?_⟩
    by_cases hbig : 2 ^ 32 - 16 < requested count size
    · right
      obtain ⟨hf0, hfs⟩ := hrep.freeList (b := b) (by simp) hb
      refine ⟨⟨wiped_of_zero t (by omega) hbig (by omega), ?_⟩, hbig, by omega, hf0, hfs⟩
      rw [heapZeroBytes_eq t _ _ (by omega)]
      exact hrep'.phys.region.ready
    · left
      refine ⟨⟨?_, _, hrep'.zero hfit ?_⟩, fun hr => hbig hr.1⟩
      · rw [heapZeroBytes_eq t _ _ (by omega)]
        exact (statics_start hst.statics).trans hstart
      · rw [← hreq]
        exact heapAlignUp_ge (by omega)

theorem sound_kfree (h : Sound start s) (ptr : UInt32) : ∃ s', kfree s ptr = some s' ∧ Sound start s' := by
  obtain ⟨hstart, bs, hrep⟩ := h
  by_cases hp : ptr = 0
  · exact ⟨s, by rw [kfree, if_pos (Or.inr hp)], hstart, bs, hrep⟩
  · cases hat : blockAt bs ptr with
    | none => exact ⟨_, kfree_foreign hrep hat hp, hstart, bs, hrep.note _ _⟩
    | some b =>
      by_cases hb : b.free = true
      · exact ⟨_, kfree_free hrep hat hb hp, hstart, bs, hrep.note _ _⟩
      · obtain ⟨hpay, xs, ys, rfl, _⟩ := List.find?_eq_some_iff_append.mp hat
        obtain rfl : heapBlockPayloadAddress b.addr = ptr := by simpa using hpay
        obtain ⟨s', hs', hrep', hst⟩ := kfree_used hrep (by simpa using hb)
        exact ⟨s', hs', (statics_start hst.statics).trans hstart, _, hrep'⟩

theorem sound_write (h : Sound start s) {address : UInt32} (howned : Owned s address) (value : UInt8) :
    Sound start { s with mem := s.mem.store8 address value } := by
  obtain ⟨hstart, bs, hrep⟩ := h
  obtain ⟨e, he, hlo, hhi⟩ := howned
  rw [hrep.liveMap_eq] at he
  obtain ⟨b, hb, rfl⟩ := List.mem_map.mp he
  have hmem : b ∈ bs := (List.mem_filter.mp hb).1
  have hpay := hrep.phys.payload_toNat hmem
  refine ⟨hstart, bs, hrep.payload hmem (fun a ha => ?_)⟩
  obtain rfl : a = address := by
    by_contra hne
    exact ha (if_neg hne)
  simp only [Block.entry, hpay] at hlo hhi
  exact ⟨hlo, hhi⟩

theorem step_sound (h : Sound start s) {op : Op} (hok : CallerOk s op) :
    ∃ s', step s op = some s' ∧ ((Sound start s' ∧ ¬Wraps s op) ∨ (Lost s' ∧ Wraps s op)) := by
  cases op with
  | kmalloc size =>
    obtain ⟨p, s', hk, hs'⟩ := sound_kmalloc h size
    exact ⟨s', by rw [step, hk]; rfl, Or.inl ⟨hs', fun hw => hw⟩⟩
  | kcalloc count size =>
    obtain ⟨p, s', hk, hs'⟩ := sound_kcalloc h count size
    exact ⟨s', by rw [step, hk]; rfl, hs'⟩
  | kfree ptr =>
    obtain ⟨s', hk, hs'⟩ := sound_kfree h ptr
    exact ⟨s', hk, Or.inl ⟨hs', fun hw => hw⟩⟩
  | write address value => exact ⟨_, rfl, Or.inl ⟨sound_write h hok value, fun hw => hw⟩⟩

theorem step_lost (h : Lost s) {op : Op} (hok : CallerOk s op) :
    ∃ s', step s op = some s' ∧ Lost s' ∧ SameHeap s s' := by
  obtain ⟨hw, hready⟩ := h
  cases op with
  | kmalloc size =>
    rcases hw.kmalloc_null size with hk | hk
    · exact ⟨s, by rw [step, hk]; rfl, ⟨hw, hready⟩, rfl⟩
    · exact ⟨heapNoteError s heapDiagCorruption _, by rw [step, hk]; rfl, ⟨hw, hready⟩, rfl⟩
  | kcalloc count size =>
    rcases hw.kcalloc_null count size with hk | hk
    · exact ⟨s, by rw [step, hk]; rfl, ⟨hw, hready⟩, rfl⟩
    · exact ⟨heapNoteError s heapDiagCorruption _, by rw [step, hk]; rfl, ⟨hw, hready⟩, rfl⟩
  | kfree ptr =>
    by_cases hp : ptr = 0
    · exact ⟨s, by rw [step, kfree, if_pos (Or.inr hp)], ⟨hw, hready⟩, rfl⟩
    · rcases hw.kfree_noted hready hp with hk | hk
      · exact ⟨_, hk, ⟨hw, hready⟩, rfl⟩
      · exact ⟨_, hk, ⟨hw, hready⟩, rfl⟩
  | write address value =>
    obtain ⟨e, he, _⟩ := hok
    rw [hw.liveMap_eq] at he
    exact absurd he (by simp)

end steps

/-! ### Runs -/

theorem heapInit_sound {kernelEnd : UInt32} (h : HeapFits kernelEnd) (s : State) :
    Sound (heapAlignUp kernelEnd heapAlignment) (heapInit kernelEnd s) := by
  refine ⟨?_, _, heapInit_rep h s⟩
  rw [heapInit_eq h]
  exact statics_start (heapInitializeBlock_statics _ _ _ _ _ _).1

theorem run_lost (h : Lost s) {ops : List Op} (hok : Allowed step CallerOk s ops) :
    ∃ s', run step s ops = some s' ∧ Lost s' := by
  refine run_invariant (fun s op hs hop => ?_) h hok
  obtain ⟨s', hstep, hlost, _⟩ := step_lost hs hop
  exact ⟨s', hstep, hlost⟩

/-- Every run ends, and it ends well formed exactly when no step of it wrapped. -/
theorem run_sound {start : UInt32} (h : Sound start s) {ops : List Op}
    (hok : Allowed step CallerOk s ops) :
    ∃ s', run step s ops = some s' ∧
      ((Sound start s' ∧ Allowed step (fun s op => ¬Wraps s op) s ops) ∨
        (Lost s' ∧ ¬Allowed step (fun s op => ¬Wraps s op) s ops)) := by
  induction ops generalizing s with
  | nil => exact ⟨s, rfl, Or.inl ⟨h, trivial⟩⟩
  | cons op ops ih =>
    obtain ⟨t, ht, ⟨hsound, hno⟩ | ⟨hlost, hwrap⟩⟩ := step_sound h hok.1
    · obtain ⟨s', hs', hend⟩ := ih hsound (hok.2 t ht)
      refine ⟨s', by rw [run, ht, Option.bind_some, hs'], ?_⟩
      rcases hend with ⟨hs, ha⟩ | ⟨hl, hn⟩
      · refine Or.inl ⟨hs, hno, fun t' ht' => ?_⟩
        obtain rfl : t = t' := by simpa [ht] using ht'
        exact ha
      · exact Or.inr ⟨hl, fun ha => hn (ha.2 t ht)⟩
    · obtain ⟨s', hs', hl⟩ := run_lost hlost (hok.2 t ht)
      exact ⟨s', by rw [run, ht, Option.bind_some, hs'], Or.inr ⟨hl, fun ha => ha.1 hwrap⟩⟩

theorem Lost.integrity (h : Lost s) (logErrors : Bool) :
    (heapCheckIntegrityInternal s logErrors).1 = false := by
  unfold heapCheckIntegrityInternal
  by_cases hfirst : s.heapFirstBlock = 0
  · rw [if_pos (Or.inr hfirst)]
  · have hchains : ∃ message, heapCheckChains s = .error message := by
      unfold heapCheckChains
      cases hn : (heapMaxWalks s).toNat with
      | zero =>
        refine ⟨"TERMOB: heap integrity failed (physical loop)", ?_⟩
        simp [heapCheckPhysical, hfirst, bind, Except.bind]
      | succ walks =>
        refine ⟨"TERMOB: heap integrity failed (invalid block)", ?_⟩
        simp [heapCheckPhysical, hfirst, h.1.not_sane, bind, Except.bind]
    obtain ⟨message, hm⟩ := hchains
    rw [if_neg (by simp [h.2, hfirst]), hm]

/-- In every run from `heap_init`, whatever the arguments and however the callers fill their blocks,
the heap ends as a tiling of the region with both lists in order and passes its own check, exactly
when no step was a `kcalloc` whose product rounds to zero. -/
theorem heap_invariant_iff_no_wrap {kernelEnd : UInt32} (hfits : HeapFits kernelEnd) (s₀ : State)
    (ops : List Op) (hcaller : Allowed step CallerOk (heapInit kernelEnd s₀) ops) :
    ∃ s', run step (heapInit kernelEnd s₀) ops = some s' ∧
      (((∃ bs, Rep s' bs ∧ (freeAddrs bs).Pairwise (· < ·)) ∧
          s'.heapStartPtr = heapAlignUp kernelEnd heapAlignment ∧
          ∀ logErrors, heapCheckIntegrityInternal s' logErrors = (true, s')) ↔
        Allowed step (fun s op => ¬Wraps s op) (heapInit kernelEnd s₀) ops) := by
  obtain ⟨s', hrun, hend⟩ := run_sound (heapInit_sound hfits s₀) hcaller
  refine ⟨s', hrun, ?_⟩
  rcases hend with ⟨⟨hstart, bs, hrep⟩, hno⟩ | ⟨hlost, hwrap⟩
  · refine iff_of_true ⟨⟨bs, hrep, tiles_freeAddrs_sorted hrep.phys.tiles⟩, hstart, fun log => ?_⟩ hno
    exact hrep.integrity log
  · refine iff_of_false (fun h => ?_) hwrap
    obtain ⟨bs, hrep, _⟩ := h.1
    exact hrep.not_wiped hlost.1

/-- The static variables as the file initialises them, over a memory of zeros. -/
def bootState : State where
  mem := fun _ => 0
  heapStartPtr := 0
  heapEndPtr := 0
  heapFirstBlock := 0
  heapFreeList := 0
  heapReady := false
  heapDiagErrorCount := 0
  heapDiagErrorFlags := 0
  heapDiagLastErrorMessage := "none"
  log := []

theorem heap_invariant_two_calls :
    ∃ s', run step (heapInit 0x00200000 bootState) [.kmalloc 100, .kfree 0x00200020] = some s' ∧
      (∃ bs, Rep s' bs ∧ (freeAddrs bs).Pairwise (· < ·)) ∧ s'.heapStartPtr = 0x00200000 ∧
      ∀ logErrors, heapCheckIntegrityInternal s' logErrors = (true, s') := by
  obtain ⟨s', hrun, hiff⟩ := heap_invariant_iff_no_wrap (by decide : HeapFits 0x00200000) bootState
    [.kmalloc 100, .kfree 0x00200020] ⟨trivial, fun _ _ => ⟨trivial, fun _ _ => trivial⟩⟩
  obtain ⟨hrep, hstart, hcheck⟩ := hiff.mpr ⟨fun h => h, fun _ _ => ⟨fun h => h, fun _ _ => trivial⟩⟩
  exact ⟨s', hrun, hrep, hstart, hcheck⟩

theorem roundsToZero_at_boot : RoundsToZero (heapInit 0x00200000 bootState) (requested 0xFFFFFFFF 1) :=
  ⟨by decide, by decide, (heapInit_rep (show HeapFits 0x00200000 by decide) bootState).freeList
    (List.mem_singleton_self _) rfl⟩

theorem kcalloc_lost_at_boot :
    ∃ p s', kcalloc (heapInit 0x00200000 bootState) 0xFFFFFFFF 1 = some (p, s') ∧ Lost s' := by
  obtain ⟨p, s', hk, hend⟩ :=
    sound_kcalloc (heapInit_sound (show HeapFits 0x00200000 by decide) bootState) 0xFFFFFFFF 1
  rcases hend with ⟨_, hno⟩ | ⟨hlost, _⟩
  · exact absurd roundsToZero_at_boot hno
  · exact ⟨p, s', hk, hlost⟩

/-- The first allocation of the system may already destroy the heap: `kcalloc(0xFFFFFFFF, 1)` is served from
the one free block, and afterwards the integrity check fails. -/
theorem kcalloc_wrap_destroys_heap :
    ∃ s', run step (heapInit 0x00200000 bootState) [.kcalloc 0xFFFFFFFF 1] = some s' ∧
      (heapCheckIntegrityInternal s' true).1 = false ∧ ¬∃ bs, Rep s' bs := by
  obtain ⟨p, s', hk, hlost⟩ := kcalloc_lost_at_boot
  refine ⟨s', ?_, hlost.integrity true, fun ⟨bs, h⟩ => h.not_wiped hlost.1⟩
  rw [run, step, hk]
  rfl

end TermobKernel.Heap

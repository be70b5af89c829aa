import TermobKernel.Paging.Identity

/-!
# A `paging_init` that fails

`paging_init` asks the frame allocator for one frame for the directory and one for each table, and
returns when an answer is null. It does not give back what it has got by then. Which calls complete
is decided by the free frames and by the place where the search starts (`Supplies`): the address of
frame zero is null, so that a search that finds this frame is taken for a failure.
-/

namespace TermobKernel.Paging
open Boot Pmm Pages

/-! ### Enough frames -/

/-- The free frames that the search finds before frame zero. -/
def beforeZero (pmm : Pmm.State) : Finset Nat :=
  (freeFrames pmm).filter fun g => 0 < pmm.pmmNextSearchFrame.toNat ∧ pmm.pmmNextSearchFrame.toNat ≤ g

/-- The next `n` allocations return no null: there are as many free frames, and frame zero is not
found before. -/
def Supplies (n : Nat) (pmm : Pmm.State) : Prop :=
  n ≤ (freeFrames pmm).card ∧ (0 ∈ freeFrames pmm → n ≤ (beforeZero pmm).card)

section
variable {pmm : Pmm.State}

theorem mem_beforeZero {g : Nat} :
    g ∈ beforeZero pmm ↔
      g ∈ freeFrames pmm ∧ 0 < pmm.pmmNextSearchFrame.toNat ∧ pmm.pmmNextSearchFrame.toNat ≤ g :=
  Finset.mem_filter

theorem supplies_zero (pmm : Pmm.State) : Supplies 0 pmm := ⟨Nat.zero_le _, fun _ => Nat.zero_le _⟩

theorem beforeZero_eq_empty (hnext : NextFree pmm 0) : beforeZero pmm = ∅ := by
  apply Finset.eq_empty_of_forall_notMem
  intro g hg
  obtain ⟨hfree, hpos, hle⟩ := mem_beforeZero.mp hg
  rcases hnext.2 with ⟨hstart, _⟩ | hall
  · omega
  · exact absurd (hall g hfree).2 (by omega)

/-- When frame zero is free and the search finds another frame, this is one before frame zero. -/
theorem nextFree_mem_beforeZero {f : Nat} (hnext : NextFree pmm f) (hzero : 0 ∈ freeFrames pmm)
    (hf : f ≠ 0) :
    f ∈ beforeZero pmm ∧ ∀ g ∈ beforeZero pmm, f ≤ g := by
  rcases hnext.2 with ⟨hstart, hleast⟩ | hall
  · have hpos : 0 < pmm.pmmNextSearchFrame.toNat := by
      by_contra hno
      have := hleast 0 hzero (by omega)
      omega
    refine ⟨mem_beforeZero.mpr ⟨hnext.1, hpos, hstart⟩, fun g hg => ?_⟩
    obtain ⟨hfree, _, hle⟩ := mem_beforeZero.mp hg
    exact hleast g hfree hle
  · have := (hall 0 hzero).1
    omega

theorem supplies_succ (h : Serving pmm) (n : Nat) :
    Supplies (n + 1) pmm ↔ (pmmAllocFrame pmm).1 ≠ 0 ∧ Supplies n (pmmAllocFrame pmm).2 := by
  rcases pmmAllocFrame_spec h with ⟨hempty, heq⟩ | ⟨f, hnext, haddr, _, _, hstart, herase⟩
  · rw [heq, Supplies, hempty, Finset.card_empty]
    refine iff_of_false ?_ fun hne => hne.1 rfl
    rintro ⟨hle, _⟩
    omega
  have hnull : (pmmAllocFrame pmm).1 ≠ 0 ↔ f ≠ 0 := by
    rw [ne_eq, ← UInt32.toNat_inj, haddr, UInt32.toNat_zero]
    omega
  have hcard := Finset.card_erase_add_one hnext.1
  rw [hnull, Supplies, Supplies, herase]
  by_cases hzero : 0 ∈ freeFrames pmm
  · by_cases hf : f = 0
    · subst hf
      rw [beforeZero_eq_empty hnext, Finset.card_empty]
      refine iff_of_false ?_ fun hne => hne.1 rfl
      rintro ⟨_, hle⟩
      exact absurd (hle hzero) (by omega)
    · -- the search goes on behind the frame, so that only this frame is gone
      obtain ⟨hmem, hleast⟩ := nextFree_mem_beforeZero hnext hzero hf
      have hbefore : beforeZero (pmmAllocFrame pmm).2 = (beforeZero pmm).erase f := by
        ext g
        rw [Finset.mem_erase, mem_beforeZero, herase, hstart, Finset.mem_erase]
        have hpart := mem_beforeZero.mp hmem
        constructor
        · rintro ⟨⟨hne, hfree⟩, _, hgt⟩
          exact ⟨hne, mem_beforeZero.mpr ⟨hfree, hpart.2.1, by omega⟩⟩
        · rintro ⟨hne, hg⟩
          have hle := hleast g hg
          exact ⟨⟨hne, (mem_beforeZero.mp hg).1⟩, by omega, by omega⟩
      have hcard' := Finset.card_erase_add_one hmem
      rw [hbefore]
      constructor
      · rintro ⟨hle, hle'⟩
        have := hle' hzero
        exact ⟨hf, by omega, fun _ => by omega⟩
      · rintro ⟨_, hle, hle'⟩
        have := hle' (Finset.mem_erase.mpr ⟨Ne.symm hf, hzero⟩)
        exact ⟨by omega, fun _ => by omega⟩
  · have hf : f ≠ 0 := by
      rintro rfl
      exact hzero hnext.1
    have hzero' : 0 ∉ (freeFrames pmm).erase f := fun h0 => hzero (Finset.mem_of_mem_erase h0)
    constructor
    · rintro ⟨hle, _⟩
      exact ⟨hf, by omega, fun h0 => absurd h0 hzero'⟩
    · rintro ⟨_, hle, _⟩
      exact ⟨by omega, fun h0 => absurd h0 hzero⟩

theorem pmmAllocFrame_subset (h : Serving pmm) :
    Serving (pmmAllocFrame pmm).2 ∧ freeFrames (pmmAllocFrame pmm).2 ⊆ freeFrames pmm := by
  rcases pmmAllocFrame_spec h with ⟨_, heq⟩ | ⟨f, _, _, hserving, _, _, herase⟩
  · rw [heq]
    exact ⟨h, Finset.Subset.refl _⟩
  · rw [herase]
    exact ⟨hserving, Finset.erase_subset _ _⟩

theorem pagingTableLoop_supplies (directory identityBytes : UInt32) :
    ∀ (rounds : Nat) {pmm : Pmm.State} (tableIndex physicalAddress : UInt32) (mem : Mem), Serving pmm →
      ((pagingTableLoop directory identityBytes rounds tableIndex physicalAddress pmm mem).1 = true ↔
          Supplies rounds pmm) ∧
        freeFrames (pagingTableLoop directory identityBytes rounds tableIndex physicalAddress pmm mem).2.1 ⊆
          freeFrames pmm := by
  intro rounds
  induction rounds with
  | zero =>
    intro pmm _ _ _ _
    exact ⟨iff_of_true rfl (supplies_zero pmm), Finset.Subset.refl _⟩
  | succ rounds ih =>
    intro pmm tableIndex physicalAddress mem h
    obtain ⟨hserving, hsubset⟩ := pmmAllocFrame_subset h
    rw [supplies_succ h, pagingTableLoop]
    dsimp only
    by_cases hnone : (pmmAllocFrame pmm).1 = 0
    · rw [if_pos hnone]
      exact ⟨iff_of_false Bool.false_ne_true fun hs => hs.1 hnone, hsubset⟩
    · rw [if_neg hnone]
      obtain ⟨hdone, hless⟩ := ih _ _ _ hserving
      exact ⟨hdone.trans ⟨fun hs => ⟨hnone, hs⟩, And.right⟩, hless.trans hsubset⟩

end

/-! ### The whole call -/

def tablesWanted (s : System) : UInt32 := pagingIdentityLimitBytes s.boot s.heap / pagingBytesPerTable

def AtomicOnFailure (s : System) : Prop :=
  (pagingInit s).paging.pagingReady = false →
    (pagingInit s).pmm.pmmTotalFramesCount = s.pmm.pmmTotalFramesCount ∧
      freeFrames (pagingInit s).pmm = freeFrames s.pmm ∧
      (pagingInit s).pmm.pmmFreeFramesCount = s.pmm.pmmFreeFramesCount

/-- The call gives up before it has a frame, or it gets all it asks for. -/
def NothingToGiveBack (s : System) : Prop :=
  s.pmm.pmmReady = false ∨ s.heap.heapReady = false ∨ tablesWanted s = 0 ∨ freeFrames s.pmm = ∅ ∨
    Supplies ((tablesWanted s).toNat + 1) s.pmm

theorem tablesWanted_le (s : System) : ¬tablesWanted s > pagingDirectoryEntries := by
  have hlt := (pagingIdentityLimitBytes s.boot s.heap).toNat_lt
  rw [gt_iff_lt, UInt32.lt_iff_toNat_lt, tablesWanted, UInt32.toNat_div,
    show pagingBytesPerTable.toNat = 2 ^ 22 from rfl, show pagingDirectoryEntries.toNat = 1024 from rfl]
  omega

theorem pagingInit_eq {s : System} (hpmm : s.pmm.pmmReady = true) (hheap : s.heap.heapReady = true)
    (hcount : tablesWanted s ≠ 0) :
    pagingInit s =
      if (pmmAllocFrame s.pmm).1 = 0 then { s with paging := pagingReset, pmm := (pmmAllocFrame s.pmm).2 }
      else
        pagingEnable { s with paging := pagingReset } (pmmAllocFrame s.pmm).1
          (pagingIdentityLimitBytes s.boot s.heap) (tablesWanted s)
          (tablesBuilt s (pagingIdentityLimitBytes s.boot s.heap)) := by
  have hno : ¬(tablesWanted s = 0 ∨ tablesWanted s > pagingDirectoryEntries) :=
    not_or.mpr ⟨hcount, tablesWanted_le s⟩
  unfold pagingInit
  rw [if_neg (by simp [hpmm, hheap])]
  unfold pagingBuild
  unfold tablesWanted at hno
  rw [if_neg hno]
  rfl

theorem not_atomic_of_taken {s : System} {f : Nat} (hf : f ∈ freeFrames s.pmm)
    (hready : (pagingInit s).paging.pagingReady = false)
    (htaken : freeFrames (pagingInit s).pmm ⊆ (freeFrames s.pmm).erase f) : ¬AtomicOnFailure s := by
  intro hatomic
  have hsame := (hatomic hready).2.1
  rw [← hsame] at hf
  exact (Finset.mem_erase.mp (htaken hf)).1 rfl

/-- A failed `paging_init` leaves the frame allocator as it was, exactly when it gives up before its
first frame or does not fail at all. -/
theorem paging_failure_atomic_iff (s : System) (hpmm : s.pmm.pmmReady = true → Serving s.pmm) :
    AtomicOnFailure s ↔ NothingToGiveBack s := by
  by_cases hoff : s.pmm.pmmReady = false ∨ s.heap.heapReady = false
  · have hsame : (pagingInit s).pmm = s.pmm := by
      unfold pagingInit
      rw [if_pos hoff]
    refine iff_of_true (fun _ => ?_) (by unfold NothingToGiveBack; tauto)
    rw [hsame]
    exact ⟨rfl, rfl, rfl⟩
  obtain ⟨hon, hheap⟩ := not_or.mp hoff
  rw [Bool.not_eq_false] at hon hheap
  have hserving := hpmm hon
  by_cases hcount : tablesWanted s = 0
  · have hsame : (pagingInit s).pmm = s.pmm := by
      unfold pagingInit
      rw [if_neg hoff]
      unfold pagingBuild
      unfold tablesWanted at hcount
      rw [if_pos (Or.inl hcount)]
    refine iff_of_true (fun _ => ?_) (by unfold NothingToGiveBack; tauto)
    rw [hsame]
    exact ⟨rfl, rfl, rfl⟩
  have heq := pagingInit_eq hon hheap hcount
  have hneeds : NothingToGiveBack s ↔ freeFrames s.pmm = ∅ ∨
      Supplies ((tablesWanted s).toNat + 1) s.pmm := by
    unfold NothingToGiveBack
    simp [hon, hheap, hcount]
  rw [hneeds, supplies_succ hserving]
  rcases pmmAllocFrame_spec hserving with ⟨hempty, halloc⟩ | ⟨f, hnext, _, hserving', _, _, herase⟩
  · refine iff_of_true (fun _ => ?_) (Or.inl hempty)
    rw [heq, halloc, if_pos rfl]
    exact ⟨rfl, rfl, rfl⟩
  have hfull : freeFrames s.pmm ≠ ∅ := Finset.ne_empty_of_mem hnext.1
  by_cases hnone : (pmmAllocFrame s.pmm).1 = 0
  · rw [if_pos hnone] at heq
    refine iff_of_false (not_atomic_of_taken hnext.1 (by rw [heq]; rfl) ?_) (by tauto)
    rw [heq, ← herase]
  · rw [if_neg hnone] at heq
    obtain ⟨hdone, hless⟩ := pagingTableLoop_supplies (pmmAllocFrame s.pmm).1
      (pagingIdentityLimitBytes s.boot s.heap) (tablesWanted s).toNat 0 0
      (pagingZeroPage s.heap.mem (pmmAllocFrame s.pmm).1) hserving'
    change (tablesBuilt s (pagingIdentityLimitBytes s.boot s.heap)).1 = true ↔ _ at hdone
    change freeFrames (tablesBuilt s (pagingIdentityLimitBytes s.boot s.heap)).2.1 ⊆ _ at hless
    generalize tablesBuilt s (pagingIdentityLimitBytes s.boot s.heap) = built at heq hdone hless
    obtain ⟨ok, pmm, mem⟩ := built
    cases ok with
    | true =>
      refine iff_of_true (fun hready => ?_) (Or.inr ⟨hnone, hdone.mp rfl⟩)
      rw [heq] at hready
      cases hready
    | false =>
      have hno : ¬Supplies (tablesWanted s).toNat (pmmAllocFrame s.pmm).2 := fun hs =>
        Bool.false_ne_true (hdone.mpr hs)
      refine iff_of_false (not_atomic_of_taken hnext.1 (by rw [heq]; rfl) ?_) (by tauto)
      rw [heq, ← herase]
      exact hless

/-- The same system when all its frames are taken. -/
def noFrames : System := { fiveFrames with pmm := ⟨0x00200020, [0xFF], 1, 8, 0, 0, true⟩ }

theorem noFrames_serving : Serving noFrames.pmm := by
  refine ⟨⟨by decide, rfl, by decide +kernel, ?_⟩, rfl, by decide⟩
  intro i hge hlt
  change 8 ≤ i at hge
  change i < 8 at hlt
  omega

/-- Five frames are enough, and without any frame the call fails and changes nothing. -/
theorem paging_failure_atomic_five_frames :
    (Supplies 5 fiveFrames.pmm ∧ AtomicOnFailure fiveFrames) ∧
      (pagingInit noFrames).paging.pagingReady = false ∧ AtomicOnFailure noFrames := by
  have hcard : (freeFrames fiveFrames.pmm).card = 5 := by decide +kernel
  have hzero : 0 ∉ freeFrames fiveFrames.pmm := by decide +kernel
  have hsupplies : Supplies 5 fiveFrames.pmm := ⟨hcard.ge, fun h => absurd h hzero⟩
  have hwanted : (tablesWanted fiveFrames).toNat = 4 := by decide +kernel
  have hfive : NothingToGiveBack fiveFrames := .inr (.inr (.inr (.inr (by rw [hwanted]; exact hsupplies))))
  have hnone : NothingToGiveBack noFrames := .inr (.inr (.inr (.inl (by decide +kernel))))
  exact ⟨⟨hsupplies, (paging_failure_atomic_iff fiveFrames fun _ => fiveFrames_serving).mpr hfive⟩,
    by decide +kernel, (paging_failure_atomic_iff noFrames fun _ => noFrames_serving).mpr hnone⟩

/-- One available range of four frames behind the heap, one less than the smallest mapping needs. -/
def fourFrameMap : BootInfo := bootinfoStored 0x00010000 0x1000 [⟨0x00400000, 0x4000, 1⟩]

/-- The system in which `paging_init` is called after `pmm_init`. -/
def behindPmmInit (boot : BootInfo) (kernelEnd : UInt32) : Option System :=
  (pmmInit boot kernelEnd (Heap.heapInit kernelEnd Heap.bootState)).map fun result =>
    ⟨boot, result.2, result.1, 1, 0, pagingReset⟩

/-- The free frames before and after a `paging_init`, with the outcome. -/
def framesAround (s : System) : UInt32 × Bool × UInt32 :=
  (s.pmm.pmmFreeFramesCount, (pagingInit s).paging.pagingReady, (pagingInit s).pmm.pmmFreeFramesCount)

/-- The directory and three tables stay allocated. -/
theorem four_frames_leak :
    ∃ s, behindPmmInit fourFrameMap 0x00200000 = some s ∧ s.pmm.pmmReady = true ∧
      framesAround s = (4, false, 0) ∧ ¬AtomicOnFailure s := by
  have hvalues : (behindPmmInit fourFrameMap 0x00200000).map (fun s => (s.pmm.pmmReady, framesAround s)) =
      some (true, 4, false, 0) := by decide +kernel
  obtain ⟨s, hs, hframes⟩ := Option.map_eq_some_iff.mp hvalues
  obtain ⟨hready, hframes⟩ := Prod.mk.inj hframes
  obtain ⟨hbefore, houtcome⟩ := Prod.mk.inj hframes
  obtain ⟨hfails, hafter⟩ := Prod.mk.inj houtcome
  refine ⟨s, hs, hready, hframes, fun hatomic => ?_⟩
  have hcount := (hatomic hfails).2.2
  rw [hbefore, hafter] at hcount
  exact absurd hcount (by decide)

end TermobKernel.Paging

import TermobKernel.Paging.Model
import TermobKernel.Pmm.System

/-!
# The identity mapping is exact

Once `paging_init` has completed, the processor translates every address below
`paging_identity_bytes` to itself, writable, and finds no page behind it. The frames of the
directory and of the tables are all different, so that a write into one of them is not seen in
another; the size is a whole number of tables, because a limit whose rounding wraps gives no table
at all, and then the call returns early.
-/

namespace TermobKernel.Paging
open Boot Pmm Pages Word

variable {pmm : Pmm.State}

/-! ### Frames in a row -/

def handedOut : Nat → Pmm.State → List UInt32
  | 0, _ => []
  | n + 1, pmm => (pmmAllocFrame pmm).1 :: handedOut n (pmmAllocFrame pmm).2

/-- The frames that are handed out from now on differ from each other and from the taken ones. Zero is the
answer of a call that fails. -/
def Fresh (taken : List UInt32) (pmm : Pmm.State) : Prop :=
  ∀ n, (taken ++ (handedOut n pmm).filter (· ≠ 0)).Nodup

theorem Fresh.alloc {taken : List UInt32} (h : Fresh taken pmm) (hne : (pmmAllocFrame pmm).1 ≠ 0) :
    Fresh (taken ++ [(pmmAllocFrame pmm).1]) (pmmAllocFrame pmm).2 := by
  intro n
  have hnext := h (n + 1)
  rw [handedOut, List.filter_cons_of_pos (by simpa using hne)] at hnext
  rwa [List.append_assoc, List.singleton_append]

theorem Fresh.nodup {taken : List UInt32} (h : Fresh taken pmm) : taken.Nodup := by
  have hzero := h 0
  rwa [handedOut, List.filter_nil, List.append_nil] at hzero

theorem pmmAllocFrame_aligned (pmm : Pmm.State) : PageAligned (pmmAllocFrame pmm).1 := by
  have htake : ∀ frameIndex, PageAligned (pmmTakeFrame pmm frameIndex).1 := by
    intro frameIndex
    change (frameIndex * pmmFrameSize).toNat % 4096 = 0
    rw [UInt32.toNat_mul, frameSize_toNat]
    omega
  unfold pmmAllocFrame
  split
  · rfl
  split
  · exact htake _
  split
  · exact htake _
  · rfl

theorem mem_handedOut :
    ∀ (n : Nat) {pmm : Pmm.State}, Serving pmm → ∀ frame ∈ (handedOut n pmm).filter (· ≠ 0),
    ∃ g ∈ freeFrames pmm, frame.toNat = g * 4096 := by
  intro n
  induction n with
  | zero =>
    intro pmm _ frame hframe
    cases hframe
  | succ n ih =>
    intro pmm hpmm frame hframe
    obtain ⟨hmem, hne⟩ := List.mem_filter.mp hframe
    rcases pmmAllocFrame_cases hpmm with ⟨_, heq⟩ | ⟨frameIndex, ⟨hfree, _⟩, heq⟩
    · rw [handedOut, heq] at hmem
      rcases List.mem_cons.mp hmem with rfl | hlater
      · simp at hne
      · exact ih hpmm frame (List.mem_filter.mpr ⟨hlater, hne⟩)
    · rw [handedOut, heq] at hmem
      obtain ⟨haddr, hserving, _, hset⟩ := pmmTakeFrame_spec hpmm hfree
      rcases List.mem_cons.mp hmem with rfl | hlater
      · exact ⟨frameIndex.toNat, hfree, haddr⟩
      · obtain ⟨g, hg, hat⟩ := ih hserving frame (List.mem_filter.mpr ⟨hlater, hne⟩)
        exact ⟨g, ((hset g).mp hg).1, hat⟩

/-- The real allocator hands out every frame once: a frame it took is not in its set any more. -/
theorem fresh_of_serving (hpmm : Serving pmm) : Fresh [] pmm := by
  intro n
  rw [List.nil_append]
  induction n generalizing pmm with
  | zero => exact List.nodup_nil
  | succ n ih =>
    rcases pmmAllocFrame_cases hpmm with ⟨_, heq⟩ | ⟨frameIndex, ⟨hfree, _⟩, heq⟩
    · rw [handedOut, heq, List.filter_cons_of_neg (by simp)]
      exact ih hpmm
    · obtain ⟨haddr, hserving, _, hset⟩ := pmmTakeFrame_spec hpmm hfree
      rw [handedOut, heq, List.filter_cons]
      split
      · refine List.nodup_cons.mpr ⟨fun hagain => ?_, ih hserving⟩
        obtain ⟨g, hg, hat⟩ := mem_handedOut n hserving _ hagain
        refine ((hset g).mp hg).2 ?_
        omega
      · exact ih hserving

/-! ### Entries -/

def entry (page : UInt32) : UInt32 := page ||| pagingFlagPresent ||| pagingFlagRw

section entries
variable {page : UInt32}

theorem entry_eq (page : UInt32) : entry page = page ||| 3 := by
  rw [entry, UInt32.or_assoc]
  rfl

theorem entry_present (page : UInt32) : entry page &&& pagingFlagPresent ≠ 0 := by
  have hand : entry page &&& pagingFlagPresent = pagingFlagPresent := by
    rw [entry, UInt32.or_assoc, UInt32.or_comm pagingFlagPresent, ← UInt32.or_assoc, or_and_self]
  rw [hand]
  decide

theorem entry_writable (page : UInt32) : entry page &&& pagingFlagRw ≠ 0 := by
  rw [entry, or_and_self]
  decide

theorem entry_page (hpage : PageAligned page) : entry page &&& ~~~0xFFF = page := by
  rw [entry_eq]
  exact or_flags_and_not_mask hpage (by decide)

end entries

/-! ### The loops -/

theorem toNat_ofNat_lt {n : Nat} (h : n < 2 ^ 32) : (UInt32.ofNat n).toNat = n :=
  UInt32.toNat_ofNat_of_lt' h

theorem pagingZeroWords_eq_fill (page : UInt32) : ∀ (rounds : Nat) (index : UInt32) (mem : Mem),
    pagingZeroWords page rounds index mem = fill page (fun _ => 0) rounds index mem := by
  intro rounds
  induction rounds with
  | zero =>
    intro index mem
    rfl
  | succ rounds ih =>
    intro index mem
    rw [pagingZeroWords, fill, ih]

theorem pagingZeroPage_word {page page' i : UInt32} (mem : Mem) (hpage : PageAligned page)
    (hpage' : PageAligned page') (hi : i.toNat < 1024) :
    word (pagingZeroPage mem page) page' i = if page = page' then 0 else word mem page' i := by
  rw [pagingZeroPage, pagingZeroWords_eq_fill, word_fill _ hpage hpage' hi _ _ _ (by decide)]
  simp

/-- As long as the identity mapping goes on, the inner loop does not break, and `physical_address`
follows the index. -/
theorem pagingFillTable_eq_fill (table : UInt32) {identityBytes base : UInt32} :
    ∀ (rounds : Nat) (index : UInt32) (mem : Mem), index.toNat + rounds ≤ 1024 →
      base.toNat + 4096 * (index.toNat + rounds) ≤ identityBytes.toNat →
      pagingFillTable table identityBytes rounds index (base + 4096 * index) mem =
        (base + 4096 * (index + UInt32.ofNat rounds),
          fill table (fun i => entry (base + 4096 * i)) rounds index mem) := by
  intro rounds
  induction rounds with
  | zero =>
    intro index mem _ _
    rw [pagingFillTable, fill, show UInt32.ofNat 0 = 0 from rfl, UInt32.add_zero]
  | succ rounds ih =>
    intro index mem hend hroom
    have hid := identityBytes.toNat_lt
    have hnext : (index + 1).toNat = index.toNat + 1 := toNat_add_of_lt (by rw [UInt32.toNat_one]; omega)
    have hbelow : base + 4096 * index < identityBytes := by
      have hpages : (4096 * index).toNat = 4096 * index.toNat :=
        toNat_mul_of_lt (by change 4096 * index.toNat < _; omega)
      rw [UInt32.lt_iff_toNat_lt, toNat_add_of_lt (by omega), hpages]
      omega
    have hstep : base + 4096 * index + pagingPageSize = base + 4096 * (index + 1) := by
      unfold pagingPageSize
      grind
    have hsum : index + 1 + UInt32.ofNat rounds = index + UInt32.ofNat (rounds + 1) := by
      rw [UInt32.ofNat_add, UInt32.add_assoc, UInt32.add_comm 1]
      rfl
    rw [pagingFillTable, if_pos hbelow, hstep, ih _ _ (by omega) (by omega), hsum]
    rfl

theorem pagingFillTable_word {table identityBytes base : UInt32} (mem : Mem) (htable : PageAligned table)
    (hroom : base.toNat + 2 ^ 22 ≤ identityBytes.toNat) :
    (pagingFillTable table identityBytes pagingTableEntries.toNat 0 base mem).1 = base +
      pagingBytesPerTable ∧ ∀ page i, PageAligned page → i.toNat < 1024 →
        word (pagingFillTable table identityBytes pagingTableEntries.toNat 0 base mem).2 page i =
          if table = page then entry (base + 4096 * i) else word mem page i := by
  have hentries : pagingTableEntries.toNat = 1024 := rfl
  have hfill := pagingFillTable_eq_fill table 1024 0 mem (by decide) (by change _ + 4096 * 1024 ≤ _; omega)
  rw [UInt32.mul_zero, UInt32.add_zero] at hfill
  rw [hentries, hfill]
  refine ⟨rfl, fun page i hpage hi => ?_⟩
  rw [word_fill _ htable hpage hi _ _ _ (by decide)]
  simp

def pageAddress (n : Nat) (j : UInt32) : UInt32 := UInt32.ofNat (n * 2 ^ 22) + 4096 * j

/-- The directory points to the tables, in order and to nothing else, and each table maps its own pages. -/
structure Built (mem : Mem) (directory : UInt32) (tables : List UInt32) : Prop where
  aligned : ∀ page ∈ directory :: tables, PageAligned page
  distinct : (directory :: tables).Nodup
  listed : ∀ (i : UInt32) (table : UInt32), tables[i.toNat]? = some table → i.toNat < 1024 →
    word mem directory i = entry table
  rest : ∀ i : UInt32, tables.length ≤ i.toNat → i.toNat < 1024 → word mem directory i = 0
  pages : ∀ (n : Nat) (table : UInt32), tables[n]? = some table → ∀ j : UInt32, j.toNat < 1024 →
    word mem table j = entry (pageAddress n j)

section building
variable {mem : Mem} {directory identityBytes : UInt32} {tables : List UInt32}

theorem built_directory (mem : Mem) (hdirectory : PageAligned directory) :
    Built (pagingZeroPage mem directory) directory [] := by
  refine ⟨?_, List.nodup_singleton _, ?_, ?_, ?_⟩
  · intro page hpage
    rwa [List.mem_singleton.mp hpage]
  · intro i table hat
    simp at hat
  · intro i _ hi
    rw [pagingZeroPage_word mem hdirectory hdirectory hi, if_pos rfl]
  · intro n table hat
    simp at hat

/-- The loop variables of the outer loop after `n` tables. -/
structure AtTable (n : Nat) (tableIndex physicalAddress : UInt32) : Prop where
  index : tableIndex.toNat = n
  physical : physicalAddress.toNat = n * 2 ^ 22

variable {tableIndex physicalAddress : UInt32} {n : Nat}

theorem round_word {table : UInt32} (htable : PageAligned table) (hdirectory : PageAligned directory)
    (hat : AtTable n tableIndex physicalAddress) (hroom : n * 2 ^ 22 + 2 ^ 22 ≤ identityBytes.toNat)
    {page i : UInt32} (hpage : PageAligned page) (hi : i.toNat < 1024) :
    word ((pagingFillTable table identityBytes pagingTableEntries.toNat 0 physicalAddress
        (pagingZeroPage mem table)).2.store32 (slot directory tableIndex) (entry table)) page i =
      if directory = page ∧ tableIndex = i then entry table
      else if table = page then entry (pageAddress n i) else word mem page i := by
  have hid := identityBytes.toNat_lt
  have hindex : tableIndex.toNat < 1024 := by
    rw [hat.index]
    omega
  have hphys : physicalAddress = UInt32.ofNat (n * 2 ^ 22) := by
    rw [← hat.physical, UInt32.ofNat_toNat]
  obtain ⟨_, hwords⟩ := pagingFillTable_word (pagingZeroPage mem table) htable (hat.physical.symm ▸ hroom)
  rw [word_store _ _ hdirectory hindex hpage hi, hwords page i hpage hi,
    pagingZeroPage_word mem htable hpage hi]
  by_cases hentry : directory = page ∧ tableIndex = i
  · rw [if_pos hentry, if_pos hentry]
  rw [if_neg hentry, if_neg hentry]
  by_cases hsame : table = page
  · rw [if_pos hsame, if_pos hsame, pageAddress, hphys]
  · rw [if_neg hsame, if_neg hsame, if_neg hsame]

theorem AtTable.next {table : UInt32} (hat : AtTable n tableIndex physicalAddress)
    (htable : PageAligned table) (hroom : n * 2 ^ 22 + 2 ^ 22 ≤ identityBytes.toNat) (mem : Mem) :
    AtTable (n + 1) (tableIndex + 1)
      (pagingFillTable table identityBytes pagingTableEntries.toNat 0 physicalAddress mem).1 := by
  have hid := identityBytes.toNat_lt
  have hbytes : pagingBytesPerTable.toNat = 2 ^ 22 := rfl
  have hindex := hat.index
  have hphys := hat.physical
  refine ⟨?_, ?_⟩
  · rw [toNat_add_of_lt (by rw [UInt32.toNat_one]; omega), hindex]
    rfl
  · rw [(pagingFillTable_word mem htable (hphys.symm ▸ hroom)).1, toNat_add_of_lt (by omega), hphys, hbytes]
    omega

theorem Built.round (h : Built mem directory tables) {table : UInt32} (htable : PageAligned table)
    (hnew : (directory :: tables ++ [table]).Nodup) (hat : AtTable tables.length tableIndex physicalAddress)
    (hroom : tables.length * 2 ^ 22 + 2 ^ 22 ≤ identityBytes.toNat) :
    Built ((pagingFillTable table identityBytes pagingTableEntries.toNat 0 physicalAddress
        (pagingZeroPage mem table)).2.store32 (slot directory tableIndex) (entry table))
      directory (tables ++ [table]) := by
  have hindex := hat.index
  have hdirectory : PageAligned directory := h.aligned _ List.mem_cons_self
  obtain ⟨_, _, hapart⟩ := List.nodup_append.mp hnew
  have hother : ∀ page ∈ directory :: tables, table ≠ page := by
    rintro page hpage rfl
    exact hapart _ hpage _ (List.mem_singleton_self _) rfl
  have hnotDirectory : ∀ page ∈ tables ++ [table], directory ≠ page := by
    rintro page hpage rfl
    exact (List.nodup_cons.mp hnew).1 hpage
  refine ⟨?_, hnew, ?_, ?_, ?_⟩
  · intro page hpage
    rcases List.mem_append.mp (show page ∈ (directory :: tables) ++ [table] from hpage) with hold | hlast
    · exact h.aligned page hold
    · rwa [List.mem_singleton.mp hlast]
  · intro i table' hlisted hi
    rw [round_word htable hdirectory hat hroom hdirectory hi, if_neg (hother _ List.mem_cons_self)]
    by_cases hlast : tableIndex = i
    · rw [if_pos ⟨rfl, hlast⟩]
      rw [← hlast, hindex, List.getElem?_concat_length] at hlisted
      rw [Option.some.inj hlisted]
    · rw [if_neg (fun he => hlast he.2)]
      have hne : i.toNat ≠ tables.length := fun he => hlast (UInt32.toNat_inj.mp (hindex.trans he.symm))
      have hlt := (List.getElem?_eq_some_iff.mp hlisted).1
      rw [List.length_append, List.length_singleton] at hlt
      rw [List.getElem?_append_left (by omega)] at hlisted
      exact h.listed i table' hlisted hi
  · intro i hge hi
    rw [List.length_append, List.length_singleton] at hge
    have hne : tableIndex ≠ i := by
      rintro rfl
      omega
    rw [round_word htable hdirectory hat hroom hdirectory hi, if_neg (fun he => hne he.2),
      if_neg (hother _ List.mem_cons_self)]
    exact h.rest i (by omega) hi
  · intro m table' hlisted j hj
    have hmem : table' ∈ tables ++ [table] := List.mem_of_getElem? hlisted
    by_cases hlast : m = tables.length
    · rw [hlast, List.getElem?_concat_length] at hlisted
      obtain rfl := Option.some.inj hlisted
      rw [round_word htable hdirectory hat hroom htable hj,
        if_neg (fun he => hnotDirectory _ hmem he.1), if_pos rfl, hlast]
    · have hlt := (List.getElem?_eq_some_iff.mp hlisted).1
      rw [List.length_append, List.length_singleton] at hlt
      rw [List.getElem?_append_left (by omega)] at hlisted
      have hold : table' ∈ directory :: tables := List.mem_cons_of_mem _ (List.mem_of_getElem? hlisted)
      rw [round_word htable hdirectory hat hroom (h.aligned _ hold) hj,
        if_neg (fun he => hnotDirectory _ hmem he.1), if_neg (hother _ hold)]
      exact h.pages m table' hlisted j hj

theorem Built.tableLoop : ∀ (rounds : Nat) {mem : Mem} {tables : List UInt32} {pmm : Pmm.State}
    {tableIndex physicalAddress : UInt32}, Built mem directory tables → Fresh (directory :: tables) pmm →
      AtTable tables.length tableIndex physicalAddress →
      (tables.length + rounds) * 2 ^ 22 = identityBytes.toNat →
      (pagingTableLoop directory identityBytes rounds tableIndex physicalAddress pmm mem).1 = true →
      ∃ tables', tables'.length * 2 ^ 22 = identityBytes.toNat ∧
        Built (pagingTableLoop directory identityBytes rounds tableIndex physicalAddress pmm mem).2.2
          directory tables' := by
  intro rounds
  induction rounds with
  | zero =>
    intro mem tables pmm _ _ h _ _ hsize _
    exact ⟨tables, hsize, h⟩
  | succ rounds ih =>
    intro mem tables pmm tableIndex physicalAddress h hfresh hat hsize hok
    rw [pagingTableLoop] at hok ⊢
    dsimp only at hok ⊢
    by_cases hnone : (pmmAllocFrame pmm).1 = 0
    · rw [if_pos hnone] at hok
      cases hok
    rw [if_neg hnone] at hok ⊢
    have htable := pmmAllocFrame_aligned pmm
    have hnext := hfresh.alloc hnone
    generalize (pmmAllocFrame pmm).1 = table at *
    have hlength : (tables ++ [table]).length = tables.length + 1 := List.length_append
    have hroom : tables.length * 2 ^ 22 + 2 ^ 22 ≤ identityBytes.toNat := by omega
    have hgrown : ((tables ++ [table]).length + rounds) * 2 ^ 22 = identityBytes.toNat := by
      rw [← hsize, hlength, Nat.add_right_comm, Nat.add_assoc]
    have hbuilt := h.round htable hnext.nodup hat hroom
    rw [entry] at hbuilt
    exact ih hbuilt hnext (hlength ▸ hat.next htable hroom _) hgrown hok

/-! ### The walk of the processor -/

theorem address_split (v : UInt32) :
    (v >>> 22).toNat = v.toNat / 2 ^ 22 ∧ ((v >>> 12) &&& 0x3FF).toNat = v.toNat / 2 ^ 12 % 2 ^ 10 ∧
      (v &&& 0xFFF).toNat = v.toNat % 2 ^ 12 := by
  refine ⟨?_, ?_, toNat_and_mask v 12 (by omega)⟩
  · rw [UInt32.toNat_shiftRight, Nat.shiftRight_eq_div_pow]
    rfl
  · have hmask : ((v >>> 12) &&& 0x3FF).toNat = (v >>> 12).toNat % 2 ^ 10 := toNat_and_mask _ 10 (by omega)
    rw [hmask, UInt32.toNat_shiftRight, Nat.shiftRight_eq_div_pow]
    rfl

theorem pageAddress_or_offset (v : UInt32) :
    PageAligned (pageAddress (v.toNat / 2 ^ 22) ((v >>> 12) &&& 0x3FF)) ∧
      pageAddress (v.toNat / 2 ^ 22) ((v >>> 12) &&& 0x3FF) ||| (v &&& 0xFFF) = v := by
  have hv := v.toNat_lt
  obtain ⟨_, hindex, hoffset⟩ := address_split v
  have hbase := toNat_ofNat_lt (show v.toNat / 2 ^ 22 * 2 ^ 22 < 2 ^ 32 by omega)
  have hpages : ((4096 : UInt32) * ((v >>> 12) &&& 0x3FF)).toNat = 4096 * (v.toNat / 2 ^ 12 % 2 ^ 10) := by
    rw [← hindex]
    apply toNat_mul_of_lt
    change 4096 * ((v >>> 12) &&& 0x3FF).toNat < _
    omega
  have hpage : (pageAddress (v.toNat / 2 ^ 22) ((v >>> 12) &&& 0x3FF)).toNat =
      v.toNat / 2 ^ 12 * 2 ^ 12 := by
    rw [pageAddress, toNat_add_of_lt (by omega), hbase, hpages]
    omega
  have haligned : PageAligned (pageAddress (v.toNat / 2 ^ 22) ((v >>> 12) &&& 0x3FF)) := by
    rw [PageAligned, hpage]
    omega
  refine ⟨haligned, UInt32.toNat_inj.mp ?_⟩
  rw [toNat_or_low (k := 12) haligned (by omega), hpage, hoffset]
  omega

theorem Built.translate_below (h : Built mem directory tables)
    (hsize : tables.length * 2 ^ 22 = identityBytes.toNat) {v : UInt32} (hv : v < identityBytes) :
    translate mem directory v = some ⟨v, true⟩ := by
  have hlt := v.toNat_lt
  rw [UInt32.lt_iff_toNat_lt] at hv
  obtain ⟨hdir, hindex, _⟩ := address_split v
  obtain ⟨haligned, haddress⟩ := pageAddress_or_offset v
  have hdirectory := and_not_mask_of_aligned (h.aligned directory List.mem_cons_self)
  have hin : (v >>> 22).toNat < tables.length := by omega
  have hat : tables[(v >>> 22).toNat]? = some tables[(v >>> 22).toNat] := List.getElem?_eq_getElem hin
  have hpde := h.listed (v >>> 22) _ hat (by omega)
  have hpte := h.pages _ _ hat ((v >>> 12) &&& 0x3FF) (by omega)
  have htable := h.aligned _ (List.mem_cons_of_mem directory (List.getElem_mem hin))
  generalize tables[(v >>> 22).toNat] = table at hpde hpte htable
  rw [hdir] at hpte
  unfold translate
  dsimp only
  rw [hdirectory, hpde, if_neg (entry_present table), entry_page htable, hpte, if_neg (entry_present _),
    entry_page haligned, haddress]
  have hpdeRw := bne_iff_ne.mpr (entry_writable table)
  have hpteRw := bne_iff_ne.mpr (entry_writable (pageAddress (v.toNat / 2 ^ 22) ((v >>> 12) &&& 0x3FF)))
  rw [hpdeRw, hpteRw, Bool.and_self]

theorem Built.translate_behind (h : Built mem directory tables)
    (hsize : tables.length * 2 ^ 22 = identityBytes.toNat) {v : UInt32} (hv : identityBytes ≤ v) :
    translate mem directory v = none := by
  have hlt := v.toNat_lt
  rw [UInt32.le_iff_toNat_le] at hv
  obtain ⟨hdir, _, _⟩ := address_split v
  have hdirectory := and_not_mask_of_aligned (h.aligned directory List.mem_cons_self)
  unfold translate
  dsimp only
  rw [hdirectory, h.rest (v >>> 22) (by omega) (by omega), UInt32.zero_and, if_pos rfl]

end building

/-! ### The whole call -/

/-- The state in which the kernel calls `paging_init`: `pmm_init` has completed, which it does with
valid boot information and an initialised heap only, the multiboot block does not wrap, and the
allocator hands out different frames. -/
structure Booted (s : System) : Prop where
  boot : s.boot.ready = true
  heap : s.heap.heapReady = true
  pmm : s.pmm.pmmReady = true
  info : s.boot.infoAddress.toNat + s.boot.infoSize.toNat ≤ 2 ^ 32
  frames : Fresh [] s.pmm

/-- Paging is on, with whole tables that cover the first 16 MiB, the heap and the multiboot block, and the
processor translates the addresses below the limit to themselves and no other. -/
structure ExactIdentity (s : System) : Prop where
  enabled : s.cr0 &&& 0x80000000 ≠ 0 ∧ s.cr3 = s.paging.pagingDirectoryPhysical
  whole : s.paging.pagingIdentityBytes.toNat % (4 * 2 ^ 20) = 0
  low : 16 * 2 ^ 20 ≤ s.paging.pagingIdentityBytes.toNat
  heap : s.heap.heapEndPtr ≤ s.paging.pagingIdentityBytes
  info : s.boot.infoAddress.toNat + s.boot.infoSize.toNat ≤ s.paging.pagingIdentityBytes.toNat
  mapped : ∀ v, v < s.paging.pagingIdentityBytes → translate s.heap.mem s.cr3 v = some ⟨v, true⟩
  unmapped : ∀ v, s.paging.pagingIdentityBytes ≤ v → translate s.heap.mem s.cr3 v = none

theorem pagingAlignUp_cases (limit : UInt32) :
    pagingAlignUp limit pagingBytesPerTable = 0 ∨
      limit.toNat ≤ (pagingAlignUp limit pagingBytesPerTable).toNat ∧
        (pagingAlignUp limit pagingBytesPerTable).toNat % 2 ^ 22 = 0 := by
  have hlt := limit.toNat_lt
  have hup : (pagingAlignUp limit pagingBytesPerTable).toNat =
      (limit.toNat + (2 ^ 22 - 1)) % 2 ^ 32 / 2 ^ 22 * 2 ^ 22 := by
    rw [pagingAlignUp, show pagingBytesPerTable - 1 = UInt32.ofNat (2 ^ 22 - 1) from rfl,
      toNat_and_not_mask _ 22 (by omega), UInt32.toNat_add]
    rfl
  by_cases hwrap : limit.toNat + (2 ^ 22 - 1) < 2 ^ 32
  · right
    rw [hup, Nat.mod_eq_of_lt hwrap]
    omega
  · left
    apply UInt32.toNat_inj.mp
    rw [hup, UInt32.toNat_zero]
    omega

theorem pagingIdentityLimitBytes_covers {boot : BootInfo} {heap : Heap.State} (hready : boot.ready = true)
    (hinfo : boot.infoAddress.toNat + boot.infoSize.toNat < 2 ^ 32)
    (hne : pagingIdentityLimitBytes boot heap ≠ 0) :
    (pagingIdentityLimitBytes boot heap).toNat % 2 ^ 22 = 0 ∧
      16 * 2 ^ 20 ≤ (pagingIdentityLimitBytes boot heap).toNat ∧
      heap.heapEndPtr ≤ pagingIdentityLimitBytes boot heap ∧
      boot.infoAddress.toNat + boot.infoSize.toNat ≤ (pagingIdentityLimitBytes boot heap).toNat := by
  have hend := toNat_add_of_lt hinfo
  have hmin : pagingMinIdentityBytes.toNat = 16 * 2 ^ 20 := rfl
  unfold pagingIdentityLimitBytes at hne ⊢
  dsimp only at hne ⊢
  rw [if_pos hready] at hne ⊢
  rw [UInt32.le_iff_toNat_le]
  obtain ⟨hge, hwhole⟩ := (pagingAlignUp_cases _).resolve_left hne
  generalize pagingAlignUp _ pagingBytesPerTable = identity at hge hwhole ⊢
  refine ⟨hwhole, ?_⟩
  simp only [gt_iff_lt, UInt32.lt_iff_toNat_lt] at hge
  split_ifs at hge <;> omega

/-- What the outer loop returns in a call that gets as far. -/
def tablesBuilt (s : System) (identityBytes : UInt32) : Bool × Pmm.State × Mem :=
  pagingTableLoop (pmmAllocFrame s.pmm).1 identityBytes (identityBytes / pagingBytesPerTable).toNat 0 0
    (pmmAllocFrame s.pmm).2 (pagingZeroPage s.heap.mem (pmmAllocFrame s.pmm).1)

theorem pagingEnable_ready {s : System} {directory identityBytes tablesCount : UInt32}
    {built : Bool × Pmm.State × Mem} (hoff : s.paging.pagingReady = false)
    (hready : (pagingEnable s directory identityBytes tablesCount built).paging.pagingReady = true) :
    built.1 = true ∧ pagingEnable s directory identityBytes tablesCount built =
      { s with
        pmm := built.2.1
        heap := { s.heap with mem := built.2.2 }
        cr0 := s.cr0 ||| 0x80000000
        cr3 := directory
        paging := ⟨directory, identityBytes, tablesCount, true⟩ } := by
  obtain ⟨ok, pmm, mem⟩ := built
  cases ok with
  | false =>
    change s.paging.pagingReady = true at hready
    rw [hoff] at hready
    cases hready
  | true => exact ⟨rfl, rfl⟩

theorem pagingInit_ready {s : System} (hready : (pagingInit s).paging.pagingReady = true) :
    ∃ identityBytes, identityBytes = pagingIdentityLimitBytes s.boot s.heap ∧ identityBytes ≠ 0 ∧
      (pmmAllocFrame s.pmm).1 ≠ 0 ∧ (tablesBuilt s identityBytes).1 = true ∧
      pagingInit s =
        { s with
          pmm := (tablesBuilt s identityBytes).2.1
          heap := { s.heap with mem := (tablesBuilt s identityBytes).2.2 }
          cr0 := s.cr0 ||| 0x80000000
          cr3 := (pmmAllocFrame s.pmm).1
          paging := ⟨(pmmAllocFrame s.pmm).1, identityBytes, identityBytes / pagingBytesPerTable,
            true⟩ } := by
  unfold pagingInit at hready ⊢
  by_cases hoff : s.pmm.pmmReady = false ∨ s.heap.heapReady = false
  · rw [if_pos hoff] at hready
    cases hready
  rw [if_neg hoff] at hready ⊢
  refine ⟨_, rfl, ?_⟩
  generalize pagingIdentityLimitBytes s.boot s.heap = identityBytes at hready ⊢
  unfold pagingBuild at hready ⊢
  by_cases hcount : identityBytes / pagingBytesPerTable = 0 ∨
    identityBytes / pagingBytesPerTable > pagingDirectoryEntries
  · rw [if_pos hcount] at hready
    cases hready
  rw [if_neg hcount] at hready ⊢
  have hne : identityBytes ≠ 0 := by
    rintro rfl
    exact hcount (Or.inl rfl)
  by_cases hnone : (pmmAllocFrame s.pmm).1 = 0
  · rw [if_pos hnone] at hready
    cases hready
  rw [if_neg hnone] at hready ⊢
  obtain ⟨hbuilt, heq⟩ := pagingEnable_ready rfl hready
  exact ⟨hne, hnone, hbuilt, heq⟩

theorem booted_of_pmmInit {boot : BootInfo} {kernelEnd : UInt32} {heap heap' : Heap.State}
    (hinit : pmmInit boot kernelEnd heap = some (pmm, heap')) (hready : pmm.pmmReady = true)
    (hheap : heap'.heapReady = true) (hinfo : boot.infoAddress.toNat + boot.infoSize.toNat ≤ 2 ^ 32)
    (cr0 cr3 : UInt32) (paging : State) : Booted ⟨boot, heap', pmm, cr0, cr3, paging⟩ := by
  obtain ⟨_, _, hs⟩ := pmmInit_ready hinit hready
  have hboot : boot.ready = true := by
    by_contra hoff
    rw [pmmInit, if_pos (Or.inl (Bool.eq_false_of_not_eq_true hoff))] at hinit
    obtain ⟨rfl, _⟩ := Prod.mk.inj (Option.some.inj hinit)
    cases hready
  have hserving : Serving pmm := ⟨hs.counted, hs.ready, by rw [hs.next]; exact Nat.zero_le _⟩
  exact ⟨hboot, hheap, hready, hinfo, fresh_of_serving hserving⟩

/-- When `paging_init` completes in a booted system, the mapping is exactly the identity below
`paging_identity_bytes`, a multiple of 4 MiB that covers the first 16 MiB, the heap and the multiboot
block, if and only if the block does not end at the very end of the address space. -/
theorem identity_mapping_exact_iff {s : System} (hbooted : Booted s)
    (hready : (pagingInit s).paging.pagingReady = true) :
    ExactIdentity (pagingInit s) ↔ s.boot.infoAddress.toNat + s.boot.infoSize.toNat ≠ 2 ^ 32 := by
  obtain ⟨identityBytes, hlimit, hne, hdirectory, hok, heq⟩ := pagingInit_ready hready
  constructor
  · -- no 32-bit limit covers a block up to the last byte
    intro hexact hend
    have hcovered := hexact.info
    rw [heq] at hcovered
    have hbytes := identityBytes.toNat_lt
    change s.boot.infoAddress.toNat + s.boot.infoSize.toNat ≤ identityBytes.toNat at hcovered
    omega
  intro hend
  obtain ⟨hwhole, hlow, hheap, hinfo⟩ :=
    pagingIdentityLimitBytes_covers hbooted.boot (lt_of_le_of_ne hbooted.info hend) (hlimit ▸ hne)
  rw [← hlimit] at hwhole hlow hheap hinfo
  rw [heq]
  have haligned := pmmAllocFrame_aligned s.pmm
  have hfresh := hbooted.frames.alloc hdirectory
  have hrounds : (identityBytes / pagingBytesPerTable).toNat = identityBytes.toNat / 2 ^ 22 := by
    rw [UInt32.toNat_div]
    rfl
  have hwholeTables : (0 + (identityBytes / pagingBytesPerTable).toNat) * 2 ^ 22 = identityBytes.toNat := by
    rw [hrounds]
    omega
  have hstart : AtTable 0 0 0 := ⟨rfl, (Nat.zero_mul _).symm⟩
  obtain ⟨tables, hsize, htables⟩ :=
    (built_directory s.heap.mem haligned).tableLoop _ hfresh hstart hwholeTables hok
  refine ⟨⟨?_, rfl⟩, by omega, hlow, hheap, hinfo, ?_, ?_⟩
  · change (s.cr0 ||| 0x80000000) &&& 0x80000000 ≠ 0
    rw [or_and_self]
    decide
  · intro v hv
    exact htables.translate_below hsize hv
  · intro v hv
    exact htables.translate_behind hsize hv

/-- A system with five free frames, just enough for the smallest mapping. -/
def fiveFrames : System where
  boot := plainMap
  heap := Heap.heapInit 0x00200000 Heap.bootState
  pmm := ⟨0x00200020, [0xC1], 1, 8, 5, 0, true⟩
  cr0 := 1
  cr3 := 0
  paging := pagingReset

theorem fiveFrames_serving : Serving fiveFrames.pmm := by
  refine ⟨⟨by decide, rfl, by decide +kernel, ?_⟩, rfl, by decide⟩
  intro i hge hlt
  change 8 ≤ i at hge
  change i < 8 at hlt
  omega

theorem identity_mapping_exact_five_frames :
    (pagingInit fiveFrames).paging.pagingReady = true ∧ ExactIdentity (pagingInit fiveFrames) := by
  have hready : (pagingInit fiveFrames).paging.pagingReady = true := by decide +kernel
  have hbooted : Booted fiveFrames :=
    ⟨rfl, by decide +kernel, rfl, by decide, fresh_of_serving fiveFrames_serving⟩
  exact ⟨hready, (identity_mapping_exact_iff hbooted hready).mpr (by decide)⟩

/-- A block of 16 bytes up to the end of the address space. The entry of its memory map is read
around the end, at address 8. -/
def topBlock : Mem :=
  ((((((Mem.store32 (fun _ => 0) 0xFFFFFFF0 16).store32 0xFFFFFFF8 6).store32 0xFFFFFFFC 40).store32
    0 24).store32 8 0x00200000).store32 16 0x07E00000).store32 24 1

def topInfo : BootInfo := ⟨true, 0xFFFFFFF0, 16, [⟨0x00200000, 0x07E00000, 1⟩], 0x07E00000, 0x07FFFFFF⟩

def topFrames : System := { fiveFrames with boot := topInfo }

/-- The end of the block wraps to zero, and the first 16 MiB are all that is mapped. -/
theorem top_block_not_covered :
    bootinfoInit topBlock multiboot2Magic 0xFFFFFFF0 = some topInfo ∧ Booted topFrames ∧
      (pagingInit topFrames).paging.pagingReady = true ∧
      (pagingInit topFrames).paging.pagingIdentityBytes = 0x01000000 ∧
      ¬ExactIdentity (pagingInit topFrames) := by
  have hidentity : (pagingInit topFrames).paging.pagingIdentityBytes = 0x01000000 := by decide +kernel
  refine ⟨by decide +kernel, ?_, by decide +kernel, hidentity, ?_⟩
  · exact ⟨rfl, by decide +kernel, rfl, by decide, fresh_of_serving fiveFrames_serving⟩
  · intro hexact
    have hcovered := hexact.info
    rw [hidentity] at hcovered
    exact absurd hcovered (by decide +kernel)

end TermobKernel.Paging

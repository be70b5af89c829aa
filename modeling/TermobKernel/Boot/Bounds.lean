import TermobKernel.Boot.Info
import TermobKernel.Library.Loads
import TermobKernel.Library.Walk

/-!
# What the walk over the boot information reads

`bootinfo_init` bounds the eight bytes of a tag header by the end of the block. The entries of a
memory map are bounded by the size that the tag itself declares, and the next tag is found by adding
that size to a 32-bit address. The functions of the file are written here once more, load by load
(`bootinfoInitLoads`), with the results of the model (`bootinfoInitLoads_run`); the words they load
are compared with the block. They all lie in it exactly when the tags and entries that the walk
comes to keep them there (`walk_local_iff`), and then the bytes of the block alone decide the
outcome.
-/

namespace TermobKernel.Boot
open Walk Loads

/-! ### Tags and entries in memory -/

section
variable (mem : Mem)

def tagType (tag : UInt32) : UInt32 := mem.load32 tag
def tagSize (tag : UInt32) : UInt32 := mem.load32 (tag + 4)
def tagEntrySize (tag : UInt32) : UInt32 := mem.load32 (tag + 8)

def HasEntries (tag : UInt32) : Prop := tagType mem tag = multibootTagTypeMmap ∧ tagEntrySize mem tag ≥ 24

instance (tag : UInt32) : Decidable (HasEntries mem tag) := inferInstanceAs (Decidable (_ ∧ _))

def EntryGuard (tag cursor : UInt32) : Prop := cursor + tagEntrySize mem tag ≤ tag + tagSize mem tag

instance (tag : UInt32) : DecidablePred (EntryGuard mem tag) := fun _ => inferInstanceAs (Decidable (_ ≤ _))

/-- What the loop over the entries of a tag makes of the boot information. -/
def entryLoop (tag : UInt32) (b : BootInfo) : Option BootInfo :=
  bootinfoEntryLoop mem (tagEntrySize mem tag) (tag + tagSize mem tag) UInt32.size (tag + 16) b

def nextTag (tag : UInt32) : UInt32 := bootinfoAlignUp (tag + tagSize mem tag) 8

end

theorem bootinfoTagLoop_succ (mem : Mem) (infoEnd : UInt32) (fuel : Nat) (tag : UInt32) (b : BootInfo) :
    bootinfoTagLoop mem infoEnd (fuel + 1) tag b =
      if tag + 8 ≤ infoEnd then
        if tagType mem tag = multibootTagTypeEnd then some b
        else
          (if HasEntries mem tag then entryLoop mem tag b else some b).bind fun b =>
            if tagSize mem tag < 8 then some b else bootinfoTagLoop mem infoEnd fuel (nextTag mem tag) b
      else some b := by
  rw [bootinfoTagLoop]
  by_cases hfits : tag + 8 ≤ infoEnd
  · rw [if_pos hfits, if_pos hfits]
    by_cases hend : tagType mem tag = multibootTagTypeEnd
    · rw [if_pos hend]
      exact if_pos hend
    · rw [if_neg hend]
      refine (if_neg hend).trans ?_
      generalize hloop : (if HasEntries mem tag then entryLoop mem tag b else some b) = stored
      have hsource : (if mem.load32 tag = multibootTagTypeMmap ∧ mem.load32 (tag + 8) ≥ 24 then
          bootinfoEntryLoop mem (mem.load32 (tag + 8)) (tag + mem.load32 (tag + 4)) UInt32.size (tag + 16) b
          else some b) = stored := hloop
      rw [hsource]
      cases stored <;> rfl
  · rw [if_neg hfits, if_neg hfits]

/-! ### The loads -/

def load64 (address : UInt32) : Loads UInt64 := do
  let low ← load32 address
  let high ← load32 (address + 4)
  return low.toUInt64 ||| (high.toUInt64 <<< 32)

def rangeLength (addr len : UInt64) : UInt32 :=
  ((if addr + len < addr ∨ addr + len > 0x100000000 then 0x100000000 else addr + len) - addr).toUInt32

/-- A full table is left alone before the entry is looked at, and each test that drops the entry
comes before the loads behind it. -/
def bootinfoStoreMemoryRangeLoads (b : BootInfo) (entry : UInt32) : Loads BootInfo :=
  if b.memoryRanges.length ≥ maxMemoryRanges then return b
  else do
    let len ← load64 (entry + 8)
    if len = 0 then return b
    else
      let addr ← load64 entry
      if addr ≥ 0x100000000 then return b
      else if rangeLength addr len = 0 then return b
      else
        let type ← load32 (entry + 16)
        return bootinfoStoreMemoryRange b ⟨addr, len, type⟩

def bootinfoEntryLoopLoads (entrySize tagEnd : UInt32) : Nat → UInt32 → BootInfo → Loads (Option BootInfo)
  | 0, _, _ => return none
  | fuel + 1, entryCursor, b =>
    if entryCursor + entrySize ≤ tagEnd then do
      let b ← bootinfoStoreMemoryRangeLoads b entryCursor
      bootinfoEntryLoopLoads entrySize tagEnd fuel (entryCursor + entrySize) b
    else return some b

/-- The part of a round that looks at a memory map. -/
def bootinfoMapLoads (rounds : Nat) (tag type : UInt32) (b : BootInfo) : Loads (Option BootInfo) :=
  if type = multibootTagTypeMmap then do
    let entrySize ← load32 (tag + 8)
    if entrySize ≥ 24 then
      let size ← load32 (tag + 4)
      bootinfoEntryLoopLoads entrySize (tag + size) rounds (tag + 16) b
    else return some b
  else return some b

def bootinfoTagLoopLoads (infoEnd : UInt32) (rounds : Nat) :
    Nat → UInt32 → BootInfo → Loads (Option BootInfo)
  | 0, _, _ => return none
  | fuel + 1, tag, b =>
    if tag + 8 ≤ infoEnd then do
      let type ← load32 tag
      if type = multibootTagTypeEnd then return some b
      else
        let stored ← bootinfoMapLoads rounds tag type b
        match stored with
        | none => return none
        | some b =>
          let size ← load32 (tag + 4)
          if size < 8 then return some b
          else bootinfoTagLoopLoads infoEnd rounds fuel (bootinfoAlignUp (tag + size) 8) b
    else return some b

/-- `bootinfo_init` load by load, each loop with the given number of rounds. -/
def bootinfoInitLoads (rounds : Nat) (multibootMagic multibootInfoAddr : UInt32) :
    Loads (Option BootInfo) :=
  if multibootMagic ≠ multiboot2Magic ∨ multibootInfoAddr = 0 then return some bootinfoReset
  else do
    let totalSize ← load32 multibootInfoAddr
    if totalSize < 8 then return some bootinfoReset
    else
      let stored ← bootinfoTagLoopLoads (multibootInfoAddr + totalSize) rounds rounds
        (multibootInfoAddr + 8)
        { bootinfoReset with infoAddress := multibootInfoAddr, infoSize := totalSize }
      return stored.map fun b => if b.memoryRanges.length ≠ 0 then { b with ready := true } else b


section
variable {mem : Mem}

theorem tagType_run (tag : UInt32) : (load32 tag).run mem = tagType mem tag := rfl

theorem tagSize_run (tag : UInt32) : (load32 (tag + 4)).run mem = tagSize mem tag := rfl

theorem tagEntrySize_run (tag : UInt32) : (load32 (tag + 8)).run mem = tagEntrySize mem tag := rfl

theorem load64_run (address : UInt32) : (load64 address).run mem =
    (mem.load32 address).toUInt64 ||| ((mem.load32 (address + 4)).toUInt64 <<< 32) := rfl

theorem entry_word (entry : UInt32) : entry + 8 + 4 = entry + 12 := by
  rw [UInt32.add_assoc]
  rfl

theorem bootinfoStoreMemoryRangeLoads_run (b : BootInfo) (entry : UInt32) :
    (bootinfoStoreMemoryRangeLoads b entry).run mem =
      bootinfoStoreMemoryRange b (mmapEntryAt mem entry) := by
  have hlen : (load64 (entry + 8)).run mem = (mmapEntryAt mem entry).len := by
    rw [load64_run, entry_word, mmapEntryAt]
  have haddr : (load64 entry).run mem = (mmapEntryAt mem entry).addr := load64_run entry
  rw [bootinfoStoreMemoryRangeLoads]
  by_cases hfull : b.memoryRanges.length ≥ maxMemoryRanges
  · rw [if_pos hfull, bootinfoStoreMemoryRange, if_pos hfull, run_pure]
  rw [if_neg hfull, run_bind, hlen]
  by_cases hempty : (mmapEntryAt mem entry).len = 0
  · rw [if_pos hempty, bootinfoStoreMemoryRange, if_neg hfull, if_pos (Or.inl hempty), run_pure]
  rw [if_neg hempty, run_bind, haddr]
  by_cases hhigh : (mmapEntryAt mem entry).addr ≥ 0x100000000
  · rw [if_pos hhigh, bootinfoStoreMemoryRange, if_neg hfull, if_pos (Or.inr hhigh), run_pure]
  rw [if_neg hhigh]
  by_cases hzero : rangeLength (mmapEntryAt mem entry).addr (mmapEntryAt mem entry).len = 0
  · rw [if_pos hzero, run_pure, bootinfoStoreMemoryRange, if_neg hfull, if_neg (by simp [hempty, hhigh])]
    exact (if_pos hzero).symm
  · rw [if_neg hzero, run_bind, run_load32, run_pure]
    rfl

theorem bootinfoEntryLoopLoads_run (entrySize tagEnd : UInt32) (fuel : Nat) (cursor : UInt32)
    (b : BootInfo) :
    (bootinfoEntryLoopLoads entrySize tagEnd fuel cursor b).run mem =
      bootinfoEntryLoop mem entrySize tagEnd fuel cursor b := by
  induction fuel generalizing cursor b with
  | zero => rfl
  | succ fuel ih =>
    rw [bootinfoEntryLoopLoads, bootinfoEntryLoop]
    by_cases hguard : cursor + entrySize ≤ tagEnd
    · rw [if_pos hguard, if_pos hguard, run_bind, bootinfoStoreMemoryRangeLoads_run, ih]
    · rw [if_neg hguard, if_neg hguard, run_pure]

/-! ### The rounds of the entries -/

end

section
variable (mem : Mem)

def entryAt (tag : UInt32) (k : Nat) : UInt32 := tag + 16 + UInt32.ofNat k * tagEntrySize mem tag

/-- The entry number `k` and those before it end within the declared size of the tag. -/
def Declared (tag : UInt32) (k : Nat) : Prop := ∀ i ≤ k, EntryGuard mem tag (entryAt mem tag i)

end

section
variable {mem : Mem} {tag : UInt32}
variable {rounds : Nat}

theorem iterate_add_word (x e : UInt32) (n : Nat) : (· + e)^[n] x = x + UInt32.ofNat n * e := by
  induction n with
  | zero => simp
  | succ n ih =>
    rw [Function.iterate_succ_apply', ih, UInt32.ofNat_add, UInt32.add_mul, UInt32.add_assoc]
    simp

theorem bootinfoEntryLoop_isSome_iff {fuel : Nat} {cursor : UInt32} {b : BootInfo} :
    (bootinfoEntryLoop mem (tagEntrySize mem tag) (tag + tagSize mem tag) fuel cursor b).isSome ↔
      ∃ k < fuel, ¬EntryGuard mem tag ((· + tagEntrySize mem tag)^[k] cursor) := by
  induction fuel generalizing cursor b with
  | zero => simp [bootinfoEntryLoop]
  | succ fuel ih =>
    rw [bootinfoEntryLoop]
    by_cases hguard : EntryGuard mem tag cursor
    · rw [EntryGuard] at hguard
      rw [if_pos hguard, ih]
      constructor
      · rintro ⟨k, hk, hstop⟩
        exact ⟨k + 1, by omega, hstop⟩
      · rintro ⟨k | k, hk, hstop⟩
        · exact absurd hguard hstop
        · exact ⟨k, by omega, hstop⟩
    · rw [if_neg (by rw [EntryGuard] at hguard; exact hguard)]
      exact iff_of_true rfl ⟨0, Nat.succ_pos fuel, hguard⟩

theorem entryLoop_ends_iff {b : BootInfo} : (entryLoop mem tag b).isSome ↔ ∃ k, ¬Declared mem tag k := by
  rw [entryLoop, bootinfoEntryLoop_isSome_iff]
  constructor
  · rintro ⟨k, _, hstop⟩
    rw [iterate_add_word] at hstop
    exact ⟨k, fun hall => hstop (hall k le_rfl)⟩
  · rintro ⟨k, hk⟩
    obtain ⟨i, hi, hstop⟩ : ∃ i ≤ k, ¬EntryGuard mem tag (entryAt mem tag i) := by
      simpa [Declared] using hk
    rw [entryAt, ← iterate_add_word] at hstop
    obtain ⟨m, hm, _, heq⟩ := iterate_early (· + tagEntrySize mem tag) (tag + 16) i
    exact ⟨m, hm, by rwa [heq]⟩

theorem bootinfoEntryLoop_more {entrySize tagEnd : UInt32} {fuel more : Nat} {cursor : UInt32}
    {b c : BootInfo} (h : bootinfoEntryLoop mem entrySize tagEnd fuel cursor b = some c)
    (hle : fuel ≤ more) :
    bootinfoEntryLoop mem entrySize tagEnd more cursor b = some c := by
  induction fuel generalizing more cursor b with
  | zero => simp [bootinfoEntryLoop] at h
  | succ fuel ih =>
    obtain ⟨more, rfl⟩ := Nat.exists_eq_add_of_le' (Nat.le_trans (Nat.succ_pos fuel) hle)
    rw [bootinfoEntryLoop] at h ⊢
    split at h
    · rename_i hguard
      rw [if_pos hguard]
      exact ih h (by omega)
    · rename_i hguard
      rw [if_neg hguard]
      exact h

theorem bootinfoEntryLoop_rounds (hrounds : UInt32.size ≤ rounds) (b : BootInfo) :
    bootinfoEntryLoop mem (tagEntrySize mem tag) (tag + tagSize mem tag) rounds (tag + 16) b =
      entryLoop mem tag b := by
  cases hloop : entryLoop mem tag b with
  | some c => exact bootinfoEntryLoop_more hloop hrounds
  | none =>
    rw [← Option.not_isSome_iff_eq_none, bootinfoEntryLoop_isSome_iff]
    rintro ⟨k, _, hstop⟩
    rw [iterate_add_word] at hstop
    have hends : (entryLoop mem tag b).isSome :=
      entryLoop_ends_iff.mpr ⟨k, fun hall => hstop (hall k le_rfl)⟩
    rw [hloop] at hends
    cases hends

theorem bootinfoMapLoads_run (hrounds : UInt32.size ≤ rounds) (b : BootInfo) :
    (bootinfoMapLoads rounds tag (tagType mem tag) b).run mem =
      if HasEntries mem tag then entryLoop mem tag b else some b := by
  rw [bootinfoMapLoads]
  by_cases hmmap : tagType mem tag = multibootTagTypeMmap
  · rw [if_pos hmmap, run_bind, tagEntrySize_run]
    by_cases hlarge : tagEntrySize mem tag ≥ 24
    · rw [if_pos hlarge, if_pos ⟨hmmap, hlarge⟩, run_bind, tagSize_run, bootinfoEntryLoopLoads_run,
        bootinfoEntryLoop_rounds hrounds]
    · rw [if_neg hlarge, if_neg fun hmap => hlarge hmap.2, run_pure]
  · rw [if_neg hmmap, if_neg fun hmap => hmmap hmap.1, run_pure]

theorem bootinfoTagLoopLoads_run (hrounds : UInt32.size ≤ rounds) (infoEnd : UInt32)
    (fuel : Nat) (b : BootInfo) :
    (bootinfoTagLoopLoads infoEnd rounds fuel tag b).run mem = bootinfoTagLoop mem infoEnd fuel tag b := by
  induction fuel generalizing tag b with
  | zero => rfl
  | succ fuel ih =>
    rw [bootinfoTagLoopLoads, bootinfoTagLoop_succ]
    by_cases hfits : tag + 8 ≤ infoEnd
    · rw [if_pos hfits, if_pos hfits, run_bind, tagType_run]
      by_cases hend : tagType mem tag = multibootTagTypeEnd
      · rw [if_pos hend, if_pos hend, run_pure]
      · rw [if_neg hend, if_neg hend, run_bind, bootinfoMapLoads_run hrounds]
        cases (if HasEntries mem tag then entryLoop mem tag b else some b) with
        | none => rfl
        | some c =>
          dsimp only [Option.bind_some]
          rw [run_bind, tagSize_run]
          by_cases hsmall : tagSize mem tag < 8
          · rw [if_pos hsmall, if_pos hsmall, run_pure]
          · rw [if_neg hsmall, if_neg hsmall]
            exact ih c
    · rw [if_neg hfits, if_neg hfits, run_pure]

/-- The loads are those of the model: with its numbers of rounds, or with more, they give its results. -/
theorem bootinfoInitLoads_run (magic address : UInt32) :
    (bootinfoInitLoads UInt32.size magic address).run mem = bootinfoInit mem magic address := by
  rw [bootinfoInitLoads, bootinfoInit]
  by_cases hvalid : magic ≠ multiboot2Magic ∨ address = 0
  · rw [if_pos hvalid, if_pos hvalid, run_pure]
  rw [if_neg hvalid, if_neg hvalid, run_bind, run_load32]
  dsimp only
  by_cases hsize : mem.load32 address < 8
  · rw [if_pos hsize, if_pos hsize, run_pure]
  · rw [if_neg hsize, if_neg hsize, run_bind, bootinfoTagLoopLoads_run le_rfl, run_pure]

end

/-! ### The words of the tags and entries -/

section
variable (mem : Mem) (Inside : UInt32 → Prop)

/-- The words of an entry that are looked at with `b` in the table: none when the table is full, and nothing
behind the field that drops the entry. -/
structure EntryInside (entry : UInt32) (b : BootInfo) : Prop where
  len : b.memoryRanges.length < maxMemoryRanges → Inside (entry + 8) ∧ Inside (entry + 12)
  addr : b.memoryRanges.length < maxMemoryRanges → (mmapEntryAt mem entry).len ≠ 0 →
    Inside entry ∧ Inside (entry + 4)
  type : b.memoryRanges.length < maxMemoryRanges → (mmapEntryAt mem entry).len ≠ 0 →
    (mmapEntryAt mem entry).addr < 0x100000000 →
    rangeLength (mmapEntryAt mem entry).addr (mmapEntryAt mem entry).len ≠ 0 → Inside (entry + 16)

def entryRound (tag : UInt32) (x : UInt32 × BootInfo) : UInt32 × BootInfo :=
  (x.1 + tagEntrySize mem tag, bootinfoStoreMemoryRange x.2 (mmapEntryAt mem x.1))

def EntryArrives (tag : UInt32) : UInt32 × BootInfo → Nat → Prop :=
  Arrives (fun x => EntryGuard mem tag x.1) (fun _ => True) (entryRound mem tag)

/-- The words of a tag that are looked at, with the entries that the loop over them comes to. -/
structure TagInside (tag : UInt32) (b : BootInfo) : Prop where
  type : Inside tag
  size : tagType mem tag ≠ multibootTagTypeEnd → Inside (tag + 4)
  entrySize : tagType mem tag = multibootTagTypeMmap → Inside (tag + 8)
  entries : HasEntries mem tag → ∀ k, EntryArrives mem tag (tag + 16, b) k →
    EntryInside mem Inside ((entryRound mem tag)^[k] (tag + 16, b)).1
      ((entryRound mem tag)^[k] (tag + 16, b)).2

def tagRound (x : UInt32 × BootInfo) : UInt32 × BootInfo :=
  (nextTag mem x.1, ((if HasEntries mem x.1 then entryLoop mem x.1 x.2 else some x.2).getD x.2))

def GoesOn (x : UInt32 × BootInfo) : Prop :=
  tagType mem x.1 ≠ multibootTagTypeEnd ∧ (HasEntries mem x.1 → (entryLoop mem x.1 x.2).isSome) ∧
    ¬tagSize mem x.1 < 8

def firstTag (address : UInt32) : UInt32 × BootInfo :=
  (address + 8, { bootinfoReset with infoAddress := address, infoSize := mem.load32 address })

def TagArrives (infoEnd : UInt32) : UInt32 × BootInfo → Nat → Prop :=
  Arrives (fun x => x.1 + 8 ≤ infoEnd) (GoesOn mem) (tagRound mem)

end

section
variable {mem : Mem} {tag : UInt32} {Inside : UInt32 → Prop}
variable {b : BootInfo}

theorem load64_readsIn {address : UInt32} :
    (load64 address).ReadsIn Inside mem ↔ Inside address ∧ Inside (address + 4) := by
  simp [load64]

theorem bootinfoStoreMemoryRangeLoads_readsIn {entry : UInt32} :
    (bootinfoStoreMemoryRangeLoads b entry).ReadsIn Inside mem ↔ EntryInside mem Inside entry b := by
  have hlen : (load64 (entry + 8)).run mem = (mmapEntryAt mem entry).len := by
    rw [load64_run, entry_word, mmapEntryAt]
  have haddr : (load64 entry).run mem = (mmapEntryAt mem entry).addr := load64_run entry
  have hroom : ¬b.memoryRanges.length ≥ maxMemoryRanges ↔ b.memoryRanges.length < maxMemoryRanges :=
    Nat.not_le
  have hlow : ¬(mmapEntryAt mem entry).addr ≥ 0x100000000 ↔ (mmapEntryAt mem entry).addr < 0x100000000 :=
    UInt64.not_le
  simp only [bootinfoStoreMemoryRangeLoads, readsIn_ite, readsIn_bind, readsIn_pure, readsIn_load32,
    load64_readsIn, hlen, haddr, entry_word, hroom, hlow, implies_true, true_and, and_true]
  constructor
  · intro h
    exact ⟨fun hr => (h hr).1, fun hr hl => ((h hr).2 hl).1, fun hr hl ha hz => ((h hr).2 hl).2 ha hz⟩
  · intro h hr
    exact ⟨h.len hr, fun hl => ⟨h.addr hr hl, fun ha hz => h.type hr hl ha hz⟩⟩

theorem bootinfoEntryLoopLoads_readsIn {fuel : Nat} {cursor : UInt32} :
    (bootinfoEntryLoopLoads (tagEntrySize mem tag) (tag + tagSize mem tag) fuel cursor b).ReadsIn
      Inside mem ↔ ∀ k < fuel, EntryArrives mem tag (cursor, b) k →
        EntryInside mem Inside ((entryRound mem tag)^[k] (cursor, b)).1
          ((entryRound mem tag)^[k] (cursor, b)).2 := by
  induction fuel generalizing cursor b with
  | zero => simp [bootinfoEntryLoopLoads]
  | succ fuel ih =>
    rw [bootinfoEntryLoopLoads, readsIn_ite, readsIn_bind, bootinfoStoreMemoryRangeLoads_readsIn,
      bootinfoStoreMemoryRangeLoads_run, ih]
    simp only [readsIn_pure, implies_true, and_true]
    refine Iff.trans ?_ (forall_arrives_succ (Q := fun x : UInt32 × BootInfo =>
      EntryInside mem Inside x.1 x.2)).symm
    simp only [true_imp_iff]
    rfl

theorem bootinfoMapLoads_readsIn {rounds : Nat} :
    (bootinfoMapLoads rounds tag (tagType mem tag) b).ReadsIn Inside mem ↔
      (tagType mem tag = multibootTagTypeMmap → Inside (tag + 8)) ∧
        (HasEntries mem tag → Inside (tag + 4) ∧ ∀ k < rounds, EntryArrives mem tag (tag + 16, b) k →
          EntryInside mem Inside ((entryRound mem tag)^[k] (tag + 16, b)).1
            ((entryRound mem tag)^[k] (tag + 16, b)).2) := by
  rw [bootinfoMapLoads, readsIn_ite, readsIn_bind, readsIn_load32, tagEntrySize_run, readsIn_ite,
    readsIn_bind, readsIn_load32, tagSize_run, bootinfoEntryLoopLoads_readsIn]
  simp only [readsIn_pure, implies_true, and_true, HasEntries, and_imp, imp_and]

/-- What the round of the loop over the tags loads, when the loop over the entries gets `rounds` rounds. -/
structure TagReads (mem : Mem) (Inside : UInt32 → Prop) (rounds : Nat) (x : UInt32 × BootInfo) : Prop where
  type : Inside x.1
  size : tagType mem x.1 ≠ multibootTagTypeEnd → Inside (x.1 + 4)
  map : tagType mem x.1 ≠ multibootTagTypeEnd →
    (bootinfoMapLoads rounds x.1 (tagType mem x.1) x.2).ReadsIn Inside mem

theorem bootinfoTagLoopLoads_readsIn {infoEnd : UInt32} {rounds fuel : Nat}
    (hrounds : UInt32.size ≤ rounds) :
    (bootinfoTagLoopLoads infoEnd rounds fuel tag b).ReadsIn Inside mem ↔
      ∀ n < fuel, TagArrives mem infoEnd (tag, b) n →
        TagReads mem Inside rounds ((tagRound mem)^[n] (tag, b)) := by
  induction fuel generalizing tag b with
  | zero => simp [bootinfoTagLoopLoads]
  | succ fuel ih =>
    refine Iff.trans ?_ (forall_arrives_succ (Q := fun x : UInt32 × BootInfo =>
      TagReads mem Inside rounds x)).symm
    rw [bootinfoTagLoopLoads, readsIn_ite, readsIn_bind, readsIn_load32, tagType_run]
    simp only [readsIn_pure, implies_true, and_true]
    refine imp_congr_right fun hfits => ?_
    by_cases hend : tagType mem tag = multibootTagTypeEnd
    · rw [if_pos hend]
      constructor
      · rintro ⟨htype, _⟩
        exact ⟨⟨htype, fun h => absurd hend h, fun h => absurd hend h⟩, fun hgo => absurd hend hgo.1⟩
      · rintro ⟨h, _⟩
        exact ⟨h.type, readsIn_pure _⟩
    rw [if_neg hend, readsIn_bind, bootinfoMapLoads_run hrounds]
    have hwords : TagReads mem Inside rounds (tag, b) ↔ Inside tag ∧ Inside (tag + 4) ∧
        (bootinfoMapLoads rounds tag (tagType mem tag) b).ReadsIn Inside mem :=
      ⟨fun h => ⟨h.type, h.size hend, h.map hend⟩, fun h => ⟨h.1, fun _ => h.2.1, fun _ => h.2.2⟩⟩
    rw [hwords]
    -- the size is loaded before the entries, and again behind them when the loop over them ends
    cases hstored : (if HasEntries mem tag then entryLoop mem tag b else some b) with
    | none =>
      obtain ⟨hmap, hnone⟩ : HasEntries mem tag ∧ entryLoop mem tag b = none := by
        by_cases hmap : HasEntries mem tag
        · rw [if_pos hmap] at hstored
          exact ⟨hmap, hstored⟩
        · rw [if_neg hmap] at hstored
          cases hstored
      have hstays : ¬GoesOn mem (tag, b) := by
        intro hgo
        have hends := hgo.2.1 hmap
        rw [hnone] at hends
        cases hends
      have hsize : (bootinfoMapLoads rounds tag (tagType mem tag) b).ReadsIn Inside mem →
          Inside (tag + 4) :=
        fun h => (bootinfoMapLoads_readsIn.mp h).2 hmap |>.1
      constructor
      · rintro ⟨htype, hreads, _⟩
        exact ⟨⟨htype, hsize hreads, hreads⟩, fun hgo => absurd hgo hstays⟩
      · rintro ⟨⟨htype, _, hreads⟩, _⟩
        exact ⟨htype, hreads, readsIn_pure _⟩
    | some c =>
      have hround : tagRound mem (tag, b) = (nextTag mem tag, c) := by
        rw [tagRound, hstored, Option.getD_some]
      have hends : HasEntries mem tag → (entryLoop mem tag b).isSome := by
        intro hmap
        rw [if_pos hmap] at hstored
        rw [hstored, Option.isSome_some]
      have hgoes : GoesOn mem (tag, b) ↔ ¬tagSize mem tag < 8 :=
        ⟨fun hgo => hgo.2.2, fun hlarge => ⟨hend, hends, hlarge⟩⟩
      dsimp only
      rw [readsIn_bind, readsIn_load32, tagSize_run, readsIn_ite, hgoes, hround]
      rw [show bootinfoAlignUp (tag + tagSize mem tag) 8 = nextTag mem tag from rfl, ih]
      simp only [readsIn_pure, implies_true, true_and]
      constructor
      · rintro ⟨htype, hreads, hsize, hrest⟩
        exact ⟨⟨htype, hsize, hreads⟩, hrest⟩
      · rintro ⟨⟨htype, hsize, hreads⟩, hrest⟩
        exact ⟨htype, hreads, hsize, hrest⟩

theorem TagInside.tagReads (h : TagInside mem Inside tag b) (rounds : Nat) :
    TagReads mem Inside rounds (tag, b) := by
  refine ⟨h.type, h.size, fun hend => bootinfoMapLoads_readsIn.mpr ⟨h.entrySize, ?_⟩⟩
  intro hentries
  exact ⟨h.size hend, fun k _ => h.entries hentries k⟩

theorem tagInside_of_tagReads (h : ∀ k, ∃ rounds, k < rounds ∧ TagReads mem Inside rounds (tag, b)) :
    TagInside mem Inside tag b := by
  have hmap : tagType mem tag = multibootTagTypeMmap → tagType mem tag ≠ multibootTagTypeEnd := by
    intro hmmap
    rw [hmmap]
    decide
  obtain ⟨_, _, hreads⟩ := h 0
  refine ⟨hreads.type, hreads.size, ?_, ?_⟩
  · intro hmmap
    exact (bootinfoMapLoads_readsIn.mp (hreads.map (hmap hmmap))).1 hmmap
  · intro hentries k
    obtain ⟨_, hk, hmore⟩ := h k
    exact ((bootinfoMapLoads_readsIn.mp (hmore.map (hmap hentries.1))).2 hentries).2 k hk

end

/-! ### Locality -/

/-- The bytes lie in the block of `size` bytes at `address`. -/
def InBlock (address size a : UInt32) (bytes : Nat) : Prop :=
  address.toNat ≤ a.toNat ∧ a.toNat + bytes ≤ address.toNat + size.toNat

instance (address size a : UInt32) (bytes : Nat) : Decidable (InBlock address size a bytes) :=
  inferInstanceAs (Decidable (_ ∧ _))

/-- The two memories hold the same block: its size and all its bytes. -/
structure AgreeOnBlock (mem mem' : Mem) (address : UInt32) : Prop where
  size : mem'.load32 address = mem.load32 address
  bytes : ∀ a : UInt32, InBlock address (mem.load32 address) a 1 → mem' a = mem a

/-- Behind the size of the block, no word of a tag or an entry is read outside the block, however
many rounds the loops take; and the block alone decides what `bootinfo_init` leaves. -/
structure WalkLocal (mem : Mem) (magic address : UInt32) : Prop where
  reads : ∀ rounds, UInt32.size ≤ rounds →
    (bootinfoInitLoads rounds magic address).ReadsIn
      (fun a => a = address ∨ InBlock address (mem.load32 address) a 4) mem
  same : ∀ mem', AgreeOnBlock mem mem' address →
    bootinfoInit mem' magic address = bootinfoInit mem magic address

/-- Every tag that the walk comes to lies in the block, as far as it is looked at, with its entries. -/
def TagsInside (mem : Mem) (magic address : UInt32) : Prop :=
  magic = multiboot2Magic → address ≠ 0 → 8 ≤ mem.load32 address →
    ∀ n, TagArrives mem (address + mem.load32 address) (firstTag mem address) n →
      TagInside mem (fun a => InBlock address (mem.load32 address) a 4)
        ((tagRound mem)^[n] (firstTag mem address)).1 ((tagRound mem)^[n] (firstTag mem address)).2

section
variable {mem : Mem} {magic address : UInt32}

theorem AgreeOnBlock.load32 {mem' : Mem} (h : AgreeOnBlock mem mem' address)
    (hwrap : address.toNat + (mem.load32 address).toNat ≤ 2 ^ 32) {a : UInt32}
    (hin : InBlock address (mem.load32 address) a 4) : mem'.load32 a = mem.load32 a := by
  apply Mem.load32_congr
  intro i hi
  apply h.bytes
  unfold InBlock at hin ⊢
  rw [UInt32.toNat_add]
  omega

theorem bootinfoInitLoads_readsIn {Inside : UInt32 → Prop} {rounds : Nat} (hrounds : UInt32.size ≤ rounds)
    (hheader : Inside address) :
    (bootinfoInitLoads rounds magic address).ReadsIn Inside mem ↔
      (magic = multiboot2Magic → address ≠ 0 → 8 ≤ mem.load32 address →
        ∀ n < rounds, TagArrives mem (address + mem.load32 address) (firstTag mem address) n →
          TagReads mem Inside rounds ((tagRound mem)^[n] (firstTag mem address))) := by
  rw [bootinfoInitLoads, readsIn_ite, readsIn_bind, readsIn_load32, run_load32, readsIn_ite, readsIn_bind,
    bootinfoTagLoopLoads_readsIn hrounds]
  simp only [readsIn_pure, implies_true, true_and, and_true, hheader, not_or, not_not, and_imp,
    UInt32.not_lt]
  rfl

theorem walkReads_iff :
    (∀ rounds, UInt32.size ≤ rounds → (bootinfoInitLoads rounds magic address).ReadsIn
        (fun a => a = address ∨ InBlock address (mem.load32 address) a 4) mem) ↔
      TagsInside mem magic address := by
  have hword : 8 ≤ mem.load32 address → ∀ a : UInt32,
      (a = address ∨ InBlock address (mem.load32 address) a 4) ↔
      InBlock address (mem.load32 address) a 4 := by
    intro hsize a
    rw [UInt32.le_iff_toNat_le] at hsize
    refine ⟨?_, Or.inr⟩
    rintro (rfl | hin)
    · exact ⟨le_rfl, by change 8 ≤ _ at hsize; omega⟩
    · exact hin
  constructor
  · intro h hmagic haddress hsize n harrive
    have hreads := fun rounds hrounds =>
      (bootinfoInitLoads_readsIn hrounds (Or.inl rfl)).mp (h rounds hrounds)
      hmagic haddress hsize n
    simp only [hword hsize] at hreads
    apply tagInside_of_tagReads
    intro k
    exact ⟨UInt32.size + n + k + 1, by omega, hreads _ (by omega) (by omega) harrive⟩
  · intro h rounds hrounds
    rw [bootinfoInitLoads_readsIn hrounds (Or.inl rfl)]
    intro hmagic haddress hsize n _ harrive
    simp only [hword hsize]
    exact (h hmagic haddress hsize n harrive).tagReads rounds

end

/-- For a block that does not wrap, the walk is local exactly when the tags and the entries that it comes to
lie in the block. -/
theorem walk_local_iff (mem : Mem) (magic address : UInt32)
    (hwrap : address.toNat + (mem.load32 address).toNat ≤ 2 ^ 32) :
    WalkLocal mem magic address ↔ TagsInside mem magic address := by
  rw [← walkReads_iff]
  refine ⟨fun h => h.reads, fun h => ⟨h, ?_⟩⟩
  intro mem' hagree
  rw [← bootinfoInitLoads_run, ← bootinfoInitLoads_run]
  apply run_congr
  intro a ha
  rcases h UInt32.size le_rfl a ha with rfl | hin
  · exact hagree.size
  · exact hagree.load32 hwrap hin

def zeroMem : Mem := fun _ => 0

/-- A block with a memory map of one entry and the end tag behind it. -/
def sampleBlock : Mem :=
  ((((((((zeroMem.store32 0x1000 56).store32 0x1008 6).store32 0x100C 40).store32 0x1010 24).store32
    0x1018 0x100000).store32 0x1020 0x100000).store32 0x1028 1).store32 0x1034 8)

theorem sampleBlock_tagsInside : TagsInside sampleBlock multiboot2Magic 0x1000 := by
  have hsize : sampleBlock.load32 0x1000 = 56 := by decide +kernel
  have hfirst : tagRound sampleBlock (firstTag sampleBlock 0x1000) =
      (0x1030, { bootinfoReset with
        infoAddress := 0x1000, infoSize := 56, memoryRanges := [⟨0x100000, 0x100000, 1⟩],
        usableMemoryBytes := 0x100000, highestUsableAddress := 0x1FFFFF }) := by decide +kernel
  have hmap : ¬EntryGuard sampleBlock 0x1008 (0x1018 + 24) := by decide +kernel
  have hend : tagType sampleBlock 0x1030 = multibootTagTypeEnd := by decide +kernel
  rintro _ _ _ (_ | _ | n) harrive
  · rw [hsize]
    refine ⟨by decide +kernel, by decide +kernel, by decide +kernel, ?_⟩
    rintro _ (_ | k) hentry
    · exact ⟨by decide +kernel, by decide +kernel, by decide +kernel⟩
    · exact absurd ((arrives_succ.mp hentry).2.2.1 0 (Nat.zero_le _)) hmap
  · have hmmap : tagType sampleBlock 0x1030 ≠ multibootTagTypeMmap := by decide +kernel
    rw [hsize, Function.iterate_one, hfirst]
    exact ⟨by decide +kernel, fun hne => absurd hend hne, fun htype => absurd htype hmmap,
      fun hentries => absurd hentries.1 hmmap⟩
  · have hgo := (arrives_succ.mp (arrives_succ.mp harrive).2.2).2.1
    rw [hfirst] at hgo
    exact absurd hend hgo.1

theorem walk_local_sample :
    TagsInside sampleBlock multiboot2Magic 0x1000 ∧ WalkLocal sampleBlock multiboot2Magic 0x1000 := by
  exact ⟨sampleBlock_tagsInside,
    (walk_local_iff sampleBlock multiboot2Magic 0x1000 (by decide +kernel)).mpr sampleBlock_tagsInside⟩

/-- The block ends behind the header of its memory map, whose size declares one entry more. -/
def truncatedBlock : Mem :=
  (((zeroMem.store32 0x1000 24).store32 0x1008 6).store32 0x100C 40).store32 0x1010 24

def truncatedBlockWithEntry : Mem :=
  ((truncatedBlock.store32 0x1018 0x100000).store32 0x1020 0x100000).store32 0x1028 1

theorem truncated_block_reads_behind :
    (0x1000 : UInt32).toNat + (truncatedBlock.load32 0x1000).toNat ≤ 2 ^ 32 ∧
      AgreeOnBlock truncatedBlock truncatedBlockWithEntry 0x1000 ∧
      bootinfoInit truncatedBlockWithEntry multiboot2Magic 0x1000 ≠
        bootinfoInit truncatedBlock multiboot2Magic 0x1000 := by
  refine ⟨by decide +kernel, ⟨by decide +kernel, ?_⟩, by decide +kernel⟩
  have hsize : (truncatedBlock.load32 0x1000).toNat = 24 := by decide +kernel
  rintro a ⟨hlow, hhigh⟩
  rw [hsize] at hhigh
  have hstart : (0x1000 : UInt32).toNat = 0x1000 := rfl
  have hfar : ∀ x : UInt32, 0x1018 ≤ x.toNat → x.toNat ≤ 0x1028 → 4 ≤ (a - x).toNat := by
    intro x hx hx'
    rw [UInt32.toNat_sub]
    omega
  rw [truncatedBlockWithEntry, Mem.store32_far _ _ _ _ (hfar 0x1028 (by decide) (by decide)),
    Mem.store32_far _ _ _ _ (hfar 0x1020 (by decide) (by decide)),
    Mem.store32_far _ _ _ _ (hfar 0x1018 (by decide) (by decide))]

end TermobKernel.Boot

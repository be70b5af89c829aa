import TermobKernel.Library.Memory

/-!
# Boot information

`core/bootinfo.c`: the walk over the multiboot block and the table of memory ranges it leaves. Tags and
entries are read from the byte memory; pointers are 32-bit addresses, and a sum of addresses wraps. The two
loops get `2 ^ 32` rounds each, more than there are addresses, so that `none` means that the loop of the
code never ends: whether it goes on depends on the cursor alone.
-/

namespace TermobKernel.Boot

variable {mem : Mem}

def multiboot2Magic : UInt32 := 0x36D76289
def memoryTypeAvailable : UInt32 := 1
def maxMemoryRanges : Nat := 64
def multibootTagTypeEnd : UInt32 := 0
def multibootTagTypeMmap : UInt32 := 6

structure MemoryRange where
  baseAddr : UInt32
  length : UInt32
  type : UInt32
  deriving DecidableEq, Repr

structure MmapEntry where
  addr : UInt64
  len : UInt64
  type : UInt32
  deriving DecidableEq, Repr

/-- The static variables of the file. The table of ranges is its used part, so that its length is
`bootinfo_memory_range_count_value`. -/
structure BootInfo where
  ready : Bool
  infoAddress : UInt32
  infoSize : UInt32
  memoryRanges : List MemoryRange
  usableMemoryBytes : UInt32
  highestUsableAddress : UInt32
  deriving DecidableEq, Repr

def bootinfoAlignUp (value alignment : UInt32) : UInt32 := (value + (alignment - 1)) &&& ~~~(alignment - 1)

def bootinfoReset : BootInfo := ⟨false, 0, 0, [], 0, 0⟩

/-- What `bootinfo_store_memory_range` adds up over the ranges of type `AVAILABLE`. -/
def bootinfoCountAvailable (b : BootInfo) (length : UInt32) (cappedEndAddress : UInt64) : BootInfo :=
  { b with
    usableMemoryBytes :=
      if b.usableMemoryBytes > 0xFFFFFFFF - length then 0xFFFFFFFF else b.usableMemoryBytes + length
    highestUsableAddress :=
      if (cappedEndAddress - 1).toUInt32 > b.highestUsableAddress then (cappedEndAddress - 1).toUInt32
      else b.highestUsableAddress }

def bootinfoStoreMemoryRange (b : BootInfo) (entry : MmapEntry) : BootInfo :=
  if b.memoryRanges.length ≥ maxMemoryRanges then b
  else if entry.len = 0 ∨ entry.addr ≥ 0x100000000 then b
  else
    let endAddress := entry.addr + entry.len
    let cappedEndAddress :=
      if endAddress < entry.addr ∨ endAddress > 0x100000000 then 0x100000000 else endAddress
    let baseAddr := entry.addr.toUInt32
    let length := (cappedEndAddress - entry.addr).toUInt32
    if length = 0 then b
    else
      let b := { b with memoryRanges := b.memoryRanges ++ [⟨baseAddr, length, entry.type⟩] }
      if entry.type = memoryTypeAvailable then bootinfoCountAvailable b length cappedEndAddress else b

def mmapEntryAt (mem : Mem) (cursor : UInt32) : MmapEntry where
  addr := (mem.load32 cursor).toUInt64 ||| ((mem.load32 (cursor + 4)).toUInt64 <<< 32)
  len := (mem.load32 (cursor + 8)).toUInt64 ||| ((mem.load32 (cursor + 12)).toUInt64 <<< 32)
  type := mem.load32 (cursor + 16)

/-- The loop over the entries of one memory map. -/
def bootinfoEntryLoop (mem : Mem) (entrySize tagEnd : UInt32) : Nat → UInt32 → BootInfo → Option BootInfo
  | 0, _, _ => none
  | fuel + 1, entryCursor, b =>
    if entryCursor + entrySize ≤ tagEnd then
      bootinfoEntryLoop mem entrySize tagEnd fuel (entryCursor + entrySize)
        (bootinfoStoreMemoryRange b (mmapEntryAt mem entryCursor))
    else some b

def bootinfoTagLoop (mem : Mem) (infoEnd : UInt32) : Nat → UInt32 → BootInfo → Option BootInfo
  | 0, _, _ => none
  | fuel + 1, tag, b =>
    if tag + 8 ≤ infoEnd then
      let type := mem.load32 tag
      let size := mem.load32 (tag + 4)
      let entrySize := mem.load32 (tag + 8)
      if type = multibootTagTypeEnd then some b
      else
        match (if type = multibootTagTypeMmap ∧ entrySize ≥ 24 then
            bootinfoEntryLoop mem entrySize (tag + size) UInt32.size (tag + 16) b else some b) with
        | none => none
        | some b =>
          if size < 8 then some b
          else bootinfoTagLoop mem infoEnd fuel (bootinfoAlignUp (tag + size) 8) b
    else some b

def bootinfoInit (mem : Mem) (multibootMagic multibootInfoAddr : UInt32) : Option BootInfo :=
  if multibootMagic ≠ multiboot2Magic ∨ multibootInfoAddr = 0 then some bootinfoReset
  else
    let totalSize := mem.load32 multibootInfoAddr
    if totalSize < 8 then some bootinfoReset
    else
      (bootinfoTagLoop mem (multibootInfoAddr + totalSize) UInt32.size (multibootInfoAddr + 8)
        { bootinfoReset with infoAddress := multibootInfoAddr, infoSize := totalSize }).map
        fun b => if b.memoryRanges.length ≠ 0 then { b with ready := true } else b

/-! ### The stored map -/

/-- The boot information after the given entries were stored, in order. -/
def bootinfoStored (infoAddress infoSize : UInt32) (entries : List MmapEntry) : BootInfo :=
  let b := entries.foldl bootinfoStoreMemoryRange { bootinfoReset with infoAddress, infoSize }
  if b.memoryRanges.length ≠ 0 then { b with ready := true } else b

theorem bootinfoEntryLoop_stores {entrySize tagEnd : UInt32} :
    ∀ {fuel : Nat} {cursor : UInt32} {b b' : BootInfo},
      bootinfoEntryLoop mem entrySize tagEnd fuel cursor b = some b' →
      ∃ entries : List MmapEntry, b' = entries.foldl bootinfoStoreMemoryRange b := by
  intro fuel
  induction fuel with
  | zero =>
    intro cursor b b' h
    simp [bootinfoEntryLoop] at h
  | succ fuel ih =>
    intro cursor b b' h
    rw [bootinfoEntryLoop] at h
    split at h
    · obtain ⟨entries, rfl⟩ := ih h
      exact ⟨mmapEntryAt mem cursor :: entries, rfl⟩
    · obtain rfl := Option.some.inj h
      exact ⟨[], rfl⟩

theorem bootinfoTagLoop_stores {infoEnd : UInt32} :
    ∀ {fuel : Nat} {tag : UInt32} {b b' : BootInfo}, bootinfoTagLoop mem infoEnd fuel tag b = some b' →
      ∃ entries : List MmapEntry, b' = entries.foldl bootinfoStoreMemoryRange b := by
  intro fuel
  induction fuel with
  | zero =>
    intro tag b b' h
    simp [bootinfoTagLoop] at h
  | succ fuel ih =>
    intro tag b b' h
    rw [bootinfoTagLoop] at h
    by_cases hin : tag + 8 ≤ infoEnd
    · rw [if_pos hin] at h
      by_cases hend : mem.load32 tag = multibootTagTypeEnd
      · rw [if_pos hend] at h
        obtain rfl := Option.some.inj h
        exact ⟨[], rfl⟩
      · rw [if_neg hend] at h
        obtain ⟨c, hc⟩ : ∃ c, (if mem.load32 tag = multibootTagTypeMmap ∧ mem.load32 (tag + 8) ≥ 24 then
            bootinfoEntryLoop mem (mem.load32 (tag + 8)) (tag + mem.load32 (tag + 4)) UInt32.size
              (tag + 16) b
            else some b) = some c := by
          revert h
          split
          · intro h
            cases h
          · rename_i c hc
            intro _
            exact ⟨c, hc⟩
        obtain ⟨entries, rfl⟩ : ∃ entries : List MmapEntry,
            c = entries.foldl bootinfoStoreMemoryRange b := by
          split at hc
          · exact bootinfoEntryLoop_stores hc
          · exact ⟨[], (Option.some.inj hc).symm⟩
        simp only [hc] at h
        split at h
        · exact ⟨entries, (Option.some.inj h).symm⟩
        · obtain ⟨more, rfl⟩ := ih h
          exact ⟨entries ++ more, (List.foldl_append).symm⟩
    · rw [if_neg hin] at h
      exact ⟨[], (Option.some.inj h).symm⟩

theorem bootinfoInit_stores {magic address : UInt32} {b : BootInfo}
    (h : bootinfoInit mem magic address = some b) :
    ∃ infoAddress infoSize entries, b = bootinfoStored infoAddress infoSize entries := by
  simp only [bootinfoInit] at h
  split at h
  · exact ⟨0, 0, [], (Option.some.inj h).symm⟩
  · split at h
    · exact ⟨0, 0, [], (Option.some.inj h).symm⟩
    · obtain ⟨c, hc, rfl⟩ := Option.map_eq_some_iff.mp h
      obtain ⟨entries, rfl⟩ := bootinfoTagLoop_stores hc
      exact ⟨address, mem.load32 address, entries, rfl⟩

def MemoryRange.stop (r : MemoryRange) : Nat := r.baseAddr.toNat + r.length.toNat

/-- What holds of the table of ranges at any time: every range is non-empty and ends at 4 GiB at the latest,
there are at most 64, and no range of type `AVAILABLE` ends above the recorded highest address. -/
structure TableOk (b : BootInfo) : Prop where
  count : b.memoryRanges.length ≤ maxMemoryRanges
  range : ∀ r ∈ b.memoryRanges, 0 < r.length.toNat ∧ r.stop ≤ 2 ^ 32
  highest : ∀ r ∈ b.memoryRanges, r.type = memoryTypeAvailable → r.stop ≤ b.highestUsableAddress.toNat + 1

theorem limit_toNat : (0x100000000 : UInt64).toNat = 2 ^ 32 := by decide

theorem toNat_pos {x : UInt64} (h : x ≠ 0) : 0 < x.toNat := by
  rw [Nat.pos_iff_ne_zero, ne_eq, ← UInt64.toNat_zero, UInt64.toNat_inj]
  exact h

theorem cappedEnd_toNat {addr len : UInt64} (hlen : len ≠ 0) (haddr : addr.toNat < 2 ^ 32) :
    (if addr + len < addr ∨ addr + len > 0x100000000 then 0x100000000 else addr + len).toNat =
      min (addr.toNat + len.toNat) (2 ^ 32) := by
  have hl := len.toNat_lt
  have hpos := toNat_pos hlen
  have hsum : (addr + len).toNat = (addr.toNat + len.toNat) % 2 ^ 64 := UInt64.toNat_add addr len
  by_cases hover : addr + len < addr ∨ addr + len > 0x100000000
  · rw [if_pos hover, limit_toNat]
    rw [UInt64.lt_iff_toNat_lt, gt_iff_lt, UInt64.lt_iff_toNat_lt, limit_toNat, hsum] at hover
    omega
  · rw [if_neg hover, hsum]
    rw [UInt64.lt_iff_toNat_lt, gt_iff_lt, UInt64.lt_iff_toNat_lt, limit_toNat, hsum] at hover
    omega

theorem bootinfoCountAvailable_usable (b : BootInfo) (length : UInt32) (cappedEndAddress : UInt64) :
    (bootinfoCountAvailable b length cappedEndAddress).usableMemoryBytes.toNat =
      min (b.usableMemoryBytes.toNat + length.toNat) (2 ^ 32 - 1) := by
  have hlength := length.toNat_lt
  have hroom : (0xFFFFFFFF - length).toNat = 2 ^ 32 - 1 - length.toNat := by
    rw [UInt32.toNat_sub, show (0xFFFFFFFF : UInt32).toNat = 2 ^ 32 - 1 from rfl]
    omega
  unfold bootinfoCountAvailable
  dsimp only
  by_cases hgt : b.usableMemoryBytes > 0xFFFFFFFF - length
  · rw [if_pos hgt]
    rw [gt_iff_lt, UInt32.lt_iff_toNat_lt, hroom] at hgt
    change 2 ^ 32 - 1 = _
    omega
  · rw [if_neg hgt]
    rw [gt_iff_lt, UInt32.lt_iff_toNat_lt, hroom] at hgt
    rw [UInt32.toNat_add]
    omega

theorem bootinfoCountAvailable_highest (b : BootInfo) (length : UInt32) (cappedEndAddress : UInt64) :
    (bootinfoCountAvailable b length cappedEndAddress).highestUsableAddress.toNat =
      max b.highestUsableAddress.toNat (cappedEndAddress - 1).toUInt32.toNat := by
  unfold bootinfoCountAvailable
  dsimp only
  by_cases hgt : (cappedEndAddress - 1).toUInt32 > b.highestUsableAddress
  · rw [if_pos hgt]
    rw [gt_iff_lt, UInt32.lt_iff_toNat_lt] at hgt
    omega
  · rw [if_neg hgt]
    rw [gt_iff_lt, UInt32.lt_iff_toNat_lt] at hgt
    omega

def MmapEntry.MeetsLow (e : MmapEntry) : Prop := 0 < e.len.toNat ∧ e.addr.toNat < 2 ^ 32

def MmapEntry.CoversLow (e : MmapEntry) : Prop := e.addr.toNat = 0 ∧ 2 ^ 32 ≤ e.len.toNat

instance (e : MmapEntry) : Decidable e.MeetsLow := inferInstanceAs (Decidable (_ ∧ _))
instance (e : MmapEntry) : Decidable e.CoversLow := inferInstanceAs (Decidable (_ ∧ _))

/-- The boot information `b'` is `b` with the entry as the range `r` behind the others. -/
structure StoredAs (b : BootInfo) (entry : MmapEntry) (r : MemoryRange) (b' : BootInfo) : Prop where
  base : r.baseAddr.toNat = entry.addr.toNat
  stop : r.stop = min (entry.addr.toNat + entry.len.toNat) (2 ^ 32)
  type : r.type = entry.type
  length : 0 < r.length.toNat
  ranges : b'.memoryRanges = b.memoryRanges ++ [r]
  usable : b'.usableMemoryBytes.toNat =
    if r.type = memoryTypeAvailable then min (b.usableMemoryBytes.toNat + r.length.toNat) (2 ^ 32 - 1)
    else b.usableMemoryBytes.toNat
  highest : b'.highestUsableAddress.toNat =
    if r.type = memoryTypeAvailable then max b.highestUsableAddress.toNat (r.stop - 1)
    else b.highestUsableAddress.toNat

/-- One entry: it is dropped, or the table gets the clipped range at its end. The length of an entry
that covers the low 4 GiB is cut to zero, so that such an entry is dropped too. -/
theorem bootinfoStoreMemoryRange_cases (b : BootInfo) (entry : MmapEntry) :
    (bootinfoStoreMemoryRange b entry = b ∧
        (maxMemoryRanges ≤ b.memoryRanges.length ∨ ¬entry.MeetsLow ∨ entry.CoversLow)) ∨
      (b.memoryRanges.length < maxMemoryRanges ∧ entry.MeetsLow ∧ ¬entry.CoversLow ∧
        ∃ r, StoredAs b entry r (bootinfoStoreMemoryRange b entry)) := by
  unfold bootinfoStoreMemoryRange
  by_cases hfull : b.memoryRanges.length ≥ maxMemoryRanges
  · rw [if_pos hfull]
    exact Or.inl ⟨rfl, Or.inl hfull⟩
  rw [if_neg hfull]
  have hmeets : (entry.len = 0 ∨ entry.addr ≥ 0x100000000) ↔ ¬entry.MeetsLow := by
    unfold MmapEntry.MeetsLow
    rw [ge_iff_le, UInt64.le_iff_toNat_le, limit_toNat, ← UInt64.toNat_inj, UInt64.toNat_zero]
    omega
  by_cases hskip : entry.len = 0 ∨ entry.addr ≥ 0x100000000
  · rw [if_pos hskip]
    exact Or.inl ⟨rfl, Or.inr (Or.inl (hmeets.mp hskip))⟩
  rw [if_neg hskip]
  obtain ⟨hpos, hlow⟩ : entry.MeetsLow := not_not.mp (mt hmeets.mpr hskip)
  have hcap := cappedEnd_toNat (not_or.mp hskip).1 hlow
  simp only at hcap ⊢
  generalize (if entry.addr + entry.len < entry.addr ∨ entry.addr + entry.len > 0x100000000 then 0x100000000
    else entry.addr + entry.len : UInt64) = capped at hcap ⊢
  have hdiff : (capped - entry.addr).toNat = capped.toNat - entry.addr.toNat := by
    have := capped.toNat_lt
    rw [UInt64.toNat_sub]
    omega
  have hcut : (capped - entry.addr).toUInt32.toNat = (capped.toNat - entry.addr.toNat) % 2 ^ 32 := by
    rw [UInt64.toNat_toUInt32, hdiff]
  by_cases hzero : (capped - entry.addr).toUInt32 = 0
  · rw [if_pos hzero]
    rw [← UInt32.toNat_inj, hcut, UInt32.toNat_zero] at hzero
    exact Or.inl ⟨rfl, Or.inr (Or.inr ⟨by omega, by omega⟩)⟩
  rw [if_neg hzero]
  have hlength : (capped - entry.addr).toUInt32.toNat = capped.toNat - entry.addr.toNat := by
    rw [← UInt32.toNat_inj, hcut, UInt32.toNat_zero] at hzero
    omega
  have hbase : entry.addr.toUInt32.toNat = entry.addr.toNat := by
    rw [UInt64.toNat_toUInt32]
    omega
  have hlast : (capped - 1).toUInt32.toNat = capped.toNat - 1 := by
    have hone : (1 : UInt64).toNat = 1 := rfl
    rw [UInt64.toNat_toUInt32, UInt64.toNat_sub, hone]
    omega
  have hstop : entry.addr.toUInt32.toNat + (capped - entry.addr).toUInt32.toNat = capped.toNat := by omega
  refine Or.inr ⟨by omega, ⟨hpos, hlow⟩, ?_, ⟨entry.addr.toUInt32, (capped - entry.addr).toUInt32,
    entry.type⟩, hbase, hstop.trans hcap, rfl, ?_, ?_, ?_, ?_⟩
  · rintro ⟨hfirst, hlong⟩
    rw [← UInt32.toNat_inj, hcut, UInt32.toNat_zero] at hzero
    omega
  · change 0 < (capped - entry.addr).toUInt32.toNat
    omega
  · split
    · rfl
    · rfl
  · split
    · rw [bootinfoCountAvailable_usable]
    · rfl
  · unfold MemoryRange.stop
    split
    · rw [bootinfoCountAvailable_highest, hlast]
      dsimp only
      rw [hstop]
    · rfl

theorem StoredAs.stop_le {b b' : BootInfo} {entry : MmapEntry} {r : MemoryRange}
    (h : StoredAs b entry r b') :
    r.stop ≤ 2 ^ 32 := by
  rw [h.stop]
  exact min_le_right _ _

theorem TableOk.store {b : BootInfo} (h : TableOk b) (entry : MmapEntry) :
    TableOk (bootinfoStoreMemoryRange b entry) := by
  rcases bootinfoStoreMemoryRange_cases b entry with ⟨heq, _⟩ | ⟨hroom, _, _, r, hstored⟩
  · rw [heq]
    exact h
  · have hranges := hstored.ranges
    have hhigh := hstored.highest
    refine ⟨?_, ?_, ?_⟩
    · rw [hranges, List.length_append, List.length_singleton]
      omega
    · intro q hq
      rw [hranges, List.mem_append, List.mem_singleton] at hq
      rcases hq with hq | rfl
      · exact h.range q hq
      · exact ⟨hstored.length, hstored.stop_le⟩
    · intro q hq htype
      rw [hranges, List.mem_append, List.mem_singleton] at hq
      rw [hhigh]
      rcases hq with hq | rfl
      · have := h.highest q hq htype
        split <;> omega
      · rw [if_pos htype]
        omega

theorem TableOk.stores {b : BootInfo} (h : TableOk b) (entries : List MmapEntry) :
    TableOk (entries.foldl bootinfoStoreMemoryRange b) := by
  induction entries generalizing b with
  | nil => exact h
  | cons entry entries ih => exact ih (h.store entry)

theorem bootinfoStored_tableOk (infoAddress infoSize : UInt32) (entries : List MmapEntry) :
    TableOk (bootinfoStored infoAddress infoSize entries) := by
  have hempty : TableOk { bootinfoReset with infoAddress, infoSize } := by
    refine ⟨Nat.zero_le _, ?_, ?_⟩
    · intro r hr
      cases hr
    · intro r hr
      cases hr
  have h := hempty.stores entries
  unfold bootinfoStored
  dsimp only
  split
  · exact ⟨h.count, h.range, h.highest⟩
  · exact h

end TermobKernel.Boot

import TermobKernel.Boot.Info

/-!
# The stored map and the map of the boot loader

`bootinfo_store_memory_range` clips the 64-bit entries of the boot loader to the low 4 GiB and keeps
base and length as 32-bit words. The table that any number of calls leaves is given here in terms of
the entries alone (`stores_ranges`), with the two totals over its ranges (`Tallied`). An entry that
covers the low 4 GiB has no 32-bit length and is missing from the table, which is the only way in
which the table differs from the clipped map.
-/

namespace TermobKernel.Boot

/-! ### Intervals -/

def MemoryRange.interval (r : MemoryRange) : Nat × Nat × UInt32 := (r.baseAddr.toNat, r.stop, r.type)

def MmapEntry.clipped (e : MmapEntry) : Nat × Nat × UInt32 :=
  (e.addr.toNat, min (e.addr.toNat + e.len.toNat) (2 ^ 32), e.type)

def availableRanges (ranges : List MemoryRange) : List MemoryRange :=
  ranges.filter (·.type = memoryTypeAvailable)

def availableBytes (ranges : List MemoryRange) : Nat :=
  ((availableRanges ranges).map (·.length.toNat)).sum

def availableTop (ranges : List MemoryRange) : Nat :=
  ((availableRanges ranges).map (·.stop - 1)).foldl max 0

/-- The table holds the first 64 entries that reach below 4 GiB, clipped and in their order, and the
totals are those of the table. -/
structure ClippedMap (entries : List MmapEntry) (b : BootInfo) : Prop where
  ranges : b.memoryRanges.map MemoryRange.interval =
    ((entries.filter (·.MeetsLow)).take maxMemoryRanges).map MmapEntry.clipped
  usable : b.usableMemoryBytes.toNat = min (availableBytes b.memoryRanges) (2 ^ 32 - 1)
  highest : b.highestUsableAddress.toNat = availableTop b.memoryRanges

/-! ### The totals -/

structure Tallied (b : BootInfo) : Prop where
  usable : b.usableMemoryBytes.toNat = min (availableBytes b.memoryRanges) (2 ^ 32 - 1)
  highest : b.highestUsableAddress.toNat = availableTop b.memoryRanges

theorem availableRanges_snoc (ranges : List MemoryRange) (r : MemoryRange) :
    availableRanges (ranges ++ [r]) =
      if r.type = memoryTypeAvailable then availableRanges ranges ++ [r] else availableRanges ranges := by
  unfold availableRanges
  rw [List.filter_append, List.filter_singleton]
  by_cases htype : r.type = memoryTypeAvailable
  · simp [htype]
  · simp [htype]

theorem Tallied.store {b : BootInfo} (h : Tallied b) (entry : MmapEntry) :
    Tallied (bootinfoStoreMemoryRange b entry) := by
  rcases bootinfoStoreMemoryRange_cases b entry with ⟨heq, _⟩ | ⟨_, _, _, r, hstored⟩
  · rw [heq]
    exact h
  · constructor
    · rw [hstored.usable, hstored.ranges, availableBytes, availableRanges_snoc, h.usable, availableBytes]
      by_cases htype : r.type = memoryTypeAvailable
      · rw [if_pos htype, if_pos htype, List.map_append, List.sum_append, List.map_singleton,
          List.sum_singleton]
        omega
      · rw [if_neg htype, if_neg htype]
    · rw [hstored.highest, hstored.ranges, availableTop, availableRanges_snoc, h.highest, availableTop]
      by_cases htype : r.type = memoryTypeAvailable
      · rw [if_pos htype, if_pos htype, List.map_append, List.foldl_append]
        rfl
      · rw [if_neg htype, if_neg htype]

theorem Tallied.stores {b : BootInfo} (h : Tallied b) (entries : List MmapEntry) :
    Tallied (entries.foldl bootinfoStoreMemoryRange b) := by
  induction entries generalizing b with
  | nil => exact h
  | cons entry entries ih => exact ih (h.store entry)

theorem tallied_reset (infoAddress infoSize : UInt32) :
    Tallied { bootinfoReset with infoAddress, infoSize } := ⟨rfl, rfl⟩

theorem bootinfoStored_ready {infoAddress infoSize : UInt32} {entries : List MmapEntry}
    (h : 0 < (bootinfoStored infoAddress infoSize entries).highestUsableAddress.toNat) :
    (bootinfoStored infoAddress infoSize entries).ready = true := by
  have htotals := (tallied_reset infoAddress infoSize).stores entries
  unfold bootinfoStored at h ⊢
  dsimp only at h ⊢
  generalize entries.foldl bootinfoStoreMemoryRange { bootinfoReset with infoAddress, infoSize } =
    b at htotals h ⊢
  by_cases hany : b.memoryRanges.length ≠ 0
  · rw [if_pos hany]
  · rw [if_neg hany, htotals.highest, List.eq_nil_of_length_eq_zero (not_not.mp hany)] at h
    exact absurd h (Nat.lt_irrefl 0)

/-! ### The table -/

def MmapEntry.Fits (e : MmapEntry) : Prop := e.MeetsLow ∧ ¬e.CoversLow

instance (e : MmapEntry) : Decidable e.Fits := inferInstanceAs (Decidable (_ ∧ _))

theorem stores_ranges {b : BootInfo} (hroom : b.memoryRanges.length ≤ maxMemoryRanges)
    (entries : List MmapEntry) :
    (entries.foldl bootinfoStoreMemoryRange b).memoryRanges.map MemoryRange.interval =
      (b.memoryRanges.map MemoryRange.interval ++ (entries.filter (·.Fits)).map MmapEntry.clipped).take
        maxMemoryRanges := by
  induction entries generalizing b with
  | nil =>
    rw [List.foldl_nil, List.filter_nil, List.map_nil, List.append_nil, List.take_of_length_le]
    rwa [List.length_map]
  | cons entry entries ih =>
    rw [List.foldl_cons]
    rcases bootinfoStoreMemoryRange_cases b entry with
      ⟨heq, hfull | hdrop⟩ | ⟨hfree, hmeets, hcovers, r, hstored⟩
    · -- a full table stays as it is, whatever follows
      have hlen : (b.memoryRanges.map MemoryRange.interval).length = maxMemoryRanges := by
        rw [List.length_map]
        omega
      rw [heq, ih hroom, List.take_left' hlen, List.take_left' hlen]
    · have hnot : ¬entry.Fits := by
        rintro ⟨hmeets, hcovers⟩
        exact hdrop.elim (fun h => h hmeets) hcovers
      rw [heq, ih hroom, List.filter_cons, if_neg (by simpa using hnot)]
    · have hinterval : r.interval = entry.clipped := by
        rw [MemoryRange.interval, MmapEntry.clipped, hstored.base, hstored.stop, hstored.type]
      have hlen : (bootinfoStoreMemoryRange b entry).memoryRanges.length ≤ maxMemoryRanges := by
        rw [hstored.ranges, List.length_append, List.length_singleton]
        omega
      rw [ih hlen, hstored.ranges, List.filter_cons, if_pos (by simpa using ⟨hmeets, hcovers⟩),
        List.map_append,
        List.map_singleton, hinterval, List.map_cons, List.append_assoc, List.singleton_append]

theorem take_filter_of_forall {α : Type*} (p : α → Bool) {l : List α} {n : Nat}
    (h : ∀ x ∈ l.take n, p x = true) :
    (l.filter p).take n = l.take n := by
  induction l generalizing n with
  | nil => rfl
  | cons x l ih =>
    cases n with
    | zero => rfl
    | succ n =>
      rw [List.take_succ_cons] at h
      rw [List.filter_cons, if_pos (h x List.mem_cons_self), List.take_succ_cons, List.take_succ_cons,
        ih fun y hy => h y (List.mem_cons_of_mem _ hy)]

theorem filter_fits (entries : List MmapEntry) :
    entries.filter (·.Fits) = (entries.filter (·.MeetsLow)).filter (¬ ·.CoversLow) := by
  rw [List.filter_filter]
  apply List.filter_congr
  intro e _
  simp [MmapEntry.Fits, and_comm]

/-- For any entries stored after a reset: the table is the clipped map of the boot loader, exactly
when none of the first 64 entries that reach below 4 GiB covers it all. The totals are those of the
table. -/
theorem stored_map_clipped_iff (entries : List MmapEntry) :
    ClippedMap entries (entries.foldl bootinfoStoreMemoryRange bootinfoReset) ↔
      ∀ e ∈ (entries.filter (·.MeetsLow)).take maxMemoryRanges, ¬e.CoversLow := by
  have htable := stores_ranges (b := bootinfoReset) (Nat.zero_le _) entries
  have htotals := (tallied_reset 0 0).stores entries
  change Tallied (entries.foldl bootinfoStoreMemoryRange bootinfoReset) at htotals
  generalize entries.foldl bootinfoStoreMemoryRange bootinfoReset = b at htable htotals ⊢
  constructor
  · intro h e he hcovers
    -- the range that the table would have to hold is longer than any
    have hmem : e.clipped ∈ b.memoryRanges.map MemoryRange.interval := by
      rw [h.ranges]
      exact List.mem_map_of_mem he
    obtain ⟨r, _, hr⟩ := List.mem_map.mp hmem
    have hlength := r.length.toNat_lt
    have hbase : r.baseAddr.toNat = e.addr.toNat := congrArg Prod.fst hr
    have hstop : r.baseAddr.toNat + r.length.toNat = min (e.addr.toNat + e.len.toNat) (2 ^ 32) :=
      congrArg (fun i => i.2.1) hr
    obtain ⟨hfirst, hlong⟩ := hcovers
    omega
  · intro hfit
    refine ⟨?_, htotals.usable, htotals.highest⟩
    rw [htable, List.map_take, filter_fits]
    change (List.map MmapEntry.clipped _).take maxMemoryRanges = _
    rw [← List.map_take, ← List.map_take, take_filter_of_forall]
    intro e he
    simpa using hfit e he

/-- The boot loader reports the low 4 GiB as one available range: the table stays empty. -/
theorem whole_low_range_dropped :
    ¬ClippedMap [⟨0, 0x100000000, 1⟩]
        ([⟨0, 0x100000000, 1⟩].foldl bootinfoStoreMemoryRange bootinfoReset) := by
  intro h
  have hranges := h.ranges
  revert hranges
  decide

end TermobKernel.Boot

import TermobKernel.Fat.Listing

/-!
# Long names

A long name comes in slots, one raw entry each, from the last slot down to the first and then the
short entry. Here the visits of consecutive sectors are read as one sequence of raw entries, and the
collector as an automaton over it. What it holds is the run of slots since the last entry with the
last-flag; whether all slots of the run have come it does not ask when it attaches the name.
-/

namespace TermobKernel.Fat

variable {raw : Buffer} {before : List Buffer} {state : LfnState}

/-! ### Raw entries -/

def entryAt (sector : Buffer) (base : Nat) : Buffer := fun i => sector (base + i)

section raw
variable (raw : Buffer)

/-- Neither the end marker nor a deleted entry, and with the attributes of a long-name slot. -/
def IsLfn : Prop := raw 0 ≠ 0x00 ∧ raw 0 ≠ 0xE5 ∧ raw 11 = fatAttrLfn

def IsShort : Prop := raw 0 ≠ 0x00 ∧ raw 0 ≠ 0xE5 ∧ raw 11 ≠ fatAttrLfn

/-- The slot is the last one of its name, which comes first on the disk. -/
def HasLastFlag : Prop := raw 0 &&& 0x40 ≠ 0

def slotOf : UInt8 := raw 0 &&& 0x1F

def checksumOf : UInt8 := raw 13

/-- The checks on a slot that do not depend on the slots before it. -/
def WellFormedSlot : Prop := raw 12 = 0 ∧ fatReadLe16 raw 26 = 0 ∧ slotOf raw ≠ 0 ∧ slotOf raw ≤ 20

def rawNameOf : List UInt8 := (List.range 11).map raw

instance : Decidable (IsLfn raw) := inferInstanceAs (Decidable (_ ∧ _))
instance : Decidable (IsShort raw) := inferInstanceAs (Decidable (_ ∧ _))
instance : Decidable (HasLastFlag raw) := inferInstanceAs (Decidable (_ ≠ _))
instance : Decidable (WellFormedSlot raw) := inferInstanceAs (Decidable (_ ∧ _))

end raw

def lfnAfter (state : LfnState) (raw : Buffer) : LfnState :=
  if IsLfn raw then (fatLfnCollect state raw 0).2 else fatLfnReset

def lfnStateAfter (fed : List Buffer) : LfnState := fed.foldl lfnAfter fatLfnReset

def reportedFor (fs : FatFs) (state : LfnState) (raw : Buffer) : Option Dirent :=
  if raw 0 = 0x00 then none
  else if raw 0 = 0xE5 then some (fatDirentFromRaw raw 0)
  else if raw 11 = fatAttrLfn then none
  else some (fatShortDirent fs raw 0 state)

/-- A reported entry, with its raw entry and the raw entries before that one. -/
structure Report where
  before : List Buffer
  raw : Buffer
  dirent : Dirent

def reportsAfter (fs : FatFs) : List Buffer → List Buffer → List Report
  | _, [] => []
  | before, raw :: rest =>
    ((reportedFor fs (lfnStateAfter before) raw).map fun e => ⟨before, raw, e⟩).toList ++
      reportsAfter fs (before ++ [raw]) rest

def fedEntries (sector : Buffer) : Nat → Nat → List Buffer
  | 0, _ => []
  | count + 1, base =>
    entryAt sector base :: if sector base = 0x00 then [] else fedEntries sector count
      (base + fatDirEntrySize)

theorem fedEntries_cons (sector : Buffer) (count base : Nat) (h : sector base ≠ 0x00) :
    fedEntries sector (count + 1) base = entryAt sector base ::
        fedEntries sector count (base + fatDirEntrySize) := by
  rw [fedEntries, if_neg h]

def fed (fs : FatFs) (sectors : List Buffer) : List Buffer :=
  sectors.flatMap fun sector => fedEntries sector ((fs.bytesPerSector.toNat + 31) / 32) 0

/-- `fat_visit_sector_entries` on one sector after the other, with one long-name state. -/
def visitSectors (fs : FatFs) (sectors : List Buffer) : LfnState × List Dirent :=
  sectors.foldl
    (fun (state, seen) sector =>
      ((fatVisitSectorEntries fs sector state collect seen).1,
        (fatVisitSectorEntries fs sector state collect seen).2.1))
    (fatLfnReset, [])

/-! ### The visits as one sequence -/

theorem fatLfnCollect_entryAt (state : LfnState) (sector : Buffer) (base : Nat) :
    fatLfnCollect state sector base = fatLfnCollect state (entryAt sector base) 0 := by
  unfold fatLfnCollect
  simp only [fatReadLe16, entryAt, Nat.zero_add, Nat.add_zero, Nat.add_assoc]

theorem fatDirentFromRaw_entryAt (sector : Buffer) (base : Nat) :
    fatDirentFromRaw sector base = fatDirentFromRaw (entryAt sector base) 0 := by
  unfold fatDirentFromRaw
  simp only [fatReadLe16, fatReadLe32, entryAt, Nat.zero_add, Nat.add_zero, Nat.add_assoc]

theorem fatShortDirent_entryAt (fs : FatFs) (sector : Buffer) (base : Nat) (state : LfnState) :
    fatShortDirent fs sector base state = fatShortDirent fs (entryAt sector base) 0 state := by
  unfold fatShortDirent
  rw [fatDirentFromRaw_entryAt]

theorem reportsAfter_append (fs : FatFs) (before es es' : List Buffer) :
    reportsAfter fs before (es ++ es') = reportsAfter fs before es ++
        reportsAfter fs (before ++ es) es' := by
  induction es generalizing before with
  | nil => simp [reportsAfter]
  | cons raw es ih => simp [reportsAfter, ih]

theorem lfnStateAfter_append (fed es : List Buffer) :
    lfnStateAfter (fed ++ es) = es.foldl lfnAfter (lfnStateAfter fed) := List.foldl_append

theorem visit_reports (fs : FatFs) (sector : Buffer) (count base : Nat) (before : List Buffer)
    (seen : List Dirent) :
    let all := fatVisitEntries fs sector collect count base (lfnStateAfter before) seen
    all.1 = lfnStateAfter (before ++ fedEntries sector count base) ∧
      all.2.1 = seen ++ (reportsAfter fs before (fedEntries sector count base)).map Report.dirent := by
  induction count generalizing base before seen with
  | zero => simp [fatVisitEntries, fedEntries, reportsAfter]
  | succ count ih =>
    have hstep : lfnStateAfter (before ++ [entryAt sector base]) =
        lfnAfter (lfnStateAfter before) (entryAt sector base) := by
      rw [lfnStateAfter_append]
      rfl
    have hzero : entryAt sector base 0 = sector base := rfl
    have hattr : entryAt sector base 11 = sector (base + 11) := rfl
    have hcons : ∀ es : List Buffer, before ++ entryAt sector base :: es = before ++
      [entryAt sector base] ++ es := by simp
    simp only [fatVisitEntries, collect_call, if_true, fedEntries, reportsAfter, reportedFor, hzero, hattr]
    by_cases hend : sector base = 0x00
    · have hreset : lfnStateAfter (before ++ [entryAt sector base]) = fatLfnReset := by
        rw [hstep, lfnAfter, if_neg (fun h => h.1 hend)]
      simp [hend, hreset, reportsAfter]
    · rw [hcons]
      simp only [if_neg hend]
      by_cases hdel : sector base = 0xE5
      · have hreset : fatLfnReset = lfnStateAfter (before ++ [entryAt sector base]) := by
          rw [hstep, lfnAfter, if_neg (fun h => h.2.1 hdel)]
        simp only [if_pos hdel]
        rw [hreset]
        obtain ⟨h1, h2⟩ := ih (base + fatDirEntrySize) (before ++ [entryAt sector base])
          (seen ++ [fatDirentFromRaw sector base])
        refine ⟨h1, ?_⟩
        rw [h2, fatDirentFromRaw_entryAt]
        simp
      · simp only [if_neg hdel]
        by_cases hlfn : sector (base + 11) = fatAttrLfn
        · have hslot : (fatLfnCollect (lfnStateAfter before) sector base).2 =
              lfnStateAfter (before ++ [entryAt sector base]) := by
            rw [hstep, lfnAfter, if_pos ⟨hend, hdel, hlfn⟩, fatLfnCollect_entryAt]
          simp only [if_pos hlfn]
          rw [hslot]
          obtain ⟨h1, h2⟩ := ih (base + fatDirEntrySize) (before ++ [entryAt sector base]) seen
          exact ⟨h1, by rw [h2]; simp⟩
        · have hreset : fatLfnReset = lfnStateAfter (before ++ [entryAt sector base]) := by
            rw [hstep, lfnAfter, if_neg (fun h => hlfn h.2.2)]
          simp only [if_neg hlfn]
          rw [hreset]
          obtain ⟨h1, h2⟩ := ih (base + fatDirEntrySize) (before ++ [entryAt sector base])
            (seen ++ [fatShortDirent fs sector base (lfnStateAfter before)])
          refine ⟨h1, ?_⟩
          rw [h2, fatShortDirent_entryAt]
          simp

theorem visitSectors_reports (fs : FatFs) (sectors : List Buffer) :
    visitSectors fs sectors =
      (lfnStateAfter (fed fs sectors), (reportsAfter fs [] (fed fs sectors)).map Report.dirent) := by
  unfold visitSectors
  induction sectors using List.reverseRecOn with
  | nil => rfl
  | append_singleton sectors sector ih =>
    rw [List.foldl_append, ih]
    obtain ⟨h1, h2⟩ := visit_reports fs sector ((fs.bytesPerSector.toNat + 31) / 32) 0 (fed fs sectors)
      ((reportsAfter fs [] (fed fs sectors)).map Report.dirent)
    have hfed : fed fs (sectors ++ [sector]) =
        fed fs sectors ++ fedEntries sector ((fs.bytesPerSector.toNat + 31) / 32) 0 := by simp [fed]
    simp only [List.foldl_cons, List.foldl_nil, fatVisitSectorEntries]
    rw [h1, h2, hfed, reportsAfter_append, List.map_append, List.nil_append]

/-! ### The collector -/

/-- The first character of a name after a slot: only slot 1 holds it, and a padding unit leaves what
was there. -/
def firstCharAfter (c : UInt8) (raw : Buffer) : UInt8 :=
  if slotOf raw = 1 then
    if fatReadLe16 raw 1 = 0x0000 then 0
    else if fatReadLe16 raw 1 = 0xFFFF then c
    else fatLfnAsciiChar (fatReadLe16 raw 1)
  else c

def firstChar (run : List Buffer) : UInt8 := run.foldl firstCharAfter 0

/-- What the visitor looks at in the long-name state. -/
def LfnState.view (state : LfnState) : Bool × UInt8 × UInt8 × UInt8 :=
  (state.active, state.totalSlots, state.checksum, state.name.head)

section store
variable {state : LfnState} {slot : UInt8} {k : Nat} {unit : UInt16}

theorem name_set_zero (name : Vector UInt8 256) (k : Nat) (c : UInt8) :
    (name.setIfInBounds k c).head = if k = 0 then c else name.head := by
  rw [Vector.head, Vector.getElem_setIfInBounds]
  rfl

theorem store_rest (hk : 0 < k) : (fatLfnStoreNamePart state slot k unit).view = state.view := by
  have hne : (slot - 1).toNat * 13 + k ≠ 0 := by omega
  unfold fatLfnStoreNamePart
  dsimp only
  split_ifs <;> simp only [LfnState.view, name_set_zero, if_neg hne]

theorem store_first :
    (fatLfnStoreNamePart state slot 0 unit).view =
      (state.active, state.totalSlots, state.checksum,
        if slot = 1 then
          if unit = 0x0000 then (0 : UInt8) else if unit =
              0xFFFF then state.name.head else fatLfnAsciiChar unit
        else state.name.head) := by
  have hslot : slot ≠ 0 → (slot = 1 ↔ (slot - 1).toNat * 13 + 0 = 0) := by
    intro h0
    constructor
    · rintro rfl
      rfl
    · intro h
      have hz : (slot - 1).toNat = 0 := by omega
      have hs : slot - 1 = 0 := UInt8.toNat_inj.mp hz
      rwa [UInt8.sub_eq_iff_eq_add, UInt8.zero_add] at hs
  unfold fatLfnStoreNamePart
  dsimp only
  by_cases h0 : slot = 0
  · rw [if_pos h0, if_neg (by rw [h0]; decide)]
    rfl
  · rw [if_neg h0]
    by_cases h1 : slot = 1
    · subst h1
      rw [if_neg (by decide), if_pos rfl]
      split_ifs <;> simp [LfnState.view, name_set_zero]
    · have hne := mt (hslot h0).mpr h1
      rw [if_neg h1]
      split_ifs <;> simp only [LfnState.view, name_set_zero, if_neg hne]

def storeUnits (raw : Buffer) (state : LfnState) : LfnState :=
  (fatLfnUnitOffsets.zipIdx).foldl
    (fun state part => fatLfnStoreNamePart state (slotOf raw) part.2 (fatReadLe16 raw (0 + part.1))) state

theorem store_slot (raw : Buffer) (state : LfnState) :
    (storeUnits raw state).view =
      (state.active, state.totalSlots, state.checksum, firstCharAfter state.name.head raw) := by
  have hrest : ∀ (parts : List (Nat × Nat)) (state : LfnState), (∀ part ∈ parts, 0 < part.2) →
      (parts.foldl (fun state part => fatLfnStoreNamePart state (slotOf raw) part.2
        (fatReadLe16 raw (0 + part.1))) state).view = state.view := by
    intro parts
    induction parts with
    | nil => exact fun _ _ => rfl
    | cons part parts ih =>
      intro state hpos
      rw [List.foldl_cons, ih _ fun p hp => hpos p (List.mem_cons_of_mem _ hp)]
      exact store_rest (hpos part (List.mem_cons_self ..))
  have hsplit : fatLfnUnitOffsets.zipIdx = (1, 0) :: (fatLfnUnitOffsets.zipIdx).tail := rfl
  rw [storeUnits, hsplit, List.foldl_cons, hrest _ _ (by decide), store_first]
  rfl

end store

/-- A slot that continues a name with so many slots and this checksum. -/
def Continues (raw : Buffer) (totalSlots checksum : UInt8) : Prop :=
  ¬HasLastFlag raw ∧ WellFormedSlot raw ∧ slotOf raw ≤ totalSlots ∧ checksumOf raw = checksum

theorem lfnAfter_first (hraw : IsLfn raw) (hflag : HasLastFlag raw) (hform : WellFormedSlot raw)
    (state : LfnState) : ∃ seenMask,
      lfnAfter state raw = storeUnits raw ⟨true, slotOf raw, checksumOf raw, seenMask,
        Vector.replicate 256 0⟩ := by
  obtain ⟨htype, hcluster, hzero, hmax⟩ := hform
  rw [lfnAfter, if_pos hraw, fatLfnCollect]
  dsimp only
  rw [if_neg (by simp [hraw.2.2, htype, hcluster]), if_neg (by simpa [slotOf] using ⟨hzero, hmax⟩),
    if_neg (by simp [show raw 0 &&& 0x40 ≠ 0 from hflag])]
  simp only [if_pos (show raw 0 &&& 0x40 ≠ 0 from hflag)]
  exact ⟨_, rfl⟩

theorem collect_first (hraw : IsLfn raw) (hflag : HasLastFlag raw) (hform : WellFormedSlot raw)
    (state : LfnState) :
    (lfnAfter state raw).view = (true, slotOf raw, checksumOf raw, firstChar [raw]) := by
  obtain ⟨seenMask, hstate⟩ := lfnAfter_first hraw hflag hform state
  rw [hstate]
  exact store_slot raw _

theorem lfnAfter_next (hraw : IsLfn raw) (hactive : state.active = true)
    (htotal : state.totalSlots ≠ 0) (hnext : Continues raw state.totalSlots state.checksum) : ∃ seenMask,
      lfnAfter state raw = storeUnits raw { state with seenMask := seenMask } := by
  obtain ⟨hflag, ⟨htype, hcluster, hzero, hmax⟩, hslot, hsum⟩ := hnext
  have hflag' : raw 0 &&& 0x40 = 0 := by simpa [HasLastFlag] using hflag
  rw [lfnAfter, if_pos hraw, fatLfnCollect]
  dsimp only
  rw [if_neg (by simp [hraw.2.2, htype, hcluster]), if_neg (by simpa [slotOf] using ⟨hzero, hmax⟩),
    if_neg (by
      simp only [not_and, not_or, hactive]
      intro _
      exact ⟨by decide, htotal, UInt8.not_lt.mpr hslot, not_not.mpr hsum⟩)]
  simp only [hflag', ne_eq, not_true_eq_false, if_false]
  exact ⟨_, rfl⟩

theorem collect_next (hraw : IsLfn raw) (hactive : state.active = true)
    (htotal : state.totalSlots ≠ 0) (hnext : Continues raw state.totalSlots state.checksum) :
    (lfnAfter state raw).view = (true, state.totalSlots, state.checksum,
        firstCharAfter state.name.head raw) := by
  obtain ⟨seenMask, hstate⟩ := lfnAfter_next hraw hactive htotal hnext
  rw [hstate, store_slot, hactive]

theorem collect_reset (hstart : ¬(IsLfn raw ∧ HasLastFlag raw ∧ WellFormedSlot raw))
    (hnext : ¬(IsLfn raw ∧ state.active = true ∧ state.totalSlots ≠ 0 ∧
      Continues raw state.totalSlots state.checksum)) :
    lfnAfter state raw = fatLfnReset := by
  by_cases hraw : IsLfn raw
  · rw [lfnAfter, if_pos hraw, fatLfnCollect]
    dsimp only
    by_cases h1 : raw 11 ≠ fatAttrLfn ∨ raw 12 ≠ 0 ∨ fatReadLe16 raw 26 ≠ 0
    · rw [if_pos h1]
    by_cases h2 : raw 0 &&& 0x1F = 0 ∨ raw 0 &&& 0x1F > 20
    · rw [if_neg h1, if_pos h2]
    have hform : WellFormedSlot raw := by
      simp only [not_or, not_not] at h1 h2
      exact ⟨h1.2.1, h1.2.2, h2.1, UInt8.not_lt.mp h2.2⟩
    have hflag : ¬HasLastFlag raw := fun hflag => hstart ⟨hraw, hflag, hform⟩
    rw [if_neg h1, if_neg h2, if_pos]
    refine ⟨hflag, ?_⟩
    -- a slot that passes the other tests continues the name
    by_contra hpass
    simp only [not_or, not_not] at hpass
    exact hnext ⟨hraw, by simpa using hpass.1, hpass.2.1, hflag, hform, UInt8.not_lt.mp hpass.2.2.1,
      hpass.2.2.2⟩
  · rw [lfnAfter, if_neg hraw]

/-! ### Runs of slots -/

/-- The entries end with a run of slots that the collector takes: one with the last-flag, then slots
of the same name. -/
structure NameRun (before : List Buffer) (first : Buffer) (slots : List Buffer) : Prop where
  suffix : first :: slots <:+ before
  lfn : IsLfn first
  flag : HasLastFlag first
  form : WellFormedSlot first
  rest : ∀ s ∈ slots, IsLfn s ∧ Continues s (slotOf first) (checksumOf first)

theorem lastFlag_unique {before slots slots' : List Buffer} {first first' : Buffer}
    (h : first :: slots <:+ before) (h' : first' :: slots' <:+ before) (hf : HasLastFlag first)
    (hf' : HasLastFlag first') (hs : ∀ s ∈ slots, ¬HasLastFlag s)
    (hs' : ∀ s ∈ slots', ¬HasLastFlag s) : first = first' ∧ slots = slots' := by
  rcases List.suffix_or_suffix_of_suffix h h' with hsub | hsub
  · rcases List.suffix_cons_iff.mp hsub with heq | hin
    · exact List.cons.inj heq
    · exact absurd hf (hs' first (hin.subset (List.mem_cons_self ..)))
  · rcases List.suffix_cons_iff.mp hsub with heq | hin
    · obtain ⟨h1, h2⟩ := List.cons.inj heq
      exact ⟨h1.symm, h2.symm⟩
    · exact absurd hf' (hs first' (hin.subset (List.mem_cons_self ..)))

theorem NameRun.start (hraw : IsLfn raw) (hflag : HasLastFlag raw)
    (hform : WellFormedSlot raw) : NameRun (before ++ [raw]) raw [] :=
  ⟨List.suffix_append _ _, hraw, hflag, hform, fun _ h => by cases h⟩

theorem NameRun.next {before slots : List Buffer} {first raw : Buffer}
    (h : NameRun before first slots) (hraw : IsLfn raw)
    (hnext : Continues raw (slotOf first) (checksumOf first)) :
    NameRun (before ++ [raw]) first (slots ++ [raw]) := by
  refine ⟨?_, h.lfn, h.flag, h.form, fun s hs => ?_⟩
  · obtain ⟨pre, hpre⟩ := h.suffix
    exact ⟨pre, by rw [← hpre]; simp⟩
  · rcases List.mem_append.mp hs with hs | hs
    · exact h.rest s hs
    · rw [List.mem_singleton.mp hs]
      exact ⟨hraw, hnext⟩

theorem NameRun.cases {before slots : List Buffer} {first raw : Buffer}
    (h : NameRun (before ++ [raw]) first slots) :
    (raw = first ∧ slots = []) ∨
      ∃ slots', slots = slots' ++ [raw] ∧ NameRun before first slots' ∧ IsLfn raw ∧
        Continues raw (slotOf first) (checksumOf first) := by
  obtain ⟨pre, hpre⟩ := h.suffix
  rcases List.eq_nil_or_concat slots with rfl | ⟨slots', last, rfl⟩
  · have hlast := congrArg List.getLast? hpre
    simp only [List.getLast?_append, List.getLast?_singleton, Option.some_or, Option.some.injEq] at hlast
    exact Or.inl ⟨hlast.symm, rfl⟩
  · have hpre' : pre ++ first :: slots' ++ [last] = before ++ [raw] := by simpa using hpre
    obtain ⟨hbefore, hlast⟩ := List.append_inj' hpre' rfl
    obtain rfl : last = raw := by simpa using hlast
    obtain ⟨hlfn, hnext⟩ := h.rest last (by simp)
    exact Or.inr ⟨slots', by simp,
      ⟨⟨pre, hbefore⟩, h.lfn, h.flag, h.form, fun s hs => h.rest s (by simp [hs])⟩, hlfn, hnext⟩

/-- The state of the collector is the run of slots that the entries end with. -/
theorem lfnStateAfter_view (before : List Buffer) :
    (lfnStateAfter before = fatLfnReset ∧ ∀ first slots, ¬NameRun before first slots) ∨
      ∃ first slots, NameRun before first slots ∧
        (lfnStateAfter before).view = (true, slotOf first, checksumOf first,
          firstChar (first :: slots)) := by
  induction before using List.reverseRecOn with
  | nil =>
    refine Or.inl ⟨rfl, fun first slots h => ?_⟩
    have := List.suffix_nil.mp h.suffix
    cases this
  | append_singleton before raw ih =>
    have hstep : lfnStateAfter (before ++ [raw]) = lfnAfter (lfnStateAfter before) raw := by
      rw [lfnStateAfter_append]
      rfl
    by_cases hstart : IsLfn raw ∧ HasLastFlag raw ∧ WellFormedSlot raw
    · obtain ⟨hraw, hflag, hform⟩ := hstart
      exact Or.inr ⟨raw, [], .start hraw hflag hform, by rw [hstep, collect_first hraw hflag hform]⟩
    rcases ih with ⟨hreset, hnone⟩ | ⟨first, slots, hrun, hview⟩
    · refine Or.inl ⟨?_, fun first slots h => ?_⟩
      · rw [hstep, hreset]
        exact collect_reset hstart fun h => absurd h.2.1 (by decide)
      · rcases h.cases with ⟨rfl, _⟩ | ⟨slots', _, h', _⟩
        · exact hstart ⟨h.lfn, h.flag, h.form⟩
        · exact hnone first slots' h'
    · simp only [LfnState.view, Prod.mk.injEq] at hview
      obtain ⟨hactive, htotal, hsum, hchar⟩ := hview
      have hpositive : (lfnStateAfter before).totalSlots ≠ 0 := by
        rw [htotal]
        exact hrun.form.2.2.1
      by_cases hnext : IsLfn raw ∧ Continues raw (slotOf first) (checksumOf first)
      · refine Or.inr ⟨first, slots ++ [raw], hrun.next hnext.1 hnext.2, ?_⟩
        rw [hstep, collect_next hnext.1 hactive hpositive (by rw [htotal, hsum]; exact hnext.2),
          htotal, hsum, hchar]
        simp [firstChar]
      · refine Or.inl ⟨?_, fun first' slots' h => ?_⟩
        · rw [hstep]
          refine collect_reset hstart fun h => hnext ⟨h.1, ?_⟩
          rw [← htotal, ← hsum]
          exact h.2.2.2
        · rcases h.cases with ⟨rfl, _⟩ | ⟨slots'', _, h', hlfn, hcont⟩
          · exact hstart ⟨h.lfn, h.flag, h.form⟩
          · obtain ⟨rfl, _⟩ := lastFlag_unique hrun.suffix h'.suffix hrun.flag h'.flag
              (fun s hs => (hrun.rest s hs).2.1)
              fun s hs => (h'.rest s hs).2.1
            exact hnext ⟨hlfn, hcont⟩

/-! ### Attached names -/

/-- The collector holds a name for this short entry. -/
def Attached (before : List Buffer) (raw : Buffer) : Prop :=
  ∃ first slots, NameRun before first slots ∧ checksumOf first = fatShortNameChecksum (rawNameOf raw) ∧
    firstChar (first :: slots) ≠ 0

theorem reported_longName {fs : FatFs} {e : Dirent}
    (h : reportedFor fs (lfnStateAfter before) raw = some e) :
    (e.hasLongName = true ↔ IsShort raw ∧ Attached before raw) ∧
      (e.hasLongName = false → e.displayName = e.shortName) := by
  unfold reportedFor at h
  split_ifs at h with hend hdel hlfn
  · obtain rfl := Option.some.inj h
    exact ⟨⟨fun hf => absurd hf Bool.false_ne_true, fun hs => absurd hdel hs.1.2.1⟩, fun _ => rfl⟩
  · obtain rfl := Option.some.inj h
    have hshort : IsShort raw := ⟨hend, hdel, hlfn⟩
    have hattached : Attached before raw ↔ ((lfnStateAfter before).active = true ∧
        (lfnStateAfter before).checksum = fatShortNameChecksum (rawNameOf raw) ∧
        (lfnStateAfter before).name[0] ≠ 0) := by
      rcases lfnStateAfter_view before with ⟨hreset, hnone⟩ | ⟨first, slots, hrun, hview⟩
      · rw [hreset]
        constructor
        · intro hheld
          obtain ⟨first, slots, hrun, _⟩ := hheld
          exact absurd hrun (hnone first slots)
        · intro hheld
          exact absurd hheld.1 (by decide)
      · simp only [LfnState.view, Vector.head, Prod.mk.injEq] at hview
        obtain ⟨hactive, _, hsum, hchar⟩ := hview
        rw [hactive, hsum, hchar]
        refine ⟨fun hheld => ?_, fun hheld => ⟨first, slots, hrun, hheld.2.1, hheld.2.2⟩⟩
        obtain ⟨first', slots', hrun', h1, h2⟩ := hheld
        obtain ⟨rfl, rfl⟩ := lastFlag_unique hrun.suffix hrun'.suffix hrun.flag hrun'.flag
          (fun s hs => (hrun.rest s hs).2.1) fun s hs => (hrun'.rest s hs).2.1
        exact ⟨rfl, h1, h2⟩
    have hraw : (fatDirentFromRaw raw 0).rawName = rawNameOf raw := by
      simp [fatDirentFromRaw, rawNameOf]
    unfold fatShortDirent
    dsimp only
    rw [hraw]
    by_cases hheld : (lfnStateAfter before).active = true ∧
        (lfnStateAfter before).checksum = fatShortNameChecksum (rawNameOf raw) ∧
        (lfnStateAfter before).name[0] ≠ 0
    · rw [if_pos hheld]
      refine ⟨⟨fun _ => ⟨hshort, hattached.mpr hheld⟩, fun _ => ?_⟩, fun hf => ?_⟩
      · split <;> rfl
      · split at hf <;> cases hf
    · rw [if_neg hheld]
      refine ⟨⟨fun hl => ?_, fun hs => absurd (hattached.mp hs.2) hheld⟩, fun _ => ?_⟩
      · split at hl <;> cases hl
      · split <;> rfl

/-- Every slot of the long name has come since the last entry with the last-flag, with the checksum
of the short entry, and nothing but slots in between. -/
def CompleteName (before : List Buffer) (raw : Buffer) : Prop :=
  ∃ first slots, first :: slots <:+ before ∧ IsLfn first ∧ HasLastFlag first ∧
    (∀ s ∈ slots, IsLfn s ∧ ¬HasLastFlag s) ∧
    ∀ k, 1 ≤ k → k ≤ (slotOf first).toNat →
      ∃ s ∈ first :: slots, (slotOf s).toNat = k ∧ checksumOf s = fatShortNameChecksum (rawNameOf raw)

/-- A name is held for this short entry in which some slot has not come. -/
def MissingSlot (before : List Buffer) (raw : Buffer) : Prop :=
  IsShort raw ∧ ∃ first slots, NameRun before first slots ∧
    checksumOf first = fatShortNameChecksum (rawNameOf raw) ∧ firstChar (first :: slots) ≠ 0 ∧
    ∃ k, 1 ≤ k ∧ k ≤ (slotOf first).toNat ∧ ∀ s ∈ first :: slots, (slotOf s).toNat ≠ k

theorem MissingSlot.not_complete (h : MissingSlot before raw) :
    ¬CompleteName before raw := by
  obtain ⟨_, first, slots, hrun, _, _, k, hlow, hhigh, hmissing⟩ := h
  intro ⟨first', slots', hsuffix, _, hflag, hslots, hall⟩
  obtain ⟨rfl, rfl⟩ := lastFlag_unique hrun.suffix hsuffix hrun.flag hflag
    (fun s hs => (hrun.rest s hs).2.1)
    fun s hs => (hslots s hs).2
  obtain ⟨s, hs, hk, _⟩ := hall k hlow hhigh
  exact hmissing s hs hk

theorem complete_of_attached (hshort : IsShort raw) (h : Attached before raw)
    (hfull : ¬MissingSlot before raw) : CompleteName before raw := by
  obtain ⟨first, slots, hrun, hsum, hchar⟩ := h
  refine ⟨first, slots, hrun.suffix, hrun.lfn, hrun.flag, fun s hs =>
    ⟨(hrun.rest s hs).1, (hrun.rest s hs).2.1⟩, ?_⟩
  intro k hlow hhigh
  by_contra hnone
  refine hfull ⟨hshort, first, slots, hrun, hsum, hchar, k, hlow,
    hhigh, fun s hs hk => hnone ⟨s, hs, hk, ?_⟩⟩
  rcases List.mem_cons.mp hs with rfl | hs
  · exact hsum
  · exact (hrun.rest s hs).2.2.2.2.trans hsum

theorem mem_reportsAfter {fs : FatFs} {before es : List Buffer} {x : Report}
    (h : x ∈ reportsAfter fs before es) :
    reportedFor fs (lfnStateAfter x.before) x.raw = some x.dirent := by
  induction es generalizing before with
  | nil => cases h
  | cons raw es ih =>
    rw [reportsAfter] at h
    rcases List.mem_append.mp h with h | h
    · simp only [Option.mem_toList, Option.map_eq_some_iff] at h
      obtain ⟨e, he, rfl⟩ := h
      exact he
    · exact ih h

/-- What the visits of any sectors report, each with the raw entries before it: a long name is
attached only when it is complete, and without one the short name is shown, exactly unless a name
with a missing slot is held for the entry. -/
theorem long_name_complete_iff (fs : FatFs) (sectors : List Buffer) :
    (visitSectors fs sectors).2 = (reportsAfter fs [] (fed fs sectors)).map Report.dirent ∧
      ∀ x ∈ reportsAfter fs [] (fed fs sectors),
        ((x.dirent.hasLongName = true → CompleteName x.before x.raw) ∧
            (x.dirent.hasLongName = false → x.dirent.displayName = x.dirent.shortName)) ↔
          ¬MissingSlot x.before x.raw := by
  refine ⟨by rw [visitSectors_reports], fun x hx => ?_⟩
  obtain ⟨hlong, hplain⟩ := reported_longName (mem_reportsAfter hx)
  constructor
  · intro ⟨hcomplete, _⟩ hmissing
    have hnot := hmissing.not_complete
    obtain ⟨hshort, first, slots, hrun, hsum, hchar, _⟩ := hmissing
    exact hnot (hcomplete (hlong.mpr ⟨hshort, first, slots, hrun, hsum, hchar⟩))
  · intro hfull
    refine ⟨fun hl => ?_, hplain⟩
    obtain ⟨hshort, hattached⟩ := hlong.mp hl
    exact complete_of_attached hshort hattached hfull

def sampleSlot (order checksum : UInt8) : List UInt8 :=
  order :: [0x78, 0, 0x78, 0, 0x78, 0, 0x78, 0, 0x78, 0, 0x0F, 0, checksum, 0x78, 0, 0x78, 0, 0x78,
    0, 0x78, 0, 0x78, 0, 0x78, 0, 0, 0, 0x78, 0, 0x78, 0]

def gapSector : Buffer := fun i =>
  (sampleSlot 0x43 0x80 ++ sampleSlot 0x01 0x80 ++ 0x41 :: List.replicate 31 0x20).getD i 0

def gapFs : FatFs where
  deviceIndex := 0
  bootLba := 0
  bytesPerSector := 512
  sectorsPerCluster := 1
  reservedSectors := 1
  fatCount := 1
  sectorsPerFat := 1
  rootEntryCount := 16
  totalSectors := 10
  firstFatLba := 1
  firstDataLba := 3
  firstRootDirLba := 2
  rootDirSectors := 1
  rootCluster := 0
  clusterCount := 7
  fatType := .fat12

/-- The name of an entry is attached without its second slot. -/
theorem gap_in_long_name :
    ∃ x ∈ reportsAfter gapFs [] (fed gapFs [gapSector]), x.dirent ∈ (visitSectors gapFs [gapSector]).2 ∧
      x.dirent.hasLongName = true ∧ ¬CompleteName x.before x.raw := by
  have hmissing : MissingSlot [entryAt gapSector 0, entryAt gapSector 32] (entryAt gapSector 64) := by
    refine ⟨by decide, entryAt gapSector 0, [entryAt gapSector 32], ?_, by decide +kernel,
      by decide +kernel, 2, by decide, by decide, ?_⟩
    · refine ⟨List.suffix_refl _, by decide, by decide, by decide, fun s hs => ?_⟩
      rw [List.mem_singleton.mp hs]
      exact ⟨by decide, by decide, by decide, by decide, by decide⟩
    · intro s hs
      simp only [List.mem_cons, List.not_mem_nil, or_false] at hs
      rcases hs with rfl | rfl <;> decide
  have hfed : fed gapFs [gapSector] = [entryAt gapSector 0, entryAt gapSector 32] ++
      (entryAt gapSector 64 :: fedEntries gapSector 13 96) := by
    rw [show fed gapFs [gapSector] = fedEntries gapSector 16 0 from List.append_nil _,
      fedEntries_cons gapSector 15 0 (by decide), fedEntries_cons gapSector 14 _ (by decide),
      fedEntries_cons gapSector 13 _ (by decide)]
    rfl
  obtain ⟨x, hx, hbefore, hraw, hlong⟩ : ∃ x ∈ reportsAfter gapFs [] (fed gapFs [gapSector]),
      x.before = [entryAt gapSector 0, entryAt gapSector 32] ∧ x.raw = entryAt gapSector 64 ∧
        x.dirent.hasLongName = true := by
    refine ⟨⟨[entryAt gapSector 0, entryAt gapSector 32], entryAt gapSector 64, fatShortDirent gapFs
      (entryAt gapSector 64) 0 (lfnStateAfter [entryAt gapSector 0, entryAt gapSector 32])⟩, ?_,
      rfl, rfl, by decide +kernel⟩
    rw [hfed, reportsAfter_append]
    refine List.mem_append_right _ ?_
    rw [reportsAfter, List.nil_append, reportedFor, if_neg (by decide), if_neg (by decide),
      if_neg (by decide)]
    exact List.mem_append_left _ (List.mem_singleton.mpr rfl)
  refine ⟨x, hx, ?_, hlong, ?_⟩
  · rw [visitSectors_reports]
    exact List.mem_map_of_mem hx
  · rw [hbefore, hraw]
    exact hmissing.not_complete

end TermobKernel.Fat

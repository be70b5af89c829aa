import TermobKernel.Fat.LongNames
import TermobKernel.Fat.Packing
import Mathlib.Data.List.GetD

/-!
# Encoded long names

How a long name is written: thirteen code units a slot, a terminator and padding behind the last
character, the slots from the last one down to the first. The collector holds, after each slot, the
characters from the place of this slot on, so that behind the last slot it holds the name.
-/

namespace TermobKernel.Fat

variable {i : Nat}

/-! ### The encoding -/

/-- The code unit at a place of the encoded name: a character, the terminator behind the last one,
or padding. -/
def lfnUnit (name : List UInt8) (i : Nat) : UInt16 :=
  if i < name.length then (name.getD i 0).toUInt16 else if i = name.length then 0x0000 else 0xFFFF

def lfnSlotCount (name : List UInt8) : Nat := (name.length + 12) / 13

def lfnSlot (name : List UInt8) (checksum : UInt8) (k : Nat) : List UInt8 :=
  let low := fun j => (lfnUnit name ((k - 1) * 13 + j)).toUInt8
  let high := fun j => (lfnUnit name ((k - 1) * 13 + j) >>> 8).toUInt8
  [UInt8.ofNat k ||| (if k = lfnSlotCount name then 0x40 else 0),
    low 0, high 0, low 1, high 1, low 2, high 2, low 3, high 3, low 4, high 4, fatAttrLfn, 0, checksum,
    low 5, high 5, low 6, high 6, low 7, high 7, low 8, high 8, low 9, high 9, low 10, high 10, 0, 0,
    low 11, high 11, low 12, high 12]

/-- These raw entries are the slots of the name, in the order in which they are on the disk. -/
structure EncodesName (slots : List Buffer) (name : List UInt8) (checksum : UInt8) : Prop where
  length : slots.length = lfnSlotCount name
  slot : ∀ j raw, slots[j]? = some raw →
    (List.range 32).map raw = lfnSlot name checksum (lfnSlotCount name - j)

/-! ### Reading a slot -/

section slot
variable {raw : Buffer} {name : List UInt8} {checksum : UInt8} {k : Nat}

theorem slot_byte (h : (List.range 32).map raw = lfnSlot name checksum k) {i : Nat} (hi : i < 32) :
    raw i = (lfnSlot name checksum k).getD i 0 := by
  rw [← h, List.getD_eq_getElem?_getD, List.getElem?_map, List.getElem?_range hi]
  rfl

theorem le16_unit {offset : Nat} {unit : UInt16} (hlow : raw offset = unit.toUInt8)
    (hhigh : raw (offset + 1) = (unit >>> 8).toUInt8) : fatReadLe16 raw offset = unit := by
  have hlt := unit.toNat_lt
  apply UInt16.toNat_inj.mp
  rw [fatReadLe16_toNat, Digits.window_two_bytes, hlow, hhigh, UInt16.toNat_toUInt8, UInt16.toNat_toUInt8,
    UInt16.toNat_shiftRight, Nat.shiftRight_eq_div_pow]
  change unit.toNat % 256 + 256 * (unit.toNat / 2 ^ 8 % 256) = unit.toNat
  omega

theorem slot_unit (h : (List.range 32).map raw = lfnSlot name checksum k) :
    ∀ part ∈ fatLfnUnitOffsets.zipIdx, fatReadLe16 raw (0 + part.1) =
        lfnUnit name ((k - 1) * 13 + part.2) := by
  have hbyte : ∀ i < 32, raw i = (lfnSlot name checksum k).getD i 0 := fun i hi => slot_byte h hi
  simp only [fatLfnUnitOffsets, List.zipIdx_cons, List.zipIdx_nil, List.mem_cons,
    List.not_mem_nil, or_false, forall_eq_or_imp, forall_eq, Nat.zero_add]
  refine ⟨?_, ?_, ?_, ?_, ?_, ?_, ?_, ?_, ?_, ?_, ?_, ?_, ?_⟩ <;>
    exact le16_unit (hbyte _ (by decide)) (hbyte _ (by decide))

theorem slot_head (h : (List.range 32).map raw = lfnSlot name checksum k) (hk : 1 ≤ k) (hmax : k ≤ 20) :
    IsLfn raw ∧ WellFormedSlot raw ∧ (HasLastFlag raw ↔ k = lfnSlotCount name) ∧ (slotOf raw).toNat = k ∧
      checksumOf raw = checksum := by
  have h0 : raw 0 = UInt8.ofNat k ||| (if k = lfnSlotCount name then 0x40 else 0) := slot_byte h (by decide)
  have h11 : raw 11 = fatAttrLfn := slot_byte h (by decide)
  have h12 : raw 12 = 0 := slot_byte h (by decide)
  have h13 : raw 13 = checksum := slot_byte h (by decide)
  have h26 : raw 26 = 0 := slot_byte h (by decide)
  have h27 : raw 27 = 0 := slot_byte h (by decide)
  have horder : ∀ n : Fin 21, ∀ last : Bool, 1 ≤ n.val → let order := UInt8.ofNat n |||
    (if last = true then 0x40 else 0)
      order ≠ 0 ∧ order ≠ 0xE5 ∧ (order &&& 0x1F).toNat = n ∧ order &&& 0x1F ≠ 0 ∧ order &&& 0x1F ≤ 20 ∧
        (order &&& 0x40 ≠ 0 ↔ last = true) := by decide
  have hfields := horder ⟨k, by omega⟩ (decide (k = lfnSlotCount name)) hk
  simp only [decide_eq_true_eq, ← h0] at hfields
  obtain ⟨hne0, hneE5, hslot, hpos, hle, hflag⟩ := hfields
  exact ⟨⟨hne0, hneE5, h11⟩, ⟨h12, le16_unit h26 h27, hpos, hle⟩, hflag, hslot, h13⟩

end slot

/-! ### Storing a slot -/

def unitChar (old : UInt8) (unit : UInt16) : UInt8 :=
  if unit = 0x0000 then 0 else if unit = 0xFFFF then old else fatLfnAsciiChar unit

theorem store_name (state : LfnState) {slot : UInt8} (hslot : slot ≠ 0) (c : Nat) (unit : UInt16)
    (hi : i < 256) :
    (fatLfnStoreNamePart state slot c unit).name[i] =
      if (slot - 1).toNat * 13 + c = i ∧ i < 255 then unitChar state.name[i] unit else state.name[i] := by
  unfold fatLfnStoreNamePart
  dsimp only
  rw [if_neg hslot]
  by_cases hin : (slot - 1).toNat * 13 + c = i ∧ i < 255
  · have hroom : ¬(slot - 1).toNat * 13 + c ≥ fatNameMax := by
      rw [hin.1]
      exact Nat.not_le.mpr hin.2
    rw [if_neg hroom, if_pos hin, unitChar]
    split_ifs <;> simp [hin.1]
  · rw [if_neg hin]
    by_cases hroom : (slot - 1).toNat * 13 + c ≥ fatNameMax
    · rw [if_pos hroom]
    · have hne : (slot - 1).toNat * 13 + c ≠ i := fun hat =>
        hin ⟨hat, by rw [← hat]; exact Nat.not_le.mp hroom⟩
      rw [if_neg hroom]
      split_ifs
      · rw [Vector.getElem_setIfInBounds, if_neg hne]
      · rfl
      · rw [Vector.getElem_setIfInBounds, if_neg hne]

theorem store_range (state : LfnState) {slot : UInt8} (hslot : slot ≠ 0) (u : Nat → UInt16) (m : Nat)
    (hi : i < 256) :
    ((List.range m).foldl (fun state c => fatLfnStoreNamePart state slot c (u c)) state).name[i] =
      if (slot - 1).toNat * 13 ≤ i ∧ i < (slot - 1).toNat * 13 + m ∧ i < 255 then
        unitChar state.name[i] (u (i - (slot - 1).toNat * 13))
      else state.name[i] := by
  induction m with
  | zero =>
    rw [if_neg (by omega)]
    rfl
  | succ m ih =>
    rw [List.range_succ, List.foldl_append, List.foldl_cons, List.foldl_nil, store_name _ hslot _ _ hi, ih]
    by_cases hat : (slot - 1).toNat * 13 + m = i
    · by_cases hlt : i < 255
      · have hsub : i - (slot - 1).toNat * 13 = m := by omega
        rw [if_pos ⟨hat, hlt⟩, if_neg (by omega), if_pos (by omega), hsub]
      · rw [if_neg (by omega), if_neg (by omega), if_neg (by omega)]
    · rw [if_neg (by omega)]
      by_cases hin : (slot - 1).toNat * 13 ≤ i ∧ i < (slot - 1).toNat * 13 + m ∧ i < 255
      · rw [if_pos hin, if_pos (by omega)]
      · rw [if_neg hin, if_neg (by omega)]

theorem storeUnits_name {raw : Buffer} {name : List UInt8} {checksum : UInt8} {k : Nat}
    (h : (List.range 32).map raw = lfnSlot name checksum k) (hk : 1 ≤ k) (hmax : k ≤ 20) (state : LfnState)
    (hi : i < 256) :
    (storeUnits raw state).name[i] =
      if (k - 1) * 13 ≤ i ∧ i < (k - 1) * 13 + 13 ∧ i < 255 then unitChar state.name[i] (lfnUnit name i)
      else state.name[i] := by
  obtain ⟨_, hform, _, hslot, _⟩ := slot_head h hk hmax
  have hplace : (slotOf raw - 1).toNat = k - 1 := by
    rw [UInt8.toNat_sub_of_le _ _ (UInt8.le_iff_toNat_le.mpr (by rw [hslot]; exact hk)), hslot]
    rfl
  have hrange : storeUnits raw state = (List.range 13).foldl
      (fun state c =>
        fatLfnStoreNamePart state (slotOf raw) c (lfnUnit name ((k - 1) * 13 + c))) state := by
    have hparts : List.range 13 = (fatLfnUnitOffsets.zipIdx).map Prod.snd := by decide
    rw [storeUnits, hparts, List.foldl_map]
    refine List.foldl_ext _ _ _ fun state part hpart => ?_
    rw [slot_unit h part hpart]
  rw [hrange, store_range state hform.2.2.1 _ 13 hi, hplace]
  by_cases hin : (k - 1) * 13 ≤ i ∧ i < (k - 1) * 13 + 13 ∧ i < 255
  · rw [if_pos hin, if_pos hin, Nat.add_sub_cancel' hin.1]
  · rw [if_neg hin, if_neg hin]

/-! ### Collecting the slots -/

section collecting
variable {name : List UInt8} {checksum : UInt8} {k : Nat}
variable {state : LfnState} {raw : Buffer}

/-- The collector has the slots of the name from the last one down to slot `k`. -/
structure Collected (state : LfnState) (name : List UInt8) (checksum : UInt8) (k : Nat) : Prop where
  active : state.active = true
  total : state.totalSlots.toNat = lfnSlotCount name
  sum : state.checksum = checksum
  chars : ∀ (i : Nat) (hi : i < 256), state.name[i] = if (k - 1) * 13 ≤ i then name.getD i 0 else 0

/-- What is asked of a name: up to 255 characters, and none of them needs more than seven bits. -/
structure PlainName (name : List UInt8) : Prop where
  positive : 1 ≤ name.length
  short : name.length ≤ 255
  plain : ∀ c ∈ name, 0x01 ≤ c ∧ c ≤ 0x7E

theorem PlainName.count (h : PlainName name) : 1 ≤ lfnSlotCount name ∧ lfnSlotCount name ≤ 20 := by
  have h1 := h.positive
  have h2 := h.short
  unfold lfnSlotCount
  omega

theorem PlainName.unitChar_eq (h : PlainName name) (i : Nat) :
    unitChar 0 (lfnUnit name i) = name.getD i 0 := by
  unfold unitChar lfnUnit
  by_cases hin : i < name.length
  · have hmem : name.getD i 0 ∈ name := by
      rw [List.getD_eq_getElem _ _ hin]
      exact List.getElem_mem hin
    obtain ⟨hlow, hhigh⟩ := h.plain _ hmem
    generalize name.getD i 0 = c at hlow hhigh
    have hwide : c.toUInt16.toNat = c.toNat := UInt8.toNat_toUInt16 c
    have hlow' : 1 ≤ c.toNat := UInt8.le_iff_toNat_le.mp hlow
    have hhigh' : c.toNat ≤ 126 := UInt8.le_iff_toNat_le.mp hhigh
    have hne : ∀ unit : UInt16, unit.toNat ≠ c.toNat → c.toUInt16 ≠ unit := by
      rintro unit hunit rfl
      exact hunit hwide
    rw [if_pos hin, if_neg (hne 0x0000 (by change 0 ≠ _; omega)),
      if_neg (hne 0xFFFF (by change 65535 ≠ _; omega)),
      fatLfnAsciiChar, if_pos (UInt16.le_iff_toNat_le.mpr (by rw [hwide]; exact hhigh')),
      UInt8.toUInt8_toUInt16]
  · have hdefault : name.getD i 0 = 0 := List.getD_eq_default _ _ (Nat.not_lt.mp hin)
    rw [if_neg hin, hdefault]
    by_cases hend : i = name.length
    · rw [if_pos hend, if_pos rfl]
    · rw [if_neg hend, if_neg (by decide), if_pos rfl]

theorem PlainName.stored_chars (hname : PlainName name)
    (h : (List.range 32).map raw = lfnSlot name checksum k) (hk : 1 ≤ k) (hmax : k ≤ 20)
    (hchars : ∀ (i : Nat) (hi : i < 256), state.name[i] = if k * 13 ≤ i then name.getD i 0 else 0) (i : Nat)
    (hi : i < 256) : (storeUnits raw state).name[i] = if (k - 1) * 13 ≤ i then name.getD i 0 else 0 := by
  have hstep : (k - 1) * 13 + 13 = k * 13 := by omega
  rw [storeUnits_name h hk hmax state hi, hstep, hchars i hi]
  by_cases hlow : (k - 1) * 13 ≤ i
  · by_cases hhigh : i < k * 13
    · rw [if_neg (Nat.not_le.mpr hhigh), if_pos hlow, hname.unitChar_eq]
      by_cases hlast : i < 255
      · rw [if_pos ⟨hlow, hhigh, hlast⟩]
      · have hshort := hname.short
        rw [if_neg fun h => hlast h.2.2, List.getD_eq_default _ _ (by omega)]
    · rw [if_neg fun h => hhigh h.2.1, if_pos (Nat.not_lt.mp hhigh), if_pos hlow]
  · rw [if_neg fun h => hlow h.1, if_neg (by omega), if_neg hlow]

theorem PlainName.collected_first (hname : PlainName name)
    (h : (List.range 32).map raw = lfnSlot name checksum (lfnSlotCount name)) (state : LfnState) :
    Collected (lfnAfter state raw) name checksum (lfnSlotCount name) := by
  obtain ⟨hpos, hmax⟩ := hname.count
  obtain ⟨hlfn, hform, hflag, hslot, hsum⟩ := slot_head h hpos hmax
  have hview := collect_first hlfn (hflag.mpr rfl) hform state
  obtain ⟨seenMask, hstate⟩ := lfnAfter_first hlfn (hflag.mpr rfl) hform state
  simp only [LfnState.view, Prod.mk.injEq] at hview
  refine ⟨hview.1, by rw [hview.2.1, hslot], by rw [hview.2.2.1, hsum], ?_⟩
  rw [hstate]
  apply hname.stored_chars h hpos hmax
  intro i hi
  have hempty : ∀ i, lfnSlotCount name * 13 ≤ i → name.getD i 0 = 0 := by
    intro i hle
    unfold lfnSlotCount at hle
    exact List.getD_eq_default _ _ (by omega)
  rw [Vector.getElem_replicate]
  split
  · next hle => exact (hempty i hle).symm
  · rfl

theorem PlainName.collected_next (hname : PlainName name)
    (hstate : Collected state name checksum (k + 1)) (h : (List.range 32).map raw = lfnSlot name checksum k)
    (hk : 1 ≤ k) (hlt : k < lfnSlotCount name) : Collected (lfnAfter state raw) name checksum k := by
  obtain ⟨_, hmax⟩ := hname.count
  obtain ⟨hlfn, hform, hflag, hslot, hsum⟩ := slot_head h hk (by omega)
  have hcontinues : Continues raw state.totalSlots state.checksum := by
    refine ⟨fun hf => absurd (hflag.mp hf) (by omega), hform, ?_, by rw [hsum, hstate.sum]⟩
    rw [UInt8.le_iff_toNat_le, hslot, hstate.total]
    exact hlt.le
  have htotal : state.totalSlots ≠ 0 := by
    intro hzero
    have := hstate.total
    rw [hzero] at this
    change 0 = _ at this
    omega
  have hview := collect_next hlfn hstate.active htotal hcontinues
  obtain ⟨seenMask, hafter⟩ := lfnAfter_next hlfn hstate.active htotal hcontinues
  simp only [LfnState.view, Prod.mk.injEq] at hview
  refine ⟨hview.1, by rw [hview.2.1, hstate.total], by rw [hview.2.2.1, hstate.sum], ?_⟩
  rw [hafter]
  exact hname.stored_chars h hk (by omega) fun i hi => hstate.chars i hi

theorem PlainName.collected_take (hname : PlainName name) {slots : List Buffer}
    (hslots : EncodesName slots name checksum) (before : List Buffer) (m : Nat)
    (hm : m < lfnSlotCount name) :
    Collected (lfnStateAfter (before ++ slots.take (m + 1))) name checksum (lfnSlotCount name - m) := by
  have hget : ∀ j < lfnSlotCount name, ∃ raw, slots[j]? = some raw := fun j hj =>
    ⟨_, List.getElem?_eq_getElem (by rw [hslots.length]; exact hj)⟩
  induction m with
  | zero =>
    obtain ⟨raw, hraw⟩ := hget 0 hm
    rw [List.take_add_one, hraw, lfnStateAfter_append]
    exact hname.collected_first (hslots.slot 0 raw hraw) _
  | succ m ih =>
    obtain ⟨raw, hraw⟩ := hget (m + 1) hm
    have hkey := hslots.slot (m + 1) raw hraw
    have hstate := ih (by omega)
    rw [show lfnSlotCount name - m = lfnSlotCount name - (m + 1) + 1 by omega] at hstate
    rw [List.take_add_one, hraw, ← List.append_assoc, lfnStateAfter_append]
    exact hname.collected_next hstate hkey (by omega) (by omega)

theorem PlainName.collected_all (hname : PlainName name) {slots : List Buffer}
    (hslots : EncodesName slots name checksum) (before : List Buffer) :
    Collected (lfnStateAfter (before ++ slots)) name checksum 1 := by
  obtain ⟨hpos, _⟩ := hname.count
  have hall := hname.collected_take hslots before (lfnSlotCount name - 1) (by omega)
  rwa [Nat.sub_add_cancel hpos, ← hslots.length, List.take_length, hslots.length,
    show lfnSlotCount name - (lfnSlotCount name - 1) = 1 by omega] at hall

theorem Collected.displayName (h : Collected state name checksum 1) (hname : PlainName name) :
    (state.name.toList.take fatNameMax).takeWhile (· ≠ 0) = name := by
  have hshort := hname.short
  have hchars : state.name.toList.take fatNameMax = name ++ List.replicate (255 - name.length) 0 := by
    apply List.ext_getElem
    · simp [fatNameMax]
      omega
    · intro i hi _
      rw [List.length_take, Vector.length_toList] at hi
      have hlt : i < 256 := by omega
      rw [List.getElem_take, Vector.getElem_toList, h.chars i hlt, if_pos (Nat.zero_le _)]
      by_cases hin : i < name.length
      · rw [List.getElem_append_left hin, List.getD_eq_getElem _ _ hin]
      · rw [List.getElem_append_right (Nat.not_lt.mp hin), List.getElem_replicate,
          List.getD_eq_default _ _ (Nat.not_lt.mp hin)]
  have hnonzero : ∀ c ∈ name, decide (c ≠ 0) = true := by
    intro c hc
    obtain ⟨hlow, _⟩ := hname.plain c hc
    rw [decide_eq_true_eq]
    rintro rfl
    exact absurd hlow (by decide)
  rw [hchars, List.takeWhile_append_of_pos hnonzero]
  cases hrest : 255 - name.length with
  | zero => simp
  | succ n => simp [List.replicate_succ]

end collecting

theorem reportsAfter_slots (fs : FatFs) (before : List Buffer) {slots : List Buffer}
    (h : ∀ s ∈ slots, IsLfn s) :
    reportsAfter fs before slots = [] := by
  induction slots generalizing before with
  | nil => rfl
  | cons s slots ih =>
    obtain ⟨h0, hE5, hattr⟩ := h s (List.mem_cons_self ..)
    rw [reportsAfter, ih _ fun s' hs' => h s' (List.mem_cons_of_mem _ hs'), reportedFor,
      if_neg h0, if_neg hE5, if_pos hattr]
    rfl

theorem Collected.reportedFor {name : List UInt8} {raw : Buffer} {state : LfnState}
    (h : Collected state name (fatShortNameChecksum (rawNameOf raw)) 1) (hname : PlainName name)
    (hshort : IsShort raw) (fs : FatFs) :
    ∃ e : Dirent, reportedFor fs state raw = some e ∧ e.rawName = rawNameOf raw ∧
      e.attributes = raw 11 ∧ e.hasLongName = true ∧ e.displayName = name := by
  obtain ⟨h0, hE5, hattr⟩ := hshort
  have hrawName : (fatDirentFromRaw raw 0).rawName = rawNameOf raw := by simp [fatDirentFromRaw, rawNameOf]
  have hattributes : (fatDirentFromRaw raw 0).attributes = raw 11 := rfl
  have hfirst : state.name[0] ≠ 0 := by
    have hpos := hname.positive
    rw [h.chars 0 (by decide), if_pos (Nat.zero_le _), List.getD_eq_getElem _ _ hpos]
    intro hzero
    have hlow := (hname.plain _ (List.getElem_mem hpos)).1
    rw [hzero] at hlow
    exact absurd hlow (by decide)
  refine ⟨fatShortDirent fs raw 0 state, ?_, ?_⟩
  · rw [Fat.reportedFor, if_neg h0, if_neg hE5, if_neg hattr]
  · have hheld : state.active = true ∧
        state.checksum = fatShortNameChecksum (fatDirentFromRaw raw 0).rawName ∧
        state.name[0] ≠ 0 := ⟨h.active, by rw [h.sum, hrawName], hfirst⟩
    unfold fatShortDirent
    dsimp only
    rw [if_pos hheld, h.displayName hname]
    split
    · exact ⟨hrawName, hattributes, rfl, rfl⟩
    · exact ⟨hrawName, hattributes, rfl, rfl⟩

/-- **Long names are decoded as they were encoded.** The sectors of a directory hold, behind
whatever comes first, the slots of a name and then a short entry, cut into sectors anywhere.
Visiting them reports what came before, then this entry with the name as its display name, and then
the rest. -/
theorem long_name_round_trip {fs : FatFs} {sectors before slots after : List Buffer} {raw : Buffer}
    {name : List UInt8} (hname : PlainName name) (hshort : IsShort raw)
    (hslots : EncodesName slots name (fatShortNameChecksum (rawNameOf raw)))
    (hlayout : fed fs sectors = before ++ slots ++ raw :: after) :
    ∃ e : Dirent,
      (visitSectors fs sectors).2 = (reportsAfter fs [] before).map Report.dirent ++
        e :: (reportsAfter fs (before ++ slots ++ [raw]) after).map Report.dirent ∧
      e.rawName = rawNameOf raw ∧ e.attributes = raw 11 ∧ e.hasLongName = true ∧ e.displayName = name := by
  obtain ⟨hpos, hmax⟩ := hname.count
  have hlfn : ∀ s ∈ slots, IsLfn s := by
    intro s hs
    obtain ⟨j, hj, rfl⟩ := List.getElem_of_mem hs
    have hlt := hslots.length
    exact (slot_head (hslots.slot j _ (List.getElem?_eq_getElem hj)) (by omega) (by omega)).1
  have hstate := hname.collected_all hslots before
  obtain ⟨e, he, hraw, hattributes, hlong, hdisplay⟩ := hstate.reportedFor hname hshort fs
  refine ⟨e, ?_, hraw, hattributes, hlong, hdisplay⟩
  rw [visitSectors_reports, hlayout, reportsAfter_append, reportsAfter_append, List.nil_append,
    List.nil_append, reportsAfter_slots fs before hlfn, List.append_nil, reportsAfter, he]
  simp

def nameAcross : List UInt8 :=
  [97, 45, 110, 97, 109, 101, 45, 111, 102, 45, 50, 48, 45, 99, 104, 97, 114, 115, 46, 120]

def shortAcross : List UInt8 := [65, 78, 65, 77, 69, 79, 126, 49, 88, 32, 32]

/-- The first of two sectors of a directory: deleted entries and, at its end, the second slot of the
name. -/
def firstAcross : Buffer := fun i =>
  if i < 480 then 0xE5 else (lfnSlot nameAcross (fatShortNameChecksum shortAcross) 2).getD (i - 480) 0

/-- The other sector begins with the first slot and the short entry. -/
def secondAcross : Buffer := fun i =>
  (lfnSlot nameAcross (fatShortNameChecksum shortAcross) 1 ++ shortAcross).getD i 0

theorem slots_across :
    EncodesName [entryAt firstAcross 480, entryAt secondAcross 0] nameAcross
        (fatShortNameChecksum shortAcross) where
  length := rfl
  slot := by
    intro j raw hraw
    match j, hraw with
    | 0, hraw =>
      obtain rfl := Option.some.inj hraw
      decide +kernel
    | 1, hraw =>
      obtain rfl := Option.some.inj hraw
      decide +kernel

theorem layout_across :
    fed floppyVolume [firstAcross, secondAcross] =
      (List.range 15).map (fun i => entryAt firstAcross (32 * i)) ++ [entryAt firstAcross 480,
        entryAt secondAcross 0] ++ entryAt secondAcross 32 :: [entryAt secondAcross 64] := by
  rfl

theorem name_across_sectors : ∃ e ∈ (visitSectors floppyVolume [firstAcross, secondAcross]).2,
    e.rawName = shortAcross ∧ e.hasLongName = true ∧ e.displayName = nameAcross := by
  have hname : PlainName nameAcross :=
    ⟨by decide, by decide, List.all_iff_forall_prop.mp (by decide)⟩
  have hshort : IsShort (entryAt secondAcross 32) := by decide +kernel
  have hraw : rawNameOf (entryAt secondAcross 32) = shortAcross := by decide +kernel
  obtain ⟨e, hreports, he, _, hlong, hdisplay⟩ :=
    long_name_round_trip hname hshort (by rw [hraw]; exact slots_across) layout_across
  rw [hraw] at he
  refine ⟨e, ?_, he, hlong, hdisplay⟩
  rw [hreports]
  simp

end TermobKernel.Fat

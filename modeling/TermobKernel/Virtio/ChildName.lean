import TermobKernel.Heap.FirstFit
import TermobKernel.Library.Text
import TermobKernel.Driver.Model

/-!
# The names of the virtio child devices

`virtio_build_child_name` of `drivers/virtio.c` puts `@BB:SS.F` behind the name of the device type,
in memory that it takes from `kmalloc`. Eight bytes are requested besides the name, but the suffix
has eight characters and a terminator: the terminator is stored at the index that is the byte count
requested. `kmalloc` rounds the count up to 16 bytes, so that the store leaves the block only behind
a type name of 8, 24, 40, … characters, and the table of the driver has none of these.
-/

namespace TermobKernel.Virtio
open Text
open Heap (HeapFits Reachable kmalloc heapAlignUp heapAlignment firstFit)

variable {text : List UInt8}

/-! ## The stores -/

structure Put where
  index : UInt32
  value : UInt8
  deriving DecidableEq, Repr

def putAll (name : UInt32) (m : Mem) (puts : List Put) : Mem :=
  puts.foldl (fun m p => m.store8 (name + p.index) p.value) m

def spell : UInt32 → List UInt8 → List Put
  | _, [] => []
  | index, b :: bs => ⟨index, b⟩ :: spell (index + 1) bs

/-- The length of a string: its bytes up to the first zero, or all of them if the terminator comes next. -/
def stringLength : List UInt8 → UInt32
  | [] => 0
  | c :: text => if c = 0 then 0 else stringLength text + 1

/-- The loop of `virtio_copy_text` from `index` on, with the rest of the source text, and the terminator. -/
def virtioCopyLoop (capacity : UInt32) : UInt32 → List UInt8 → List Put
  | index, [] => [⟨index, 0⟩]
  | index, c :: src =>
    if index + 1 < capacity ∧
        c ≠ 0 then ⟨index, c⟩ :: virtioCopyLoop capacity (index + 1) src else [⟨index, 0⟩]

def virtioCopyText (capacity : UInt32) (src : List UInt8) : List Put :=
  if capacity = 0 then [] else virtioCopyLoop capacity 0 src

/-! ## The name -/

def virtioDeviceTypeName (deviceId : UInt16) : List UInt8 := ascii (Driver.virtioDeviceTypeName deviceId)

def hexDigits : List UInt8 := ascii "0123456789ABCDEF"

def hexDigit (value : UInt8) : UInt8 := hexDigits.getD value.toNat 0

/-- The characters `@BB:SS.F` as the function computes them. -/
def childSuffix (bus slot function : UInt8) : List UInt8 :=
  [0x40, hexDigit ((bus >>> 4) &&& 0x0F), hexDigit (bus &&& 0x0F), 0x3A, hexDigit ((slot >>> 4) &&& 0x0F),
    hexDigit (slot &&& 0x0F), 0x2E, hexDigit (function &&& 0x07)]

/-- The byte count that `virtio_build_child_name` requests. -/
def childNameBytes (typeName : List UInt8) : UInt32 := stringLength typeName + 8

/-- The stores of `virtio_build_child_name` once it has its memory. -/
def childNamePuts (typeName : List UInt8) (bus slot function : UInt8) : List Put :=
  virtioCopyText (childNameBytes typeName) typeName ++
    spell (stringLength typeName) (childSuffix bus slot function ++ [0])

/-- `virtio_build_child_name` behind the lookup of the type name: the pointer, the stores made and
the heap. -/
def buildChildName (heap : Heap.State) (typeName : List UInt8) (bus slot function : UInt8) :
    Option (UInt32 × List Put × Heap.State) :=
  match kmalloc heap (childNameBytes typeName) with
  | none => none
  | some (name, heap) =>
    if name = 0 then some (0, [], heap)
    else
      let puts := childNamePuts typeName bus slot function
      some (name, puts, { heap with mem := putAll name heap.mem puts })

def virtioBuildChildName (heap : Heap.State) (deviceId : UInt16) (bus slot function : UInt8) :
    Option (UInt32 × List Put × Heap.State) :=
  buildChildName heap (virtioDeviceTypeName deviceId) bus slot function

/-! ## What stands in memory -/

/-- The string `text` and its terminator stand at `a`. -/
def Spelled (m : Mem) (a : UInt32) (text : List UInt8) : Prop :=
  ∀ k < text.length + 1, (text ++ [0])[k]? = some (m (a + UInt32.ofNat k))

def characters (text : List UInt8) : List UInt8 := text.takeWhile (· ≠ 0)

theorem ofNat_succ_add (a : UInt32) (k : Nat) : a + 1 + UInt32.ofNat k = a + UInt32.ofNat (k + 1) := by
  rw [UInt32.ofNat_add, UInt32.add_assoc, UInt32.add_comm 1]
  rfl

theorem characters_cons {c : UInt8} (hc : c ≠ 0) (text : List UInt8) :
    characters (c :: text) = c :: characters text :=
  List.takeWhile_cons_of_pos (by simpa using hc)

theorem stringLength_eq (text : List UInt8) :
    stringLength text = UInt32.ofNat (characters text).length := by
  induction text with
  | nil => rfl
  | cons c text ih =>
    by_cases hc : c = 0
    · simp [stringLength, characters, hc]
    · rw [stringLength, if_neg hc, ih, characters_cons hc, List.length_cons, UInt32.ofNat_add]
      rfl

theorem childNameBytes_toNat (hshort : (characters text).length + 8 < 2 ^ 32) :
    (childNameBytes text).toNat = (characters text).length + 8 := by
  rw [childNameBytes, stringLength_eq, UInt32.toNat_add,
    UInt32.toNat_ofNat_of_lt' (by change _ < 2 ^ 32; omega)]
  exact Nat.mod_eq_of_lt hshort

section Stores

variable {name : UInt32}

theorem putAll_append (m : Mem) (ps qs : List Put) :
    putAll name m (ps ++ qs) = putAll name (putAll name m ps) qs := List.foldl_append

theorem putAll_outside {puts : List Put} {i : UInt32} (hputs : ∀ p ∈ puts, p.index ≠ i) (m : Mem) :
    putAll name m puts (name + i) = m (name + i) := by
  induction puts generalizing m with
  | nil => rfl
  | cons p puts ih =>
    have hp : name + i ≠ name + p.index := fun h =>
      hputs p (by simp) ((UInt32.add_right_inj name).mp h).symm
    rw [putAll, List.foldl_cons, ← putAll, ih (fun q hq => hputs q (by simp [hq])), Mem.store8, if_neg hp]

theorem index_spell {bs : List UInt8} : ∀ {index : UInt32} {p : Put}, p ∈ spell index bs →
    ∃ k < bs.length, p.index = index + UInt32.ofNat k := by
  induction bs with
  | nil => simp [spell]
  | cons b bs ih =>
    intro index p hp
    rcases List.mem_cons.mp hp with rfl | hp
    · exact ⟨0, by simp, by simp⟩
    · obtain ⟨k, hk, hindex⟩ := ih hp
      exact ⟨k + 1, by simpa using hk, by rw [hindex, ofNat_succ_add]⟩

theorem putAll_spell {bs : List UInt8} (hlen : bs.length ≤ 2 ^ 32) : ∀ (index : UInt32) (m : Mem) {k : Nat},
    k < bs.length → bs[k]? = some (putAll name m (spell index bs) (name + (index + UInt32.ofNat k))) := by
  induction bs with
  | nil => simp
  | cons b bs ih =>
    intro index m k hk
    rw [spell, putAll, List.foldl_cons, ← putAll]
    rw [List.length_cons] at hlen
    cases k with
    | zero =>
      -- The later stores go to the indices above, and these do not come round to `index`.
      have habove : ∀ p ∈ spell (index + 1) bs, p.index ≠ index + UInt32.ofNat 0 := by
        intro p hp h
        obtain ⟨j, hj, hindex⟩ := index_spell hp
        rw [hindex, ofNat_succ_add] at h
        have h0 := congrArg UInt32.toNat ((UInt32.add_right_inj index).mp h)
        rw [UInt32.toNat_ofNat_of_lt' (by change j + 1 < 2 ^ 32; omega)] at h0
        simp at h0
      rw [putAll_outside habove]
      simp [Mem.store8]
    | succ k =>
      rw [List.getElem?_cons_succ, ← ofNat_succ_add]
      exact ih (by omega) _ _ (by simpa using hk)

end Stores

theorem virtioCopyLoop_eq {capacity : UInt32} : ∀ {index : UInt32},
    index.toNat + (characters text).length + 8 ≤ capacity.toNat →
      virtioCopyLoop capacity index text =
        spell index (characters text) ++ [⟨index + UInt32.ofNat (characters text).length, 0⟩] := by
  induction text with
  | nil => simp [virtioCopyLoop, characters, spell]
  | cons c text ih =>
    intro index hroom
    by_cases hc : c = 0
    · simp [virtioCopyLoop, characters, spell, hc]
    · rw [characters_cons hc, List.length_cons] at hroom ⊢
      have hcapacity := capacity.toNat_lt
      have hnext : (index + 1).toNat = index.toNat + 1 := Word.toNat_add_of_lt (by change _ + 1 < _; omega)
      have hlt : index + 1 < capacity := by
        rw [UInt32.lt_iff_toNat_lt, hnext]
        omega
      rw [virtioCopyLoop, if_pos ⟨hlt, hc⟩, ih (by rw [hnext]; omega), spell, ofNat_succ_add,
        List.cons_append]

theorem virtioCopyText_eq (hshort : (characters text).length + 8 < 2 ^ 32) :
    virtioCopyText (childNameBytes text) text =
      spell 0 (characters text) ++ [⟨stringLength text, 0⟩] := by
  have hbytes := childNameBytes_toNat hshort
  have hne : childNameBytes text ≠ 0 := by
    intro h0
    rw [h0, UInt32.toNat_zero] at hbytes
    omega
  rw [virtioCopyText, if_neg hne, virtioCopyLoop_eq (by rw [hbytes, UInt32.toNat_zero]; omega),
    UInt32.zero_add, stringLength_eq]

theorem childNamePuts_spelled {typeName : List UInt8} (hshort : (characters typeName).length + 9 ≤ 2 ^ 32)
    (name : UInt32) (m : Mem) (bus slot function : UInt8) :
    Spelled (putAll name m (childNamePuts typeName bus slot function)) name
      (characters typeName ++ childSuffix bus slot function) := by
  intro k hk
  have hsuffix : (childSuffix bus slot function ++ [0]).length = 9 := rfl
  rw [childNamePuts, virtioCopyText_eq (by omega), putAll_append, putAll_append, List.append_assoc]
  rw [List.length_append, Nat.add_assoc] at hk
  change k < _ + 9 at hk
  by_cases hfront : k < (characters typeName).length
  · -- A character of the type name: the terminator of the copy and the suffix are stored behind it.
    have hk32 : (UInt32.ofNat k).toNat = k := UInt32.toNat_ofNat_of_lt' (by change k < 2 ^ 32; omega)
    have hbehind : ∀ j < 9, stringLength typeName + UInt32.ofNat j ≠ UInt32.ofNat k := by
      intro j hj h
      have hsum := congrArg UInt32.toNat h
      rw [stringLength_eq, hk32, ← UInt32.ofNat_add,
        UInt32.toNat_ofNat_of_lt' (by change _ < 2 ^ 32; omega)] at hsum
      omega
    rw [List.getElem?_append_left hfront, putAll_outside, putAll_outside]
    · simpa using putAll_spell (by omega) 0 m hfront
    · intro p hp
      obtain rfl := List.mem_singleton.mp hp
      simpa using hbehind 0 (by omega)
    · intro p hp
      obtain ⟨j, hj, hindex⟩ := index_spell hp
      rw [hindex]
      exact hbehind j (by omega)
  · have hback : k - (characters typeName).length < (childSuffix bus slot function ++ [0]).length :=
      by omega
    rw [List.getElem?_append_right (by omega), putAll_spell (by omega) (stringLength typeName) _ hback,
      stringLength_eq, ← UInt32.ofNat_add]
    congr 4
    omega

/-! ## The byte count -/

/-- What the caller may count on: every store stays below the byte count requested, and the name
stands in memory. -/
structure NameFits (typeName : List UInt8) (bus slot function : UInt8) (name : UInt32) (puts : List Put)
    (heap : Heap.State) : Prop where
  inside : ∀ p ∈ puts, p.index < childNameBytes typeName
  spelled : Spelled heap.mem name (characters typeName ++ childSuffix bus slot function)

theorem terminator_mem (typeName : List UInt8) (bus slot function : UInt8) :
    ⟨childNameBytes typeName, 0⟩ ∈ childNamePuts typeName bus slot function := by
  have hindex : childNameBytes typeName = stringLength typeName + 1 + 1 + 1 + 1 + 1 + 1 + 1 + 1 := by
    simp only [UInt32.add_assoc]
    rfl
  rw [hindex]
  simp [childNamePuts, childSuffix, spell]

theorem index_spell_le {bs : List UInt8} {index : UInt32} {p : Put} (hp : p ∈ spell index bs)
    (hlen : index.toNat + bs.length ≤ 2 ^ 32) : p.index.toNat < index.toNat + bs.length := by
  obtain ⟨k, hk, hindex⟩ := index_spell hp
  have hk32 : (UInt32.ofNat k).toNat = k := UInt32.toNat_ofNat_of_lt' (by change k < 2 ^ 32; omega)
  rw [hindex, Word.toNat_add_of_lt (by rw [hk32]; omega), hk32]
  omega

theorem spell_append (index : UInt32) (bs cs : List UInt8) :
    spell index (bs ++ cs) = spell index bs ++ spell (index + UInt32.ofNat bs.length) cs := by
  induction bs generalizing index with
  | nil => simp [spell]
  | cons b bs ih => rw [List.cons_append, spell, spell, ih, ofNat_succ_add, List.cons_append,
      List.length_cons]

theorem childNamePuts_inside {typeName : List UInt8} (hshort : (characters typeName).length + 9 ≤ 2 ^ 32)
    (bus slot function : UInt8) : ∀ p ∈ childNamePuts typeName bus slot function,
      p.index < childNameBytes typeName ∨ p = ⟨childNameBytes typeName, 0⟩ := by
  intro p hp
  have hbytes : (childNameBytes typeName).toNat = (characters typeName).length + 8 :=
    childNameBytes_toNat (by omega)
  have hlength : (stringLength typeName).toNat = (characters typeName).length := by
    rw [stringLength_eq, UInt32.toNat_ofNat_of_lt' (by change _ < 2 ^ 32; omega)]
  have hsuffix : (childSuffix bus slot function).length = 8 := rfl
  rw [childNamePuts, virtioCopyText_eq (by omega), spell_append] at hp
  simp only [List.mem_append, UInt32.lt_iff_toNat_lt, hbytes] at hp ⊢
  rcases hp with (hcopy | hend) | hchars | hlast
  · have hlt := index_spell_le hcopy (by rw [UInt32.toNat_zero]; omega)
    rw [UInt32.toNat_zero] at hlt
    exact Or.inl (by omega)
  · obtain rfl := List.mem_singleton.mp hend
    exact Or.inl (by change (stringLength typeName).toNat < _; omega)
  · have hlt := index_spell_le hchars (by omega)
    exact Or.inl (by omega)
  · exact Or.inr (List.mem_singleton.mp hlast)

/-- No free block can serve a request of `bytes` bytes. -/
def NoRoom (heap : Heap.State) (bytes : UInt32) : Prop :=
  bytes = 0 ∨ firstFit (Heap.blocks heap) (heapAlignUp bytes heapAlignment) = none

theorem kmalloc_null_iff {kernelEnd : UInt32} (hfits : HeapFits kernelEnd) {heap : Heap.State}
    (hreach : Reachable kernelEnd heap) (bytes : UInt32) :
    ∃ name heap', kmalloc heap bytes = some (name, heap') ∧ (name = 0 ↔ NoRoom heap bytes) := by
  rcases hreach.kmalloc_cases hfits bytes with
    ⟨heap', hk, hnone⟩ | ⟨b, heap', hrep, hmem, hne, hb, hfit, hk⟩
  · exact ⟨0, heap', hk, iff_of_true rfl hnone⟩
  · refine ⟨_, heap', hk, iff_of_false (hrep.phys.payload_ne_zero hmem) ?_⟩
    rintro (h0 | hnone)
    · exact hne h0
    · exact List.find?_eq_none.mp hnone b hmem (by simp [hb, hfit])

/-- **No child name fits.** For no type name, bus, slot and function does a call return a name and
keep to the byte count that it requested. It does return null exactly when the heap has no block for
the name, the text is the one that was meant, and the terminator is the one store outside. -/
theorem child_name_never_fits {kernelEnd : UInt32} (hfits : HeapFits kernelEnd) {heap : Heap.State}
    (hreach : Reachable kernelEnd heap) (typeName : List UInt8) (bus slot function : UInt8) :
    ∃ name puts heap', buildChildName heap typeName bus slot function = some (name, puts, heap') ∧
      ¬(name ≠ 0 ∧ NameFits typeName bus slot function name puts heap') ∧
      (name = 0 ↔ NoRoom heap (childNameBytes typeName)) ∧
      (name ≠ 0 → (characters typeName).length + 9 ≤ 2 ^ 32 →
        Spelled heap'.mem name (characters typeName ++ childSuffix bus slot function) ∧
        ∀ p ∈ puts, p.index < childNameBytes typeName ∨ p = ⟨childNameBytes typeName, 0⟩) := by
  obtain ⟨name, heap', hk, hnull⟩ := kmalloc_null_iff hfits hreach (childNameBytes typeName)
  rw [buildChildName, hk]
  by_cases h0 : name = 0
  · subst h0
    exact ⟨0, [], heap', rfl, fun h => h.1 rfl, hnull, fun h => absurd rfl h⟩
  · refine ⟨name, _, _, if_neg h0, ?_, hnull, ?_⟩
    · rintro ⟨_, hname⟩
      exact UInt32.lt_irrefl _ (hname.inside _ (terminator_mem typeName bus slot function))
    · intro _ hshort
      exact ⟨childNamePuts_spelled hshort name _ bus slot function,
        childNamePuts_inside hshort bus slot function⟩

theorem child_name_never_fits_at_boot :
    ∃ name puts heap',
        buildChildName (Heap.heapInit 0x00200000 Heap.bootState) (ascii "virtio-block") 0 3 0 =
          some (name, puts, heap') ∧
      name = 0x00200020 ∧ ¬NameFits (ascii "virtio-block") 0 3 0 name puts heap' ∧
      Spelled heap'.mem name (ascii "virtio-block@00:03.0") := by
  have haddress : (buildChildName (Heap.heapInit 0x00200000 Heap.bootState) (ascii "virtio-block") 0
      3 0).map (·.1) = some 0x00200020 := by
    decide +kernel
  obtain ⟨name, puts, heap', hbuild, hnever, _, hright⟩ :=
    @child_name_never_fits 0x00200000 (by decide) _ Heap.reachable_init (ascii "virtio-block") 0 3 0
  rw [hbuild] at haddress
  have hname : name = 0x00200020 := Option.some.inj haddress
  have hne : name ≠ 0 := by
    rw [hname]
    decide
  exact ⟨name, puts, heap', hbuild, hname, fun h => hnever ⟨hne, h⟩, (hright hne (by decide)).1⟩

/-- The block device in slot 3 after `heap_init`: 20 bytes are requested, and the terminator goes to
index 20. -/
theorem child_name_overrun :
    childNameBytes (virtioDeviceTypeName 0x1001) = 20 ∧
      (virtioBuildChildName (Heap.heapInit 0x00200000 Heap.bootState) 0x1001 0 3 0).map
          (fun r => (r.1, r.2.1.getLast?)) = some (0x00200020, some ⟨20, 0⟩) := by
  decide +kernel

/-! ## The names of the driver -/

theorem childNamePuts_in_block (hshort : (characters text).length + 24 ≤ 2 ^ 32)
    (hroom : (characters text).length % 16 ≠ 8) (bus slot function : UInt8) :
    ∀ p ∈ childNamePuts text bus slot function,
        p.index < heapAlignUp (childNameBytes text) heapAlignment := by
  intro p hp
  have hbytes : (childNameBytes text).toNat = (characters text).length + 8 :=
    childNameBytes_toNat (by omega)
  have hle : p.index ≤ childNameBytes text := by
    rcases childNamePuts_inside (by omega) bus slot function p hp with hlt | rfl
    · exact UInt32.le_of_lt hlt
    · exact UInt32.le_refl _
  rw [UInt32.le_iff_toNat_le, hbytes] at hle
  rw [UInt32.lt_iff_toNat_lt, Heap.heapAlignUp_toNat, hbytes]
  omega

/-- The type names of the table have no zero in them, and none has 8 characters more than a multiple
of 16. -/
theorem virtioDeviceTypeName_plain (deviceId : UInt16) :
    characters (virtioDeviceTypeName deviceId) = virtioDeviceTypeName deviceId ∧
      (virtioDeviceTypeName deviceId).length ∈ [9, 10, 11, 12, 13, 14] := by
  unfold virtioDeviceTypeName Driver.virtioDeviceTypeName
  split
  all_goals try decide
  split
  · decide
  · split
    · decide
    · decide

theorem hexDigit_eq {value : UInt8} (h : value.toNat < 16) :
    hexDigit value = (Driver.hexDigit value).toNat.toUInt8 := by
  have hall : ∀ n < 16, hexDigits.getD n 0 = (Driver.hexDigits.getD n '0').toNat.toUInt8 := by decide
  exact hall _ h

theorem toNat_masked_lt (value mask : UInt8) (h : mask.toNat < 16) : (value &&& mask).toNat < 16 := by
  rw [UInt8.toNat_and]
  exact Nat.lt_of_le_of_lt Nat.and_le_right h

/-- The text that is meant is the name that the driver model gives the device. -/
theorem virtioBuildChildName_text (deviceId : UInt16) (bus slot function : UInt8) :
    characters (virtioDeviceTypeName deviceId) ++ childSuffix bus slot function =
      ascii (Driver.virtioBuildChildName deviceId bus slot function) := by
  rw [(virtioDeviceTypeName_plain deviceId).1]
  simp only [virtioDeviceTypeName, childSuffix, hexDigit_eq (toNat_masked_lt _ 0x0F (by decide)),
    hexDigit_eq (toNat_masked_lt _ 0x07 (by decide)), Driver.virtioBuildChildName,
    Driver.driverLogHex8, ascii, String.toList_ofList, List.map_append, List.append_assoc]
  rfl

/-- A name that the driver builds is the one that the driver model registers the device under, and
thanks to the rounding of the heap its terminator stays inside the block. -/
theorem virtioBuildChildName_names {kernelEnd : UInt32} (hfits : HeapFits kernelEnd) {heap : Heap.State}
    (hreach : Reachable kernelEnd heap) (deviceId : UInt16) (bus slot function : UInt8) :
    ∃ name puts heap', virtioBuildChildName heap deviceId bus slot function = some (name, puts, heap') ∧
      (name ≠ 0 → Spelled heap'.mem name (ascii (Driver.virtioBuildChildName deviceId bus slot function)) ∧
        ∀ p ∈ puts,
          p.index < heapAlignUp (childNameBytes (virtioDeviceTypeName deviceId)) heapAlignment) := by
  obtain ⟨hplain, hlength⟩ := virtioDeviceTypeName_plain deviceId
  rw [← hplain] at hlength
  simp only [List.mem_cons, List.not_mem_nil, or_false] at hlength
  obtain ⟨name, heap', hk, _⟩ :=
    kmalloc_null_iff hfits hreach (childNameBytes (virtioDeviceTypeName deviceId))
  rw [virtioBuildChildName, buildChildName, hk, ← virtioBuildChildName_text]
  by_cases h0 : name = 0
  · subst h0
    exact ⟨0, [], heap', rfl, fun h => absurd rfl h⟩
  · refine ⟨name, _, _, if_neg h0, fun _ => ⟨?_, ?_⟩⟩
    · exact childNamePuts_spelled (by omega) name _ bus slot function
    · exact childNamePuts_in_block (by omega) (by omega) bus slot function

end TermobKernel.Virtio

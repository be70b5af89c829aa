import TermobKernel.Fat.Table
import TermobKernel.Library.Digits
import Mathlib.Data.Bool.AllAny

/-!
# Packed entries of the allocation table

On the disk the entries of a table follow one another without gaps: three, four or eight hexadecimal digits
each, so that on FAT12 every other entry starts in the middle of a byte and some lie across two sectors. The
entry that `fat_read_fat_entry` returns is the one that was packed.
-/

namespace TermobKernel.Fat
open Digits

variable {cluster : UInt32}

theorem fatReadLe16_toNat (src : Buffer) (offset : Nat) :
    (fatReadLe16 src offset).toNat = window src (2 * offset) 4 := by
  have hlow := (src offset).toNat_lt
  have hhigh := (src (offset + 1)).toNat_lt
  have hor := Nat.two_pow_add_eq_or_of_lt hlow (src (offset + 1)).toNat
  rw [window_two_bytes, fatReadLe16, UInt16.toNat_or, UInt16.toNat_shiftLeft, UInt8.toNat_toUInt16,
    UInt8.toNat_toUInt16, Nat.shiftLeft_eq]
  change _ ||| _ * 2 ^ 8 % 2 ^ 16 = _
  rw [Nat.mod_eq_of_lt (by omega), Nat.or_comm, Nat.mul_comm, ← hor]
  omega

theorem fatReadLe32_toNat (src : Buffer) (offset : Nat) :
    (fatReadLe32 src offset).toNat = window src (2 * offset) 8 := by
  have hbyte : ∀ i, (src (offset + i)).toUInt32.toNat < 256 := fun i => (src (offset + i)).toNat_lt
  have h0 := hbyte 0
  have h1 := hbyte 1
  have h2 := hbyte 2
  have h3 := hbyte 3
  rw [Nat.add_zero] at h0
  -- the bytes are put together from the lowest one on
  have hor1 := toNat_or_shiftLeft (k := 8) (by decide) h0 (y := (src (offset + 1)).toUInt32)
    (by change 256 * _ < _; omega)
  change _ = _ + 256 * _ at hor1
  have hor2 := toNat_or_shiftLeft (k := 16) (by decide) (x := _) (by rw [hor1]; change _ < 65536; omega)
    (y := (src (offset + 2)).toUInt32) (by change 65536 * _ < _; omega)
  change _ = _ + 65536 * _ at hor2
  have hor3 := toNat_or_shiftLeft (k := 24) (by decide) (x := _)
    (by rw [hor2, hor1]; change _ < 16777216; omega)
    (y := (src (offset + 3)).toUInt32) (by change 16777216 * _ < _; omega)
  change _ = _ + 16777216 * _ at hor3
  rw [fatReadLe32, hor3, hor2, hor1, window_four_bytes]
  rfl

/-! ### Packed tables -/

/-- The digits from the start of an entry to the start of the next one. -/
def entryStride : FatType → Nat
  | .fat12 => 3
  | .fat16 => 4
  | .fat32 => 8
  | .none => 0

/-- The digits of an entry that count: on FAT32 the highest one is not part of the value. -/
def entryDigits : FatType → Nat
  | .fat12 => 3
  | .fat16 => 4
  | .fat32 => 7
  | .none => 0

/-- The table starts with these entries. Nothing is said about what follows them, nor about the
highest digits of entries on FAT32. -/
structure Packed (device : BlockDevice) (fs : FatFs) (entries : List UInt32) : Prop where
  fits : ∀ value ∈ entries, value.toNat < 16 ^ entryDigits fs.fatType
  digits : ∀ (k : Nat) (value : UInt32), entries[k]? = some value → ∀ j < entryDigits fs.fatType,
    digit (tableBytes device fs) (k * entryStride fs.fatType + j) = value.toNat / 16 ^ j % 16

def entryIndices (fs : FatFs) (cluster : UInt32) : List Nat :=
  (List.range (entryWidth fs.fatType)).map fun j => (entryOffset fs cluster % fs.bytesPerSector).toNat + j

theorem Packed.window_eq {device : BlockDevice} {fs : FatFs} {entries : List UInt32}
    (h : Packed device fs entries) {k : Nat} {value : UInt32} (hentry : entries[k]? = some value) :
    window (tableBytes device fs) (k * entryStride fs.fatType) (entryDigits fs.fatType) = value.toNat := by
  rw [window_eq_of_digits (h.digits k value hentry),
    Nat.mod_eq_of_lt (h.fits value (List.mem_of_getElem? hentry))]

theorem fat12_decode (bytes : Buffer) (hsmall : cluster.toNat < 2 ^ 28) :
    ∃ value, fatEntryDecode .fat12 cluster bytes (cluster + cluster / 2).toNat = some value ∧
      value.toNat = window bytes (cluster.toNat * 3) 3 := by
  have hhalf : (cluster / 2).toNat = cluster.toNat / 2 := UInt32.toNat_div cluster 2
  have hoffset : (cluster + cluster / 2).toNat = cluster.toNat + cluster.toNat / 2 := by
    rw [Word.toNat_add_of_lt (by omega), hhalf]
  have hmask : ∀ raw : UInt16, (raw &&& 0x0FFF).toNat = raw.toNat % 16 ^ 3 := fun raw =>
    (UInt16.toNat_and raw 0x0FFF).trans (Nat.and_two_pow_sub_one_eq_mod raw.toNat 12)
  have hparity : cluster &&& 1 = 0 ↔ cluster.toNat % 2 = 0 := by
    rw [← UInt32.toNat_inj, UInt32.toNat_and]
    exact iff_of_eq (congrArg (· = 0) (Nat.and_one_is_mod cluster.toNat))
  rw [fatEntryDecode, hoffset]
  by_cases heven : cluster.toNat % 2 = 0
  · refine ⟨_, by rw [if_pos (hparity.mpr heven)], ?_⟩
    rw [UInt16.toNat_toUInt32, hmask, fatReadLe16_toNat, window_mod _ 3 1]
    congr 1
    omega
  · refine ⟨_, by rw [if_neg (mt hparity.mp heven)], ?_⟩
    rw [UInt16.toNat_toUInt32, hmask, UInt16.toNat_shiftRight, fatReadLe16_toNat, Nat.shiftRight_eq_div_pow]
    change window bytes _ (1 + 3) / 16 ^ 1 % 16 ^ 3 = _
    rw [window_div, Nat.mod_eq_of_lt (window_lt _ 3)]
    congr 1
    omega

theorem fat16_decode (bytes : Buffer) (hsmall : cluster.toNat < 2 ^ 28) :
    ∃ value, fatEntryDecode .fat16 cluster bytes (cluster * 2).toNat = some value ∧
      value.toNat = window bytes (cluster.toNat * 4) 4 := by
  have hoffset : (cluster * 2).toNat = cluster.toNat * 2 :=
    Word.toNat_mul_of_lt (by change _ * 2 < _; omega)
  refine ⟨_, rfl, ?_⟩
  rw [UInt16.toNat_toUInt32, fatReadLe16_toNat, hoffset]
  congr 1
  omega

theorem fat32_decode (bytes : Buffer) (hsmall : cluster.toNat < 2 ^ 28) :
    ∃ value, fatEntryDecode .fat32 cluster bytes (cluster * 4).toNat = some value ∧
      value.toNat = window bytes (cluster.toNat * 8) 7 := by
  have hoffset : (cluster * 4).toNat = cluster.toNat * 4 :=
    Word.toNat_mul_of_lt (by change _ * 4 < _; omega)
  have hmask : ∀ raw : UInt32, (raw &&& 0x0FFFFFFF).toNat = raw.toNat % 16 ^ 7 := fun raw =>
    (UInt32.toNat_and raw 0x0FFFFFFF).trans (Nat.and_two_pow_sub_one_eq_mod raw.toNat 28)
  refine ⟨_, rfl, ?_⟩
  rw [hmask, fatReadLe32_toNat, hoffset, window_mod _ 7 1]
  congr 1
  omega

theorem fatEntryValue_window (device : BlockDevice) {fs : FatFs} (htype : fs.fatType ≠ .none)
    (hsmall : cluster.toNat < 2 ^ 28) :
    ∃ value, fatEntryValue device fs cluster = some value ∧ value.toNat =
      window (tableBytes device fs) (cluster.toNat * entryStride fs.fatType) (entryDigits fs.fatType) := by
  unfold fatEntryValue entryOffset
  cases ht : fs.fatType with
  | none => exact absurd ht htype
  | fat12 => exact fat12_decode _ hsmall
  | fat16 => exact fat16_decode _ hsmall
  | fat32 => exact fat32_decode _ hsmall

/-- **Entries are unpacked as they were packed.** Whatever entries a table starts with,
`fat_read_fat_entry` returns that of each cluster among them. It reads one or two sectors, decodes
only bytes that it has read, and does not depend on the other bytes of its buffer. -/
theorem fat_entry_unpacks {d : Disks} {fs : FatFs} {device : BlockDevice}
    (hdevice : OnDevice d fs device) (hreads : ∀ n lba, device.fails n lba = false)
    {entries : List UInt32} (hpacked : Packed device fs entries) {cluster value : UInt32}
    (hsmall : cluster.toNat < 2 ^ 28) (hentry : entries[cluster.toNat]? = some value) (io : Io) :
    fatReadFatEntry d fs cluster io = (some value,
        io.accessed (sectorRun (entryLba fs cluster) (entrySectors fs cluster))) ∧
      (∀ index ∈ entryIndices fs cluster, index < entrySectors fs cluster * device.sectorSizeBytes.toNat) ∧
      ∀ buffer buffer' : Buffer, (∀ index ∈ entryIndices fs cluster, buffer index = buffer' index) →
        fatEntryDecode fs.fatType cluster buffer (entryOffset fs cluster % fs.bytesPerSector).toNat =
          fatEntryDecode fs.fatType cluster buffer' (entryOffset fs cluster % fs.bytesPerSector).toNat := by
  refine ⟨?_, ?_, ?_⟩
  · obtain ⟨value', hvalue', hwindow⟩ := fatEntryValue_window device hdevice.typed hsmall
    rw [hpacked.window_eq hentry] at hwindow
    rcases hdevice.fatReadFatEntry_spec cluster io with ⟨_, hread⟩ | ⟨hfails, _⟩
    · rw [hread, hvalue', UInt32.toNat_inj.mp hwindow]
    · exact absurd (fun k _ => hreads _ _) hfails
  · intro index hindex
    obtain ⟨j, hj, rfl⟩ := List.mem_map.mp hindex
    rw [← hdevice.sectorSize]
    exact hdevice.entry_in_buffer cluster (List.mem_range.mp hj)
  · intro buffer buffer' hsame
    apply fatEntryDecode_congr
    intro j hj
    exact hsame _ (List.mem_map_of_mem (List.mem_range.mpr hj))

/-- A table of the floppy whose entry of cluster 341 lies across its first two sectors. -/
def straddlingSectors : List (UInt32 × List (Nat × UInt8)) := [(1, [(511, 0xC0)]), (2, [(0, 0xAB)])]

def straddlingEntries : List UInt32 := List.replicate 341 0 ++ [0xABC]

theorem straddling_packed :
    Packed (sparseDevice straddlingSectors fun _ _ => false) floppyVolume straddlingEntries where
  fits := List.all_iff_forall_prop.mp (by decide +kernel)
  digits := by
    intro k value hvalue
    have hk : k < straddlingEntries.length := (List.getElem?_eq_some_iff.mp hvalue).1
    have hall : ∀ k < straddlingEntries.length, ∀ j < 3,
        digit (tableBytes (sparseDevice straddlingSectors fun _ _ => false) floppyVolume) (k * 3 + j) =
          (straddlingEntries[k]?.getD 0).toNat / 16 ^ j % 16 := by
      decide +kernel
    have hdigits := hall k hk
    rwa [hvalue] at hdigits

theorem straddling_entry : straddlingEntries[(341 : UInt32).toNat]? = some 0xABC := by
  decide +kernel

theorem straddling_entry_unpacks :
    fatReadFatEntry (sparseDisks straddlingSectors fun _ _ => false) floppyVolume 341 .start =
      (some 0xABC, ⟨[1, 2], []⟩) :=
  (fat_entry_unpacks ⟨rfl, rfl, Or.inl rfl, rfl, by decide⟩ (fun _ _ => rfl) straddling_packed (by decide)
    straddling_entry .start).1

end TermobKernel.Fat

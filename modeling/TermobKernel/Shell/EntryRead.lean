import TermobKernel.Shell.FatInfo
import TermobKernel.Fat.Table

/-!
# The bytes that the shell decodes

`keyboard_fat_entry_read` takes the offset of an entry modulo the sector size that the boot sector
names, and decodes it from a buffer of two sectors of 512 bytes. The parser accepts every sector
size but zero. The decoded bytes lie in what was read as long as that offset leaves room for the
entry in the buffer.
-/

namespace TermobKernel.Shell
open Fat

/-! ### The decode step -/

/-- What `keyboard_fat_entry_read` has when it comes to its second `switch`. -/
structure EntryFetch where
  info : KeyboardFatInfo
  sectorOffset : UInt32
  sectorsToRead : UInt32
  entryBytes : Buffer

/-- `keyboard_fat_entry_read` up to its second `switch`, with `none` for a return before it. -/
def keyboardFatEntryFetch (d : ShellDisks) (deviceIndex bootLba cluster : UInt32) (s : ShellState) :
    Option EntryFetch × ShellState :=
  match keyboardReadBlockSector512 d deviceIndex bootLba "fatentry" s with
  | (none, s) => (none, s)
  | (some bootSector, s) =>
    match keyboardParseFatInfo bootSector with
    | none => (none, s)
    | some info =>
      match keyboardFatOffsetBytes info.type cluster with
      | none => (none, s)
      | some fatOffsetBytes =>
        let fatSectorDelta := fatOffsetBytes / info.bytesPerSector
        let sectorOffset := fatOffsetBytes % info.bytesPerSector
        let sectorsToRead := keyboardSectorsToRead info.type sectorOffset
        match blockReadDevice d.toDisks deviceIndex
          (bootLba + info.fatStartSector + fatSectorDelta) sectorsToRead
            freshBuffer s.io with
        | (none, io) => (none, { s with io })
        | (some entryBytes, io) => (some { info, sectorOffset, sectorsToRead, entryBytes }, { s with io })

theorem keyboardFatEntryRead_eq_decode (d : ShellDisks) (deviceIndex bootLba cluster : UInt32)
    (s : ShellState) :
    keyboardFatEntryRead d deviceIndex bootLba cluster s =
      let fetched := keyboardFatEntryFetch d deviceIndex bootLba cluster s
      (fetched.1.bind fun fetch =>
        (keyboardEntryValue fetch.info.type cluster fetch.entryBytes fetch.sectorOffset.toNat).map
          fun value => (fetch.info, value), fetched.2) := by
  unfold keyboardFatEntryRead keyboardFatEntryFetch
  rcases keyboardReadBlockSector512 d deviceIndex bootLba "fatentry" s with ⟨_ | bootSector, s⟩
  · rfl
  dsimp only
  cases keyboardParseFatInfo bootSector with
  | none => rfl
  | some info =>
    dsimp only
    cases keyboardFatOffsetBytes info.type cluster with
    | none => rfl
    | some fatOffsetBytes =>
      dsimp only
      rcases blockReadDevice d.toDisks deviceIndex
        (bootLba + info.fatStartSector + fatOffsetBytes / info.bytesPerSector)
        (keyboardSectorsToRead info.type (fatOffsetBytes % info.bytesPerSector)) freshBuffer s.io
          with ⟨_ | _, io⟩
      · rfl
      · rfl

def keyboardEntryIndices (type : KeyboardFatType) (sectorOffset : Nat) : List Nat :=
  match type with
  | .fat12 => [sectorOffset, sectorOffset + 1]
  | .fat16 => [sectorOffset, sectorOffset + 1]
  | .fat32 => [sectorOffset, sectorOffset + 1, sectorOffset + 2, sectorOffset + 3]
  | .none => []

theorem keyboardEntryValue_congr {type : KeyboardFatType} {cluster : UInt32} {sectorOffset : Nat}
    {entryBytes entryBytes' : Buffer}
    (hsame : ∀ index ∈ keyboardEntryIndices type sectorOffset, entryBytes index = entryBytes' index) :
    keyboardEntryValue type cluster entryBytes sectorOffset =
        keyboardEntryValue type cluster entryBytes' sectorOffset := by
  cases type with
  | none => rfl
  | fat12 | fat16 =>
    simp only [keyboardEntryIndices, List.forall_mem_cons] at hsame
    simp only [keyboardEntryValue, keyboardReadLe16, fatReadLe16, hsame]
  | fat32 =>
    simp only [keyboardEntryIndices, List.forall_mem_cons] at hsame
    simp only [keyboardEntryValue, keyboardReadLe32, fatReadLe32, hsame]

theorem indices_read_iff {type : KeyboardFatType} (htype : type ≠ .none) (sectorOffset : UInt32) :
    (∀ index ∈ keyboardEntryIndices type sectorOffset.toNat,
        index < 512 * (keyboardSectorsToRead type sectorOffset).toNat) ↔
      sectorOffset.toNat + entryWidth type.toFatType ≤ 1024 := by
  have hreads : ∀ bound : UInt32, sectorOffset ≥ bound ↔ bound.toNat ≤ sectorOffset.toNat :=
    fun bound => UInt32.le_iff_toNat_le
  cases type with
  | none => exact absurd rfl htype
  | fat12 | fat16 =>
    simp only [keyboardEntryIndices, keyboardSectorsToRead, List.forall_mem_cons,
      KeyboardFatType.toFatType, entryWidth, hreads]
    split
    · simp_all
      omega
    · simp_all
      omega
  | fat32 =>
    simp only [keyboardEntryIndices, keyboardSectorsToRead, List.forall_mem_cons,
      KeyboardFatType.toFatType, entryWidth, hreads]
    split
    · simp_all
      omega
    · simp_all
      omega

/-! ### Whole runs -/

/-- The entry lies in the buffer, going by the sector size and the type that the boot sector names. -/
def EntryInBuffer (bootSector : Buffer) (cluster : UInt32) : Prop :=
  ∀ info fatOffsetBytes, keyboardParseFatInfo bootSector = some info →
    keyboardFatOffsetBytes info.type cluster = some fatOffsetBytes →
      fatOffsetBytes.toNat % (keyboardReadLe16 bootSector 11).toNat + entryWidth info.type.toFatType ≤ 1024

theorem keyboardParseFatInfo_bytesPerSector {sector : Buffer} {info : KeyboardFatInfo}
    (hparse : keyboardParseFatInfo sector = some info) :
    info.bytesPerSector = (keyboardReadLe16 sector 11).toUInt32 ∧ info.bytesPerSector ≠ 0 ∧
        info.type ≠ .none := by
  unfold keyboardParseFatInfo at hparse
  by_cases hbytes : (keyboardReadLe16 sector 11).toUInt32 = 0
  · rw [if_pos hbytes] at hparse
    cases hparse
  · rw [if_neg hbytes] at hparse
    obtain ⟨htype, hinfo⟩ := Option.ite_none_right_eq_some.mp hparse
    obtain rfl := Option.some.inj hinfo
    exact ⟨rfl, hbytes, htype⟩

theorem keyboardFatEntryFetch_inv {d : ShellDisks} {deviceIndex bootLba cluster : UInt32}
    {s s' : ShellState} {fetch : EntryFetch}
    (hfetch : keyboardFatEntryFetch d deviceIndex bootLba cluster s = (some fetch, s')) :
    ∃ bootSector s₁ fatOffsetBytes, keyboardReadBlockSector512 d deviceIndex bootLba "fatentry" s =
      (some bootSector, s₁) ∧ keyboardParseFatInfo bootSector = some fetch.info ∧
      keyboardFatOffsetBytes fetch.info.type cluster = some fatOffsetBytes ∧
      fetch.sectorOffset = fatOffsetBytes % fetch.info.bytesPerSector ∧
      fetch.sectorsToRead = keyboardSectorsToRead fetch.info.type fetch.sectorOffset := by
  unfold keyboardFatEntryFetch at hfetch
  split at hfetch
  · cases hfetch
  next bootSector s₁ hboot =>
    split at hfetch
    · cases hfetch
    next info hparse =>
      split at hfetch
      · cases hfetch
      next fatOffsetBytes hoffset =>
        dsimp only at hfetch
        split at hfetch
        · cases hfetch
        · obtain rfl := Option.some.inj (Prod.mk.inj hfetch).1
          exact ⟨bootSector, s₁, fatOffsetBytes, hboot, hparse, hoffset, rfl, rfl⟩

/-- **Entry bytes.** On any disk, when `keyboard_fat_entry_read` comes to its decode step, all bytes
that it uses were read if and only if the entry, at its offset modulo the sector size that the boot
sector names, ends within the buffer. -/
theorem entry_bytes_read_iff {d : ShellDisks} {deviceIndex bootLba cluster : UInt32} {s s₁ s₂ : ShellState}
    {bootSector : Buffer} {fetch : EntryFetch}
    (hboot : keyboardReadBlockSector512 d deviceIndex bootLba "fatentry" s = (some bootSector, s₁))
    (hfetch : keyboardFatEntryFetch d deviceIndex bootLba cluster s = (some fetch, s₂)) :
    (∀ index ∈ keyboardEntryIndices fetch.info.type fetch.sectorOffset.toNat,
        index < 512 * fetch.sectorsToRead.toNat) ↔ EntryInBuffer bootSector cluster := by
  obtain ⟨bootSector', _, fatOffsetBytes, hboot', hparse, hoffset, hsector, hcount⟩ :=
    keyboardFatEntryFetch_inv hfetch
  obtain rfl : bootSector = bootSector' := Option.some.inj (congrArg Prod.fst (hboot.symm.trans hboot'))
  obtain ⟨hbytes, _, htype⟩ := keyboardParseFatInfo_bytesPerSector hparse
  have hvalue : fetch.sectorOffset.toNat =
      fatOffsetBytes.toNat % (keyboardReadLe16 bootSector 11).toNat := by
    rw [hsector, hbytes, UInt32.toNat_mod, UInt16.toNat_toUInt32]
  rw [hcount, indices_read_iff htype, hvalue]
  constructor
  · intro hinside info' offset' hparse' hoffset'
    obtain rfl := Option.some.inj (hparse.symm.trans hparse')
    obtain rfl := Option.some.inj (hoffset.symm.trans hoffset')
    exact hinside
  · exact fun hinside => hinside _ _ hparse hoffset

theorem entryInBuffer_of_small {bootSector : Buffer}
    (hsmall : (keyboardReadLe16 bootSector 11).toNat ≤ 1021) (cluster : UInt32) :
    EntryInBuffer bootSector cluster := by
  intro info offset hparse _
  obtain ⟨hbytes, hpos, htype⟩ := keyboardParseFatInfo_bytesPerSector hparse
  have hwidth : entryWidth info.type.toFatType ≤ 4 := by
    cases info.type with
    | _ => decide
  have hlt : offset.toNat % (keyboardReadLe16 bootSector 11).toNat <
      (keyboardReadLe16 bootSector 11).toNat := by
    refine Nat.mod_lt _ (Nat.pos_of_ne_zero fun hzero => hpos ?_)
    rw [hbytes, ← UInt32.toNat_inj, UInt16.toNat_toUInt32, hzero]
    rfl
  omega

/-- The last entry of the first table sector of the floppy, which straddles two sectors. -/
theorem straddling_bytes_read : ∃ fetch s,
    keyboardFatEntryFetch (floppyShell floppyBoot) 0 0 341 ⟨.start, []⟩ = (some fetch, s) ∧
      fetch.sectorsToRead = 2 ∧
      ∀ index ∈ keyboardEntryIndices fetch.info.type fetch.sectorOffset.toNat,
        index < 512 * fetch.sectorsToRead.toNat := by
  obtain ⟨fetch, s, hfetch, hcount⟩ : ∃ fetch s,
      keyboardFatEntryFetch (floppyShell floppyBoot) 0 0 341 ⟨.start, []⟩ = (some fetch, s) ∧
      fetch.sectorsToRead = 2 :=
    ⟨_, _, rfl, by decide +kernel⟩
  obtain ⟨bootSector, _, hboot, hbytes⟩ : ∃ bootSector s₁,
      keyboardReadBlockSector512 (floppyShell floppyBoot) 0 0 "fatentry" ⟨.start, []⟩ =
        (some bootSector, s₁) ∧
        (keyboardReadLe16 bootSector 11).toNat ≤ 1021 := ⟨_, _, rfl, by decide +kernel⟩
  exact ⟨fetch, s, hfetch, hcount,
    (entry_bytes_read_iff hboot hfetch).mpr (entryInBuffer_of_small hbytes 341)⟩

/-- A boot sector with the label `FAT16` and sectors of 2048 bytes. -/
def coarseBoot : List (Nat × UInt8) :=
  [(12, 8), (54, 0x46), (55, 0x41), (56, 0x54), (57, 0x31), (58, 0x36), (59, 0x20), (60, 0x20), (61, 0x20)]

/-- The entry of cluster 512 is decoded from bytes behind the buffer. -/
theorem coarse_sectors_overrun : ∃ fetch s,
    keyboardFatEntryFetch (floppyShell coarseBoot) 0 0 512 ⟨.start, []⟩ = (some fetch, s) ∧
      1024 ∈ keyboardEntryIndices fetch.info.type fetch.sectorOffset.toNat ∧
      512 * fetch.sectorsToRead.toNat = 1024 :=
  ⟨_, _, rfl, by decide +kernel, by decide +kernel⟩

end TermobKernel.Shell

import TermobKernel.Fat.Geometry
import TermobKernel.Fat.Steady

/-!
# The FAT reader of the shell

The shell has a parser for boot sectors and a reader for table entries of its own, in `drivers/keyboard.c`,
beside those of `fs/fat.c`. Both compute the same layout. They differ in the type of the volume: `fat_mount`
decides by the number of clusters, the shell first by the labels and fields of the boot sector.
-/

namespace TermobKernel.Shell
open Fat

variable {sector : Buffer}

/-! ## The model -/

inductive KeyboardFatType where
  | none
  | fat12
  | fat16
  | fat32
  deriving DecidableEq, Repr

structure KeyboardFatInfo where
  type : KeyboardFatType
  bytesPerSector : UInt32
  sectorsPerCluster : UInt32
  reservedSectors : UInt32
  fatCount : UInt32
  rootEntryCount : UInt32
  totalSectors : UInt32
  sectorsPerFat : UInt32
  rootDirSectors : UInt32
  fatStartSector : UInt32
  rootDirStartSector : UInt32
  dataStartSector : UInt32
  dataSectors : UInt32
  clusterCount : UInt32
  rootCluster : UInt32
  fsinfoSector : UInt32
  backupBootSector : UInt32
  bootMagicPresent : Bool
  deriving DecidableEq, Repr

/-- The block layer as the shell sees it: with the `sector_count` fields of the device records. -/
structure ShellDisks extends Disks where
  sectorCount : UInt32 → UInt32

/-- What a command changes: the devices and the log, and the lines on the terminal. -/
structure ShellState where
  io : Io
  terminal : List String
  deriving DecidableEq, Repr

def ShellState.writeline (s : ShellState) (line : String) : ShellState :=
  { s with terminal := s.terminal ++ [line] }

def keyboardReadLe16 (buffer : Buffer) (offset : Nat) : UInt16 := fatReadLe16 buffer offset

def keyboardReadLe32 (buffer : Buffer) (offset : Nat) : UInt32 := fatReadLe32 buffer offset

def keyboardBytesEqual (buffer : Buffer) (offset : Nat) (text : List UInt8) : Bool :=
  text.zipIdx.all fun (c, index) => buffer (offset + index) == c

def labelFat12 : List UInt8 := [0x46, 0x41, 0x54, 0x31, 0x32, 0x20, 0x20, 0x20]
def labelFat16 : List UInt8 := [0x46, 0x41, 0x54, 0x31, 0x36, 0x20, 0x20, 0x20]
def labelFat32 : List UInt8 := [0x46, 0x41, 0x54, 0x33, 0x32, 0x20, 0x20, 0x20]

/-- The type detection at the end of `keyboard_parse_fat_info`. -/
def keyboardFatTypeOf (sector : Buffer)
    (rootEntryCount sectorsPerFat16 sectorsPerFat32 clusterCount : UInt32) : KeyboardFatType :=
  if keyboardBytesEqual sector 82 labelFat32 = true ∨
      (rootEntryCount = 0 ∧ sectorsPerFat16 = 0 ∧ sectorsPerFat32 ≠ 0) then .fat32
  else if keyboardBytesEqual sector 54 labelFat12 then .fat12
  else if keyboardBytesEqual sector 54 labelFat16 then .fat16
  else if clusterCount ≠ 0 then
    if clusterCount < 4085 then .fat12 else if clusterCount < 65525 then .fat16 else .fat32
  else .none

/-- `keyboard_parse_fat_info`, with `none` for the return value `0`. -/
def keyboardParseFatInfo (sector : Buffer) : Option KeyboardFatInfo :=
  let bytesPerSector := (keyboardReadLe16 sector 11).toUInt32
  let sectorsPerCluster := (sector 13).toUInt32
  let reservedSectors := (keyboardReadLe16 sector 14).toUInt32
  let fatCount := (sector 16).toUInt32
  let rootEntryCount := (keyboardReadLe16 sector 17).toUInt32
  let totalSectors16 := (keyboardReadLe16 sector 19).toUInt32
  let totalSectors := if totalSectors16 = 0 then keyboardReadLe32 sector 32 else totalSectors16
  let sectorsPerFat16 := (keyboardReadLe16 sector 22).toUInt32
  let sectorsPerFat32 := keyboardReadLe32 sector 36
  let sectorsPerFat := if sectorsPerFat16 ≠ 0 then sectorsPerFat16 else sectorsPerFat32
  if bytesPerSector = 0 then none
  else
    let rootDirSectors := (rootEntryCount * 32 + (bytesPerSector - 1)) / bytesPerSector
    let rootDirStartSector := reservedSectors + fatCount * sectorsPerFat
    let dataStartSector := rootDirStartSector + rootDirSectors
    let dataSectors := if totalSectors > dataStartSector then totalSectors - dataStartSector else 0
    let clusterCount := if sectorsPerCluster ≠ 0 then dataSectors / sectorsPerCluster else 0
    let type := keyboardFatTypeOf sector rootEntryCount sectorsPerFat16 sectorsPerFat32 clusterCount
    if type ≠ .none then
      some
        { type, bytesPerSector, sectorsPerCluster, reservedSectors, fatCount, rootEntryCount, totalSectors
          sectorsPerFat, rootDirSectors, rootDirStartSector, dataStartSector, dataSectors, clusterCount
          fatStartSector := reservedSectors
          rootCluster := keyboardReadLe32 sector 44
          fsinfoSector := (keyboardReadLe16 sector 48).toUInt32
          backupBootSector := (keyboardReadLe16 sector 50).toUInt32
          bootMagicPresent := decide (sector 510 = 0x55) && decide (sector 511 = 0xAA) }
    else none

def keyboardReadBlockSector512 (d : ShellDisks) (deviceIndex lba : UInt32) (commandName : String)
    (s : ShellState) : Option Buffer × ShellState :=
  match blockDeviceAt d.toDisks deviceIndex with
  | none => (none, s.writeline "Block device not found")
  | some blockDevice =>
    if blockDevice.sectorSizeBytes ≠ 512 then
      (none, s.writeline ("Only 512-byte sectors are supported by " ++ commandName))
    else if d.sectorCount deviceIndex ≠ 0 ∧ lba ≥ d.sectorCount deviceIndex then
      (none, s.writeline "Requested LBA is outside the device range")
    else
      match blockReadDevice d.toDisks deviceIndex lba 1 freshBuffer s.io with
      | (none, io) => (none, { s with io }.writeline "Block read failed")
      | (some sector, io) => (some sector, { s with io })

/-- The first `switch` of `keyboard_fat_entry_read`. -/
def keyboardFatOffsetBytes (type : KeyboardFatType) (cluster : UInt32) : Option UInt32 :=
  match type with
  | .fat12 => some (cluster + cluster / 2)
  | .fat16 => some (cluster * 2)
  | .fat32 => some (cluster * 4)
  | .none => none

def keyboardSectorsToRead (type : KeyboardFatType) (sectorOffset : UInt32) : UInt32 :=
  if (type = .fat12 ∧ sectorOffset ≥ 511) ∨ (type = .fat16 ∧ sectorOffset ≥ 511) ∨
      (type = .fat32 ∧ sectorOffset ≥ 509) then 2
  else 1

/-- The second `switch` of `keyboard_fat_entry_read`. -/
def keyboardEntryValue (type : KeyboardFatType) (cluster : UInt32) (entryBytes : Buffer)
    (sectorOffset : Nat) : Option UInt32 :=
  match type with
  | .fat12 =>
    let raw := keyboardReadLe16 entryBytes sectorOffset
    some (if cluster &&& 1 = 0 then (raw &&& 0x0FFF).toUInt32 else ((raw >>> 4) &&& 0x0FFF).toUInt32)
  | .fat16 => some (keyboardReadLe16 entryBytes sectorOffset).toUInt32
  | .fat32 => some (keyboardReadLe32 entryBytes sectorOffset &&& 0x0FFFFFFF)
  | .none => none

def keyboardFatEntryRead (d : ShellDisks) (deviceIndex bootLba cluster : UInt32) (s : ShellState) :
    Option (KeyboardFatInfo × UInt32) × ShellState :=
  match keyboardReadBlockSector512 d deviceIndex bootLba "fatentry" s with
  | (none, s) => (none, s)
  | (some bootSector, s) =>
    match keyboardParseFatInfo bootSector with
    | none => (none, s)
    | some info =>
      match keyboardFatOffsetBytes info.type cluster with
      | none => (none, s)
      | some fatOffsetBytes =>
        let fatSectorDelta := fatOffsetBytes / info.bytesPerSector
        let sectorOffset := fatOffsetBytes % info.bytesPerSector
        match blockReadDevice d.toDisks deviceIndex (bootLba + info.fatStartSector + fatSectorDelta)
            (keyboardSectorsToRead info.type sectorOffset) freshBuffer s.io with
        | (none, io) => (none, { s with io })
        | (some entryBytes, io) =>
          ((keyboardEntryValue info.type cluster entryBytes sectorOffset.toNat).map fun value =>
            (info, value), { s with io })

/-! ## The layout -/

def KeyboardFatType.toFatType : KeyboardFatType → FatType
  | .none => .none
  | .fat12 => .fat12
  | .fat16 => .fat16
  | .fat32 => .fat32

/-- The fields of a mounted volume that stand in its boot sector. -/
def bpbFields (fs : FatFs) : FatFs :=
  { fs with
    firstFatLba := 0, firstDataLba := 0, firstRootDirLba := 0, rootDirSectors := 0,
      clusterCount := 0, fatType := .none }

theorem fatMount_sector {d : Disks} {deviceIndex bootLba : UInt32} {io io' : Io} {fs : FatFs}
    (h : fatMount d deviceIndex bootLba io = (some fs, io')) :
    ∃ sector io'', blockReadDevice d deviceIndex bootLba 1 freshBuffer io = (some sector, io'') ∧
      fatParseBpb deviceIndex bootLba sector = bpbFields fs := by
  unfold fatMount at h
  split at h
  · cases h
  split at h
  · cases h
  next sector io'' hread =>
    refine ⟨sector, io'', hread, ?_⟩
    obtain ⟨_, h⟩ := not_refused h
    obtain ⟨_, h⟩ := not_refused h
    obtain ⟨_, h⟩ := not_refused h
    obtain ⟨_, h⟩ := not_refused h
    obtain ⟨_, h⟩ := not_refused h
    obtain ⟨_, h⟩ := not_refused h
    obtain ⟨_, h⟩ := not_refused h
    obtain rfl := Option.some.inj (Prod.mk.inj h).1
    rfl

/-- The number of clusters that the fields of a boot sector give. -/
def bpbClusters (sector : Buffer) : UInt32 :=
  let fs := fatParseBpb 0 0 sector
  (fs.totalSectors - (fs.reservedSectors + fs.fatCount * fs.sectorsPerFat +
    (fs.rootEntryCount * 32 + (fs.bytesPerSector - 1)) / fs.bytesPerSector)) / fs.sectorsPerCluster

def MarkedFat32 (sector : Buffer) : Prop :=
  keyboardBytesEqual sector 82 labelFat32 = true ∨
    ((keyboardReadLe16 sector 17).toUInt32 = 0 ∧ (keyboardReadLe16 sector 22).toUInt32 = 0 ∧
      keyboardReadLe32 sector 36 ≠ 0)

instance (sector : Buffer) : Decidable (MarkedFat32 sector) := inferInstanceAs (Decidable (_ ∨ _))

/-- The marks of a boot sector name no other type than its number of clusters. -/
def MarksAgree (sector : Buffer) : Prop :=
  match fatTypeOf (bpbClusters sector) with
  | .none => False
  | .fat12 => ¬MarkedFat32 sector ∧ keyboardBytesEqual sector 54 labelFat16 = false
  | .fat16 => ¬MarkedFat32 sector ∧ keyboardBytesEqual sector 54 labelFat12 = false
  | .fat32 => MarkedFat32 sector ∨
      (keyboardBytesEqual sector 54 labelFat12 = false ∧ keyboardBytesEqual sector 54 labelFat16 = false)

instance (sector : Buffer) : Decidable (MarksAgree sector) := by
  unfold MarksAgree
  split
  all_goals infer_instance

theorem label_unique (h : keyboardBytesEqual sector 54 labelFat12 = true) :
    keyboardBytesEqual sector 54 labelFat16 = false := by
  simp only [keyboardBytesEqual, labelFat12, labelFat16, List.zipIdx_cons, List.all_cons, Bool.and_eq_true,
    beq_iff_eq] at h ⊢
  simp [h.2.2.2.2.1]

theorem keyboardFatTypeOf_iff (hn : bpbClusters sector ≠ 0) :
    (keyboardFatTypeOf sector (keyboardReadLe16 sector 17).toUInt32 (keyboardReadLe16 sector 22).toUInt32
        (keyboardReadLe32 sector 36) (bpbClusters sector)).toFatType = fatTypeOf (bpbClusters sector) ↔
      MarksAgree sector := by
  have hcount : (if bpbClusters sector < 4085 then KeyboardFatType.fat12
      else if bpbClusters sector < 65525 then .fat16 else .fat32).toFatType =
        fatTypeOf (bpbClusters sector) := by
    unfold fatTypeOf
    split_ifs
    · rfl
    · rfl
    · rfl
  have hnone : fatTypeOf (bpbClusters sector) ≠ .none := by
    unfold fatTypeOf
    split_ifs
    · exact FatType.noConfusion
    · exact FatType.noConfusion
    · exact FatType.noConfusion
  unfold MarksAgree
  by_cases h32 : MarkedFat32 sector
  · rw [keyboardFatTypeOf, if_pos (show _ ∨ _ from h32)]
    cases htype : fatTypeOf (bpbClusters sector) with
    | none => exact absurd htype hnone
    | fat12 => simp [KeyboardFatType.toFatType, h32]
    | fat16 => simp [KeyboardFatType.toFatType, h32]
    | fat32 => simp [KeyboardFatType.toFatType, h32]
  rw [keyboardFatTypeOf, if_neg (show ¬(_ ∨ _) from h32)]
  by_cases h12 : keyboardBytesEqual sector 54 labelFat12 = true
  · rw [if_pos h12]
    cases htype : fatTypeOf (bpbClusters sector) with
    | none => exact absurd htype hnone
    | fat12 => simp [KeyboardFatType.toFatType, h32, label_unique h12]
    | fat16 => simp [KeyboardFatType.toFatType, h12]
    | fat32 => simp [KeyboardFatType.toFatType, h32, h12]
  rw [if_neg h12]
  by_cases h16 : keyboardBytesEqual sector 54 labelFat16 = true
  · rw [if_pos h16]
    cases htype : fatTypeOf (bpbClusters sector) with
    | none => exact absurd htype hnone
    | fat12 => simp [KeyboardFatType.toFatType, h16]
    | fat16 => simp [KeyboardFatType.toFatType, h32, h12]
    | fat32 => simp [KeyboardFatType.toFatType, h32, h16]
  rw [if_neg h16, if_pos hn, hcount]
  cases htype : fatTypeOf (bpbClusters sector) with
  | none => exact absurd htype hnone
  | fat12 => simp [h32, h16]
  | fat16 => simp [h32, h12]
  | fat32 => simp [h12, h16]

theorem keyboardFatTypeOf_ne_none {rootEntryCount sectorsPerFat16 sectorsPerFat32 clusterCount : UInt32}
    (hn : clusterCount ≠ 0) :
    keyboardFatTypeOf sector rootEntryCount sectorsPerFat16 sectorsPerFat32 clusterCount ≠ .none := by
  unfold keyboardFatTypeOf
  rw [if_pos hn]
  split_ifs
  all_goals exact KeyboardFatType.noConfusion

/-! ## The parser -/

section mounted
variable {d : ShellDisks} {fs : FatFs} {device : BlockDevice} {sector : Buffer}
  {deviceIndex bootLba : UInt32}

theorem bpbClusters_mounted (hm : Mounted d.toDisks fs device)
    (hbpb : fatParseBpb deviceIndex bootLba sector = bpbFields fs) :
    bpbClusters sector = fs.clusterCount := by
  have hfields : fatParseBpb 0 0 sector = { bpbFields fs with deviceIndex := 0, bootLba := 0 } := by
    rw [← hbpb]
    rfl
  rw [hm.clusterCount, hm.rootDirSectors, bpbClusters, hfields]
  rfl

theorem keyboardParseFatInfo_mounted (hm : Mounted d.toDisks fs device)
    (hbpb : fatParseBpb deviceIndex bootLba sector = bpbFields fs) :
    ∃ info, keyboardParseFatInfo sector = some info ∧
      info.type = keyboardFatTypeOf sector (keyboardReadLe16 sector 17).toUInt32
        (keyboardReadLe16 sector 22).toUInt32
        (keyboardReadLe32 sector 36) fs.clusterCount ∧
      info.bytesPerSector = fs.bytesPerSector ∧ info.clusterCount = fs.clusterCount ∧
      fs.bootLba + info.fatStartSector = fs.firstFatLba ∧ fs.bootLba + info.dataStartSector =
        fs.firstDataLba := by
  have hbytes : (fatReadLe16 sector 11).toUInt32 = fs.bytesPerSector := congrArg FatFs.bytesPerSector hbpb
  have hcluster : (sector 13).toUInt32 = fs.sectorsPerCluster := congrArg FatFs.sectorsPerCluster hbpb
  have hreserved : (fatReadLe16 sector 14).toUInt32 = fs.reservedSectors :=
    congrArg FatFs.reservedSectors hbpb
  have hcount : (sector 16).toUInt32 = fs.fatCount := congrArg FatFs.fatCount hbpb
  have hroot : (fatReadLe16 sector 17).toUInt32 = fs.rootEntryCount := congrArg FatFs.rootEntryCount hbpb
  have htotal : (if (fatReadLe16 sector 19).toUInt32 = 0 then fatReadLe32 sector 32
      else (fatReadLe16 sector 19).toUInt32) = fs.totalSectors := congrArg FatFs.totalSectors hbpb
  have htable : (if (fatReadLe16 sector 22).toUInt32 ≠ 0 then (fatReadLe16 sector 22).toUInt32
      else fatReadLe32 sector 36) = fs.sectorsPerFat := by
    rw [ite_not]
    exact congrArg FatFs.sectorsPerFat hbpb
  have hbytes0 : fs.bytesPerSector ≠ 0 := by
    rcases hm.bytesPerSector with h | h | h | h
    all_goals
      rw [h]
      decide
  have hcluster0 : fs.sectorsPerCluster ≠ 0 := by
    have h := hm.sectorsPerCluster.1
    rw [fatIsPowerOfTwo, Bool.and_eq_true] at h
    exact of_decide_eq_true h.1
  unfold keyboardParseFatInfo keyboardReadLe16 keyboardReadLe32
  dsimp only
  rw [hbytes, hcluster, hreserved, hcount, hroot, htotal, htable, if_neg hbytes0,
    ← hm.rootDirSectors, if_pos hm.layout,
    if_pos hcluster0, ← hm.clusterCount, if_pos (keyboardFatTypeOf_ne_none hm.clusters)]
  refine ⟨_, rfl, rfl, rfl, rfl, hm.firstFatLba.symm, ?_⟩
  dsimp only
  rw [hm.firstDataLba, hm.firstFatLba, ← UInt32.add_assoc, ← UInt32.add_assoc]

/-! ## The entries -/

theorem keyboardFatOffsetBytes_eq (type : KeyboardFatType) (cluster : UInt32) :
    keyboardFatOffsetBytes type cluster = fatEntryOffset type.toFatType cluster := by
  cases type with
  | _ => rfl

theorem keyboardEntryValue_eq (type : KeyboardFatType) (cluster : UInt32) (entryBytes : Buffer)
    (sectorOffset : Nat) :
    keyboardEntryValue type cluster entryBytes sectorOffset =
        fatEntryDecode type.toFatType cluster entryBytes sectorOffset := by
  cases type with
  | _ => rfl

/-- The two tests for an entry on a sector boundary agree on sectors of 512 bytes. -/
theorem keyboardSectorsToRead_eq {type : KeyboardFatType} (htype : type.toFatType = fs.fatType)
    (hbytes : fs.bytesPerSector = 512) {offset : UInt32} (hoffset : offset < 512) :
    keyboardSectorsToRead type offset = fatEntrySectors fs offset := by
  unfold keyboardSectorsToRead fatEntrySectors
  rw [← htype, hbytes]
  congr 1
  have hlt : offset.toNat < 512 := UInt32.lt_iff_toNat_lt.mp hoffset
  have h12 : offset ≥ 511 ↔ offset = 512 - 1 := by
    rw [ge_iff_le, UInt32.le_iff_toNat_le, ← UInt32.toNat_inj]
    change 511 ≤ offset.toNat ↔ offset.toNat = 511
    omega
  have h16 : offset ≥ 511 ↔ offset > 512 - 2 := by
    rw [ge_iff_le, gt_iff_lt, UInt32.le_iff_toNat_le, UInt32.lt_iff_toNat_lt]
    change 511 ≤ offset.toNat ↔ 510 < offset.toNat
    omega
  have h32 : offset ≥ 509 ↔ offset > 512 - 4 := by
    rw [ge_iff_le, gt_iff_lt, UInt32.le_iff_toNat_le, UInt32.lt_iff_toNat_lt]
    change 509 ≤ offset.toNat ↔ 508 < offset.toNat
    omega
  cases type with
  | none => simp [KeyboardFatType.toFatType]
  | fat12 => simp [KeyboardFatType.toFatType, h12]
  | fat16 => simp [KeyboardFatType.toFatType, h16]
  | fat32 => simp [KeyboardFatType.toFatType, h32]

theorem keyboardFatEntryRead_eq (hd : d.Steady) {info : KeyboardFatInfo} {s s' : ShellState}
    {cluster : UInt32}
    (hread : keyboardReadBlockSector512 d fs.deviceIndex fs.bootLba "fatentry" s = (some sector, s'))
    (hparse : keyboardParseFatInfo sector = some info) (htype : info.type.toFatType = fs.fatType)
    (hbytes : info.bytesPerSector = fs.bytesPerSector) (h512 : fs.bytesPerSector = 512)
    (hstart : fs.bootLba + info.fatStartSector = fs.firstFatLba) (io : Io) :
    (keyboardFatEntryRead d fs.deviceIndex fs.bootLba cluster s).1.map Prod.snd =
      (fatReadFatEntry d.toDisks fs cluster io).1 := by
  have hsmall : ¬fs.bytesPerSector > 8192 := by
    rw [h512]
    decide
  unfold keyboardFatEntryRead fatReadFatEntry
  rw [hread, if_neg hsmall]
  dsimp only
  rw [hparse]
  dsimp only
  rw [keyboardFatOffsetBytes_eq, htype]
  cases fatEntryOffset fs.fatType cluster with
  | none => rfl
  | some offset =>
    have hoffset : offset % fs.bytesPerSector < 512 := by
      rw [h512]
      exact UInt32.mod_lt offset (by decide)
    dsimp only
    rw [hbytes, hstart, keyboardSectorsToRead_eq htype h512 hoffset]
    obtain ⟨result, hsteady⟩ := blockReadDevice_steady hd fs.deviceIndex
      (fs.firstFatLba + offset / fs.bytesPerSector)
      (fatEntrySectors fs (offset % fs.bytesPerSector)) freshBuffer
    obtain ⟨io₁, h₁⟩ := hsteady s'.io
    obtain ⟨io₂, h₂⟩ := hsteady io
    rw [h₁, h₂]
    cases result with
    | none => rfl
    | some entryBytes =>
      dsimp only
      rw [keyboardEntryValue_eq, htype, Option.map_map]
      cases fatEntryDecode fs.fatType cluster entryBytes (offset % fs.bytesPerSector).toNat with
      | none => rfl
      | some value => rfl

end mounted

/-! ## Agreement -/

/-- The driver refuses the sectors behind the number that it registered, as `virtio_blk_block_read` does. -/
def ShellDisks.Bounded (d : ShellDisks) : Prop :=
  ∀ index device, blockDeviceAt d.toDisks index = some device → d.sectorCount index ≠ 0 →
    ∀ n lba, d.sectorCount index ≤ lba → device.fails n lba = true

/-- The shell and the volume agree: on the type, the number of clusters, the start of the table and
of the data, and on every entry of the table. -/
def ShellAgrees (d : ShellDisks) (fs : FatFs) (sector : Buffer) : Prop :=
  ∃ info, keyboardParseFatInfo sector = some info ∧ info.type.toFatType = fs.fatType ∧
    info.clusterCount = fs.clusterCount ∧ fs.bootLba + info.fatStartSector = fs.firstFatLba ∧
    fs.bootLba + info.dataStartSector = fs.firstDataLba ∧
    ∀ cluster s io, (keyboardFatEntryRead d fs.deviceIndex fs.bootLba cluster s).1.map Prod.snd =
      (fatReadFatEntry d.toDisks fs cluster io).1

theorem keyboardReadBlockSector512_mounted {d : ShellDisks} (hd : d.Steady) (hbounded : d.Bounded)
    {deviceIndex bootLba : UInt32} {device : BlockDevice} {io io' : Io}
    (hdevice : blockDeviceAt d.toDisks deviceIndex = some device)
    (hsize : device.sectorSizeBytes = 512)
    (hread : blockReadDevice d.toDisks deviceIndex bootLba 1 freshBuffer io = (some sector, io'))
    (commandName : String) (s : ShellState) :
    ∃ s', keyboardReadBlockSector512 d deviceIndex bootLba commandName s = (some sector, s') := by
  have hrange : ¬(d.sectorCount deviceIndex ≠ 0 ∧ bootLba ≥ d.sectorCount deviceIndex) := by
    intro ⟨hcount, hbeyond⟩
    have hfails := hbounded deviceIndex device hdevice hcount io.accesses.length bootLba hbeyond
    rw [blockReadDevice, hdevice] at hread
    dsimp only at hread
    by_cases hoff : device.hooked = false ∨ (1 : UInt32) = 0
    · rw [if_pos hoff] at hread
      cases hread
    · rw [if_neg hoff, if_pos rfl, BlockDevice.read, if_pos hfails] at hread
      cases hread
  obtain ⟨result, hsteady⟩ := blockReadDevice_steady hd deviceIndex bootLba 1 freshBuffer
  obtain ⟨io₁, h₁⟩ := hsteady io
  obtain ⟨io₂, h₂⟩ := hsteady s.io
  rw [hread] at h₁
  cases h₁
  refine ⟨{ s with io := io₂ }, ?_⟩
  rw [keyboardReadBlockSector512, hdevice]
  dsimp only
  rw [if_neg (not_not.mpr hsize), if_neg hrange, h₂]

/-- On a 512-byte device that reads alike every time, for a boot sector that `fat_mount` accepts:
the shell and the mounted volume agree if and only if the marks of the boot sector name the type
that its number of clusters gives. -/
theorem shell_agrees_iff {d : ShellDisks} (hd : d.Steady) (hbounded : d.Bounded)
    {deviceIndex bootLba : UInt32} {device : BlockDevice} {fs : FatFs} {io io' : Io}
    (hdevice : blockDeviceAt d.toDisks deviceIndex = some device)
    (hsize : device.sectorSizeBytes = 512)
    (hmount : fatMount d.toDisks deviceIndex bootLba io = (some fs, io')) :
    ∃ sector, (∀ io, (blockReadDevice d.toDisks deviceIndex bootLba 1 freshBuffer io).1 = some sector) ∧
      (ShellAgrees d fs sector ↔ MarksAgree sector) := by
  have hm := fatMount_device hmount hdevice
  obtain ⟨_, _, hindex, hboot⟩ := fatMount_mounted hmount
  obtain ⟨sector, io₁, hread, hbpb⟩ := fatMount_sector hmount
  obtain ⟨info, hparse, htype, hbytes, hcount, hstart, hdata⟩ := keyboardParseFatInfo_mounted hm hbpb
  have hclusters := bpbClusters_mounted hm hbpb
  rw [← hclusters] at htype
  have hne : bpbClusters sector ≠ 0 := by
    rw [hclusters]
    exact hm.clusters
  have hiff := keyboardFatTypeOf_iff hne
  rw [← htype, hclusters, ← hm.fatType] at hiff
  refine ⟨sector, fun io₂ => ?_, ?_⟩
  · obtain ⟨result, hsteady⟩ := blockReadDevice_steady hd deviceIndex bootLba 1 freshBuffer
    obtain ⟨_, h₁⟩ := hsteady io
    obtain ⟨_, h₂⟩ := hsteady io₂
    rw [hread] at h₁
    rw [h₂]
    exact (congrArg Prod.fst h₁).symm
  · rw [← hiff]
    constructor
    · intro ⟨info', hparse', htype', _⟩
      rw [hparse] at hparse'
      cases hparse'
      exact htype'
    · intro hsame
      refine ⟨info, hparse, hsame, hcount, hstart, hdata, fun cluster s io₂ => ?_⟩
      obtain ⟨s', hs'⟩ := keyboardReadBlockSector512_mounted hd hbounded hdevice hsize hread "fatentry" s
      subst hindex hboot
      exact keyboardFatEntryRead_eq hd hs' hparse hsame hbytes (hm.sectorSize.trans hsize) hstart io₂

/-! ### Two floppies -/

/-- A floppy with the link from cluster 2 to cluster 3 in its table, and these bytes in its boot sector. -/
def floppyShell (boot : List (Nat × UInt8)) : ShellDisks where
  toDisks := sparseDisks [(0, boot), (1, [(3, 0x03), (4, 0xF0), (5, 0xFF)])] fun _ lba =>
    decide (2880 ≤ lba)
  sectorCount := fun _ => 2880

theorem floppyShell_steady (boot : List (Nat × UInt8)) : (floppyShell boot).Steady := by
  intro device hdevice n m lba
  rw [List.mem_singleton.mp hdevice]
  rfl

theorem floppyShell_bounded (boot : List (Nat × UInt8)) : (floppyShell boot).Bounded := by
  intro index device hdevice _ n lba hbeyond
  have hmem : device ∈ (floppyShell boot).blockDeviceList := List.mem_of_getElem? hdevice
  rw [List.mem_singleton.mp hmem]
  exact decide_eq_true hbeyond

theorem shell_agrees_floppy : ∃ sector, ShellAgrees (floppyShell floppyBoot) floppyVolume sector := by
  have hmount : fatMount (floppyShell floppyBoot).toDisks 0 0 .start = (some floppyVolume, ⟨[0], []⟩) := by
    decide +kernel
  obtain ⟨sector, hsector, hiff⟩ := shell_agrees_iff (floppyShell_steady floppyBoot)
    (floppyShell_bounded floppyBoot)
    rfl rfl hmount
  refine ⟨sector, hiff.mpr ?_⟩
  rw [← Option.some.inj (hsector .start)]
  decide +kernel

/-- The label `FAT16` in the boot sector of the floppy. -/
def mislabelledBoot : List (Nat × UInt8) :=
  floppyBoot ++ [(54, 0x46), (55, 0x41), (56, 0x54), (57, 0x31), (58, 0x36), (59, 0x20),
    (60, 0x20), (61, 0x20)]

/-- The floppy is mounted as FAT12 and the shell takes it for FAT16; of cluster 2 they read
different entries. -/
theorem mislabelled_floppy_disagrees :
    fatMount (floppyShell mislabelledBoot).toDisks 0 0 .start = (some floppyVolume, ⟨[0], []⟩) ∧
      floppyVolume.fatType = .fat12 ∧
      (keyboardParseFatInfo (sparseSector mislabelledBoot)).map (·.type) = some .fat16 ∧
      (fatReadFatEntry (floppyShell mislabelledBoot).toDisks floppyVolume 2 .start).1 = some 3 ∧
      (keyboardFatEntryRead (floppyShell mislabelledBoot) 0 0 2 ⟨.start, []⟩).1.map Prod.snd =
        some 0xFFF0 := by
  decide +kernel

end TermobKernel.Shell

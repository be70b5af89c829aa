import TermobKernel.Fat.Device

/-!
# FAT volumes

The part of `fs/fat.c` that mounts a volume and reads its allocation table: the boot sector with all the
checks of `fat_mount`, the classification of table entries, and `fat_read_fat_entry`. All arithmetic is in
32-bit words and wraps as in the code.
-/

namespace TermobKernel.Fat

inductive FatType where
  | none
  | fat12
  | fat16
  | fat32
  deriving DecidableEq, Repr

structure FatFs where
  deviceIndex : UInt32
  bootLba : UInt32
  bytesPerSector : UInt32
  sectorsPerCluster : UInt32
  reservedSectors : UInt32
  fatCount : UInt32
  sectorsPerFat : UInt32
  rootEntryCount : UInt32
  totalSectors : UInt32
  firstFatLba : UInt32
  firstDataLba : UInt32
  firstRootDirLba : UInt32
  rootDirSectors : UInt32
  rootCluster : UInt32
  clusterCount : UInt32
  fatType : FatType
  deriving DecidableEq, Repr

/-- An array on the stack before it is written. -/
def freshBuffer : Buffer := fun _ => 0

def fatReadLe16 (src : Buffer) (offset : Nat) : UInt16 :=
  (src offset).toUInt16 ||| ((src (offset + 1)).toUInt16 <<< 8)

def fatReadLe32 (src : Buffer) (offset : Nat) : UInt32 :=
  (src offset).toUInt32 ||| ((src (offset + 1)).toUInt32 <<< 8) ||| ((src (offset + 2)).toUInt32 <<< 16) |||
    ((src (offset + 3)).toUInt32 <<< 24)

def fatIsPowerOfTwo (value : UInt32) : Bool := decide (value ≠ 0) && decide (value &&& (value - 1) = 0)

def fatBlockReadSector (d : Disks) (fs : FatFs) (lba : UInt32) (io : Io) : Option Buffer × Io :=
  blockReadDevice d fs.deviceIndex lba 1 freshBuffer io

def fatClusterIsValid (fs : FatFs) (cluster : UInt32) : Bool :=
  decide (cluster ≥ 2) && decide (cluster < fs.clusterCount + 2)

def fatEntryIsEnd : FatType → UInt32 → Bool
  | .fat12, value => decide (value ≥ 0x0FF8)
  | .fat16, value => decide (value ≥ 0xFFF8)
  | .fat32, value => decide (value ≥ 0x0FFFFFF8)
  | .none, _ => false

def fatEntryIsBad : FatType → UInt32 → Bool
  | .fat12, value => decide (value = 0x0FF7)
  | .fat16, value => decide (value = 0xFFF7)
  | .fat32, value => decide (value = 0x0FFFFFF7)
  | .none, _ => false

def fatEntryIsReserved : FatType → UInt32 → Bool
  | .fat12, value => decide (value ≥ 0x0FF0) && decide (value ≤ 0x0FF6)
  | .fat16, value => decide (value ≥ 0xFFF0) && decide (value ≤ 0xFFF6)
  | .fat32, value => decide (value ≥ 0x0FFFFFF0) && decide (value ≤ 0x0FFFFFF6)
  | .none, _ => false

/-! ## Mounting -/

/-- The fields that `fat_mount` takes from the boot sector. Offsets are those of the packed
`fat_bpb_common_t` and `fat_bpb_32_t`. -/
def fatParseBpb (deviceIndex bootLba : UInt32) (sector : Buffer) : FatFs :=
  let totalSectors16 := (fatReadLe16 sector 19).toUInt32
  let sectorsPerFat16 := (fatReadLe16 sector 22).toUInt32
  { deviceIndex, bootLba
    bytesPerSector := (fatReadLe16 sector 11).toUInt32
    sectorsPerCluster := (sector 13).toUInt32
    reservedSectors := (fatReadLe16 sector 14).toUInt32
    fatCount := (sector 16).toUInt32
    rootEntryCount := (fatReadLe16 sector 17).toUInt32
    totalSectors := if totalSectors16 = 0 then fatReadLe32 sector 32 else totalSectors16
    sectorsPerFat := if sectorsPerFat16 = 0 then fatReadLe32 sector 36 else sectorsPerFat16
    rootCluster := if sectorsPerFat16 = 0 then fatReadLe32 sector 44 else 0
    firstFatLba := 0, firstDataLba := 0, firstRootDirLba := 0, rootDirSectors := 0, clusterCount := 0
    fatType := .none }

/-- The type follows from the number of clusters alone. -/
def fatTypeOf (clusterCount : UInt32) : FatType :=
  if clusterCount < 4085 then .fat12 else if clusterCount < 65525 then .fat16 else .fat32

/-- The mounted volume, or `none` for every reason `fat_mount` has to return `0`. What a failed mount
leaves in `*fs` is not modelled. -/
def fatMount (d : Disks) (deviceIndex bootLba : UInt32) (io : Io) : Option FatFs × Io :=
  match blockDeviceAt d deviceIndex with
  | none => (none, io.note "TERMOB: fat mount failed (device missing)")
  | some device =>
    match blockReadDevice d deviceIndex bootLba 1 freshBuffer io with
    | (none, io) => (none, io.note "TERMOB: fat boot sector read failed")
    | (some sector, io) =>
      let fs := fatParseBpb deviceIndex bootLba sector
      if ¬(fs.bytesPerSector = 512 ∨ fs.bytesPerSector = 1024 ∨ fs.bytesPerSector = 2048 ∨
          fs.bytesPerSector = 4096) then
        (none, io.note "TERMOB: fat mount failed (invalid bytes/sector)")
      else if fs.bytesPerSector ≠ device.sectorSizeBytes then
        (none, io.note "TERMOB: fat mount failed (sector size mismatch)")
      else if fatIsPowerOfTwo fs.sectorsPerCluster = false ∨ fs.sectorsPerCluster > 128 then
        (none, io.note "TERMOB: fat mount failed (invalid sectors/cluster)")
      else if fs.reservedSectors = 0 ∨ fs.fatCount = 0 ∨ fs.sectorsPerFat = 0 ∨ fs.totalSectors = 0 ∨
          sector 510 ≠ 0x55 ∨ sector 511 ≠ 0xAA then
        (none, io.note "TERMOB: fat mount failed (invalid BPB)")
      else
        let rootDirSectors := (fs.rootEntryCount * 32 + (fs.bytesPerSector - 1)) / fs.bytesPerSector
        let metadataSectors := fs.reservedSectors + fs.fatCount * fs.sectorsPerFat + rootDirSectors
        if fs.totalSectors ≤ metadataSectors then
          (none, io.note "TERMOB: fat mount failed (layout outside volume)")
        else
          let clusterCount := (fs.totalSectors - metadataSectors) / fs.sectorsPerCluster
          if clusterCount = 0 then (none, io.note "TERMOB: fat mount failed (no data clusters)")
          else
            let firstFatLba := fs.bootLba + fs.reservedSectors
            let firstRootDirLba := firstFatLba + fs.fatCount * fs.sectorsPerFat
            let fs :=
              { fs with
                fatType := fatTypeOf clusterCount
                clusterCount, rootDirSectors, firstFatLba
                firstRootDirLba := if fatTypeOf clusterCount = .fat32 then 0 else firstRootDirLba
                firstDataLba := firstRootDirLba + rootDirSectors }
            if fs.fatType = .fat32 ∧ fatClusterIsValid fs fs.rootCluster = false then
              (none, io.note "TERMOB: fat mount failed (invalid FAT32 root cluster)")
            else (some fs, io)

/-! ## The allocation table -/

/-- The byte offset of an entry in the table; `none` for a volume without a type. -/
def fatEntryOffset (fatType : FatType) (cluster : UInt32) : Option UInt32 :=
  match fatType with
  | .fat12 => some (cluster + cluster / 2)
  | .fat16 => some (cluster * 2)
  | .fat32 => some (cluster * 4)
  | .none => none

/-- An entry that straddles the end of a sector needs the next one as well. -/
def fatEntrySectors (fs : FatFs) (byteOffset : UInt32) : UInt32 :=
  if (fs.fatType = .fat12 ∧ byteOffset = fs.bytesPerSector - 1) ∨
      (fs.fatType = .fat16 ∧ byteOffset > fs.bytesPerSector - 2) ∨
      (fs.fatType = .fat32 ∧ byteOffset > fs.bytesPerSector - 4) then 2
  else 1

/-- The second `switch` of `fat_read_fat_entry`. -/
def fatEntryDecode (fatType : FatType) (cluster : UInt32) (entryBuffer : Buffer) (byteOffset : Nat) :
    Option UInt32 :=
  match fatType with
  | .fat12 =>
    let raw := fatReadLe16 entryBuffer byteOffset
    some (if cluster &&& 1 = 0 then (raw &&& 0x0FFF).toUInt32 else ((raw >>> 4) &&& 0x0FFF).toUInt32)
  | .fat16 => some (fatReadLe16 entryBuffer byteOffset).toUInt32
  | .fat32 => some (fatReadLe32 entryBuffer byteOffset &&& 0x0FFFFFFF)
  | .none => none

def fatReadFatEntry (d : Disks) (fs : FatFs) (cluster : UInt32) (io : Io) : Option UInt32 × Io :=
  if fs.bytesPerSector > 8192 then (none, io)
  else
    match fatEntryOffset fs.fatType cluster with
    | none => (none, io)
    | some fatOffset =>
      let sectorIndex := fatOffset / fs.bytesPerSector
      let byteOffset := fatOffset % fs.bytesPerSector
      match blockReadDevice d fs.deviceIndex (fs.firstFatLba + sectorIndex) (fatEntrySectors fs byteOffset)
          freshBuffer io with
      | (none, io) => (none, io)
      | (some entryBuffer, io) => (fatEntryDecode fs.fatType cluster entryBuffer byteOffset.toNat, io)

def fatClusterFirstLba (fs : FatFs) (cluster : UInt32) : UInt32 :=
  fs.firstDataLba + (cluster - 2) * fs.sectorsPerCluster

end TermobKernel.Fat

import TermobKernel.Fat.Directory

/-!
# FAT files

Open files of `fs/fat.c`: the handle with its cursor, opening by path, advancing along the cluster
chain, seeking and reading. A failed operation returns the handle as the code leaves it, half-moved
cursors included.
-/

namespace TermobKernel.Fat

@[ext]
structure FatFile where
  fs : FatFs
  dirent : Dirent
  position : UInt32
  currentCluster : UInt32
  currentClusterFileOffset : UInt32
  clustersSeen : UInt32
  visitedCount : UInt32
  visitedClusters : Vector UInt32 256
  deriving DecidableEq, Repr

def fatFileClusterSizeBytes (file : FatFile) : UInt32 := file.fs.bytesPerSector * file.fs.sectorsPerCluster

/-- The handle at the start of the file, with the given table of visited clusters. An empty file has no
current cluster. -/
def fatFileAtStart (fs : FatFs) (dirent : Dirent) (visitedClusters : Vector UInt32 256) : FatFile :=
  { fs, dirent
    position := 0
    currentCluster := if dirent.sizeBytes = 0 then 0 else dirent.firstCluster
    currentClusterFileOffset := 0
    clustersSeen := if dirent.sizeBytes = 0 then 0 else 1
    visitedCount := if dirent.sizeBytes = 0 then 0 else 1
    visitedClusters }

def fatOpenFile (d : Disks) (fs : FatFs) (path : List UInt8) (outFile : FatFile) (io : Io) :
    FatStatus × FatFile × Io :=
  match fatLookupPath d fs path ⟨freshDirent, false⟩ io with
  | (.ok, lookup, io) =>
    if lookup.isRoot = true ∨ lookup.dirent.kind ≠ .file then
      (.notFile, outFile, io.note "TERMOB: fat path target not file")
    else if lookup.dirent.suspicious then (.corrupt, outFile, io.note "TERMOB: fat file entry suspicious")
    else
      let file := fatFileAtStart fs lookup.dirent (Vector.replicate 256 0)
      if lookup.dirent.sizeBytes ≠ 0 ∧ fatClusterIsValid fs lookup.dirent.firstCluster = false then
        (.corrupt, file, io.note "TERMOB: fat file first cluster invalid")
      else if lookup.dirent.sizeBytes ≠ 0 then
        (.ok, { file with
          visitedClusters := file.visitedClusters.setIfInBounds 0 lookup.dirent.firstCluster }, io)
      else (.ok, file, io)
  | (status, _, io) => (status, outFile, io)

def fatFileResetState (file : FatFile) : FatFile :=
  fatFileAtStart file.fs file.dirent
    (if file.dirent.sizeBytes ≠ 0 then file.visitedClusters.setIfInBounds 0 file.dirent.firstCluster
      else file.visitedClusters)

def fatFileMaxClusters (file : FatFile) : UInt32 :=
  if file.dirent.sizeBytes = 0 then 0
  else (file.dirent.sizeBytes + fatFileClusterSizeBytes file - 1) / fatFileClusterSizeBytes file

def fatFileAdvanceCluster (d : Disks) (file : FatFile) (io : Io) : FatStatus × FatFile × Io :=
  if file.currentCluster = 0 ∨ fatClusterIsValid file.fs file.currentCluster = false then
    (.corrupt, file, io.note "TERMOB: fat file cluster invalid")
  else if file.clustersSeen ≥ fatFileMaxClusters file then
    (.corrupt, file, io.note "TERMOB: fat file chain too long")
  else
    match fatReadFatEntry d file.fs file.currentCluster io with
    | (none, io) => (.ioError, file, io.note "TERMOB: fat file next cluster read failed")
    | (some nextCluster, io) =>
      if fatEntryIsEnd file.fs.fatType nextCluster then
        (.corrupt, file, io.note "TERMOB: fat file chain ended before eof")
      else if nextCluster = 0 ∨ fatEntryIsBad file.fs.fatType nextCluster = true ∨
          fatEntryIsReserved file.fs.fatType nextCluster = true ∨
          fatClusterIsValid file.fs nextCluster = false then
        (.corrupt, file, io.note "TERMOB: fat file chain corrupted")
      else if nextCluster ∈ file.visitedClusters.toList.take file.visitedCount.toNat then
        (.corrupt, file, io.note "TERMOB: fat file chain loop detected")
      else if file.visitedCount ≥ 256 then
        (.corrupt, file, io.note "TERMOB: fat file chain exceeds loop guard")
      else
        (.ok,
          { file with
            currentCluster := nextCluster
            currentClusterFileOffset := file.currentClusterFileOffset + fatFileClusterSizeBytes file
            clustersSeen := file.clustersSeen + 1
            visitedClusters := file.visitedClusters.setIfInBounds file.visitedCount.toNat nextCluster
            visitedCount := file.visitedCount + 1 }, io)

/-- The loop of `fat_seek_file`: advance `n` times, or up to the first failure. -/
def fatAdvanceClusters (d : Disks) : Nat → FatFile → Io → FatStatus × FatFile × Io
  | 0, file, io => (.ok, file, io)
  | n + 1, file, io =>
    match fatFileAdvanceCluster d file io with
    | (.ok, file, io) => fatAdvanceClusters d n file io
    | (status, file, io) => (status, file, io)

def fatSeekFile (d : Disks) (file : FatFile) (offset : UInt32) (io : Io) : FatStatus × FatFile × Io :=
  if offset > file.dirent.sizeBytes then (.invalidArgument, file, io)
  else
    let file := fatFileResetState file
    if offset = 0 ∨ file.dirent.sizeBytes = 0 then (.ok, file, io)
    else
      let clusterSize := fatFileClusterSizeBytes file
      let clustersToAdvance := offset / clusterSize
      match fatAdvanceClusters d clustersToAdvance.toNat file io with
      | (.ok, file, io) =>
        (.ok, { file with
          position := offset, currentClusterFileOffset := clustersToAdvance * clusterSize }, io)
      | (status, file, io) => (status, file, io)

/-! ## Reading -/

def fatMinSize (a b : UInt32) : UInt32 := if a < b then a else b

/-- `fat_copy_bytes`: `count` bytes of `src` from `srcOffset` on, to `dst` from `dstOffset` on. -/
def fatCopyBytes (dst : Buffer) (dstOffset : Nat) (src : Buffer) (srcOffset : Nat) : Nat → Buffer
  | 0 => dst
  | count + 1 =>
    let dst := fatCopyBytes dst dstOffset src srcOffset count
    fun i => if i = dstOffset + count then src (srcOffset + count) else dst i

/-- What `fat_read_file` returns: the status, the handle, the caller's buffer and `*out_read_bytes`. -/
structure ReadResult where
  status : FatStatus
  file : FatFile
  buffer : Buffer
  readBytes : UInt32
  io : Io

/-- The loop of `fat_read_file`. A round that does not fail copies at least one byte, so that as many rounds
as there are bytes to copy are enough. -/
def fatReadLoop (d : Disks) (totalToCopy : UInt32) : Nat → FatFile → Buffer → UInt32 → Io → ReadResult
  | 0, file, buffer, copied, io => ⟨.ok, file, buffer, copied, io⟩
  | rounds + 1, file, buffer, copied, io =>
    if ¬copied < totalToCopy then ⟨.ok, file, buffer, copied, io⟩
    else if file.currentCluster = 0 ∨ fatClusterIsValid file.fs file.currentCluster = false then
      ⟨.corrupt, file, buffer, copied, io.note "TERMOB: fat file cluster invalid"⟩
    else
      let clusterSize := fatFileClusterSizeBytes file
      let clusterOffset := file.position - file.currentClusterFileOffset
      if clusterOffset ≥ clusterSize then
        ⟨.corrupt, file, buffer, copied, io.note "TERMOB: fat file cursor outside cluster"⟩
      else
        let sectorIndex := clusterOffset / file.fs.bytesPerSector
        let sectorByteOffset := clusterOffset % file.fs.bytesPerSector
        let sectorLba := fatClusterFirstLba file.fs file.currentCluster + sectorIndex
        match fatBlockReadSector d file.fs sectorLba io with
        | (none, io) => ⟨.ioError, file, buffer, copied, io.note "TERMOB: fat file data read failed"⟩
        | (some sector, io) =>
          let availableInSector := file.fs.bytesPerSector - sectorByteOffset
          let bytesThisRound := fatMinSize availableInSector (totalToCopy - copied)
          let buffer := fatCopyBytes buffer copied.toNat sector sectorByteOffset.toNat bytesThisRound.toNat
          let copied := copied + bytesThisRound
          let file := { file with position := file.position + bytesThisRound }
          if file.position ≥ file.dirent.sizeBytes then ⟨.ok, file, buffer, copied, io⟩
          else if file.position - file.currentClusterFileOffset ≥ clusterSize then
            match fatFileAdvanceCluster d file io with
            | (.ok, file, io) => fatReadLoop d totalToCopy rounds file buffer copied io
            | (status, file, io) => ⟨status, file, buffer, copied, io⟩
          else fatReadLoop d totalToCopy rounds file buffer copied io

def fatReadFile (d : Disks) (file : FatFile) (buffer : Buffer) (bufferSize : UInt32) (io : Io) :
    ReadResult :=
  if bufferSize = 0 ∨ file.position ≥ file.dirent.sizeBytes then ⟨.ok, file, buffer, 0, io⟩
  else if file.fs.bytesPerSector > 4096 then
    ⟨.corrupt, file, buffer, 0, io.note "TERMOB: fat file sector buffer too small"⟩
  else
    let totalToCopy := fatMinSize bufferSize (file.dirent.sizeBytes - file.position)
    fatReadLoop d totalToCopy totalToCopy.toNat file buffer 0 io

/-- What `fat_read_file_range` returns: the status, the caller's buffer and `*out_read_bytes`. -/
structure RangeResult where
  status : FatStatus
  buffer : Buffer
  readBytes : UInt32
  io : Io

def freshFile (fs : FatFs) : FatFile := fatFileAtStart fs freshDirent (Vector.replicate 256 0)

def fatReadFileRange (d : Disks) (fs : FatFs) (path : List UInt8) (offset : UInt32) (buffer : Buffer)
    (bufferSize : UInt32) (io : Io) : RangeResult :=
  match fatOpenFile d fs path (freshFile fs) io with
  | (.ok, file, io) =>
    if offset ≥ file.dirent.sizeBytes then ⟨.ok, buffer, 0, io⟩
    else
      match fatSeekFile d file offset io with
      | (.ok, file, io) =>
        let result := fatReadFile d file buffer bufferSize io
        ⟨result.status, result.buffer, result.readBytes, result.io⟩
      | (status, _, io) => ⟨status, buffer, 0, io⟩
  | (status, _, io) => ⟨status, buffer, 0, io⟩

end TermobKernel.Fat

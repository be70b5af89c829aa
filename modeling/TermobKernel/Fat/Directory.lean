import TermobKernel.Fat.Volume

/-!
# FAT directories

Directory entries, long names, the walks over a directory and the lookup of a path, from `fs/fat.c`. C
strings are lists of characters without the terminator; the long-name buffer, which has holes while it is
being filled, is the array of the source. A callback is a function on a user state of any type.
-/

namespace TermobKernel.Fat

inductive DirentKind where
  | file
  | directory
  | volumeLabel
  | lfn
  | deleted
  | reserved
  deriving DecidableEq, Repr

inductive FatStatus where
  | ok
  | invalidArgument
  | invalidPath
  | notFound
  | notDirectory
  | notFile
  | corrupt
  | ioError
  deriving DecidableEq, Repr

structure Dirent where
  shortName : List UInt8
  displayName : List UInt8
  rawName : List UInt8
  attributes : UInt8
  firstCluster : UInt32
  sizeBytes : UInt32
  kind : DirentKind
  hasLongName : Bool
  suspicious : Bool
  deriving DecidableEq, Repr

/-- A record on the stack before it is written. -/
def freshDirent : Dirent := ⟨[], [], [], 0, 0, 0, .file, false, false⟩

def fatAttrVolumeId : UInt8 := 0x08
def fatAttrDirectory : UInt8 := 0x10
def fatAttrLfn : UInt8 := 0x0F
def fatDirEntrySize : Nat := 32
def fatNameMax : Nat := 255
def fatMaxVisitedClusters : Nat := 256

/-! ## Long names -/

structure LfnState where
  active : Bool
  totalSlots : UInt8
  checksum : UInt8
  seenMask : UInt32
  name : Vector UInt8 256

def fatLfnReset : LfnState := ⟨false, 0, 0, 0, Vector.replicate 256 0⟩

def fatShortNameChecksum (rawName : List UInt8) : UInt8 :=
  rawName.foldl (fun checksum byte => (if checksum &&& 1 ≠ 0 then (0x80 : UInt8) else 0) +
    (checksum >>> 1) + byte) 0

def fatLfnAsciiChar (codeUnit : UInt16) : UInt8 := if codeUnit ≤ 0x007E then codeUnit.toUInt8 else 0x3F

def fatLfnStoreNamePart (state : LfnState) (slotIndex : UInt8) (charIndex : Nat)
    (codeUnit : UInt16) : LfnState :=
  if slotIndex = 0 then state
  else
    let targetIndex := (slotIndex - 1).toNat * 13 + charIndex
    if targetIndex ≥ fatNameMax then state
    else if codeUnit = 0x0000 then { state with name := state.name.setIfInBounds targetIndex 0 }
    else if codeUnit = 0xFFFF then state
    else { state with name := state.name.setIfInBounds targetIndex (fatLfnAsciiChar codeUnit) }

/-- Where the thirteen code units of a long-name entry lie in it. -/
def fatLfnUnitOffsets : List Nat := [1, 3, 5, 7, 9, 14, 16, 18, 20, 22, 24, 28, 30]

/-- `fat_lfn_collect` on the entry at `base`: whether all slots have been seen, and the new state. -/
def fatLfnCollect (state : LfnState) (sector : Buffer) (base : Nat) : Bool × LfnState :=
  let order := sector base &&& 0x1F
  let checksum := sector (base + 13)
  if sector (base + 11) ≠ fatAttrLfn ∨ sector (base + 12) ≠ 0 ∨ fatReadLe16 sector (base + 26) ≠ 0 then
    (false, fatLfnReset)
  else if order = 0 ∨ order > 20 then (false, fatLfnReset)
  else
    let isLast := sector base &&& 0x40 ≠ 0
    if ¬isLast ∧ (state.active = false ∨ state.totalSlots = 0 ∨ order > state.totalSlots ∨
        checksum ≠ state.checksum) then
      (false, fatLfnReset)
    else
      let state := if isLast then { fatLfnReset with
        active := true, totalSlots := order, checksum } else state
      let state := { state with seenMask := state.seenMask ||| (1 <<< (order.toUInt32 - 1)) }
      let state :=
        (fatLfnUnitOffsets.zipIdx).foldl
          (fun state part => fatLfnStoreNamePart state order part.2
            (fatReadLe16 sector (base + part.1))) state
      let expectedMask : UInt32 :=
        if state.totalSlots ≥ 32 then 0xFFFFFFFF else (1 <<< state.totalSlots.toUInt32) - 1
      (state.active && decide (state.seenMask &&& expectedMask = expectedMask), state)

/-! ## Names -/

def fatPrintable (c : UInt8) : UInt8 := if c < 32 ∨ c > 126 then 0x5F else c

def fatTrimBlanks (part : List UInt8) : List UInt8 := (part.reverse.dropWhile (· = 0x20)).reverse

/-- `fat_copy_83_name`: both parts without their trailing blanks, joined by a dot. -/
def fatCopy83Name (rawName : List UInt8) : List UInt8 :=
  let base := fatTrimBlanks (rawName.take 8)
  let ext := fatTrimBlanks (rawName.drop 8)
  let name :=
    base.mapIdx (fun i c => fatPrintable (if i = 0 ∧ c = 0x05 then 0xE5 else c)) ++
      (if ext = [] then [] else 0x2E :: ext.map fatPrintable)
  if name = [] then [0x3F] else name

def fatAsciiUpper (c : UInt8) : UInt8 := if c ≥ 0x61 ∧ c ≤ 0x7A then c - (0x61 - 0x41) else c

def fatNameEqualsCaseInsensitive : List UInt8 → List UInt8 → Bool
  | a :: as, b :: bs => if fatAsciiUpper a ≠
      fatAsciiUpper b then false else fatNameEqualsCaseInsensitive as bs
  | [], [] => true
  | _, _ => false

def fatDirentNameMatches (dirent : Dirent) (name : List UInt8) : Bool :=
  if dirent.hasLongName = true ∧ fatNameEqualsCaseInsensitive dirent.displayName name = true then true
  else fatNameEqualsCaseInsensitive dirent.shortName name

/-- `fat_dirent_from_raw` on the entry at `base`. -/
def fatDirentFromRaw (sector : Buffer) (base : Nat) : Dirent :=
  let rawName := (List.range 11).map fun i => sector (base + i)
  let attributes := sector (base + 11)
  let kind :=
    if sector base = 0xE5 then DirentKind.deleted
    else if attributes = fatAttrLfn then .lfn
    else if attributes &&& fatAttrVolumeId ≠ 0 then .volumeLabel
    else if attributes &&& fatAttrDirectory ≠ 0 then .directory
    else if attributes &&& 0xC0 ≠ 0 then .reserved
    else .file
  { shortName := fatCopy83Name rawName
    displayName := fatCopy83Name rawName
    rawName, attributes
    firstCluster := ((fatReadLe16 sector (base + 20)).toUInt32 <<< 16) |||
      (fatReadLe16 sector (base + 26)).toUInt32
    sizeBytes := fatReadLe32 sector (base + 28)
    kind
    hasLongName := false
    suspicious := decide (kind = .reserved) }

/-! ## Walking a directory -/

/-- A callback on a user state; it returns `false` to stop. `none` is the null pointer, which the
walks treat as a callback that never stops. -/
abbrev DirentCallback (σ : Type) := Option (FatFs → Dirent → σ → Bool × σ)

def DirentCallback.call {σ : Type} (callback : DirentCallback σ) (fs : FatFs) (dirent : Dirent)
    (user : σ) : Bool × σ :=
  match callback with
  | none => (true, user)
  | some f => f fs dirent user

/-- The dirent of a short entry, with the long name collected before it if that fits. -/
def fatShortDirent (fs : FatFs) (sector : Buffer) (base : Nat) (lfnState : LfnState) : Dirent :=
  let dirent := fatDirentFromRaw sector base
  let dirent :=
    if lfnState.active = true ∧ lfnState.checksum = fatShortNameChecksum dirent.rawName ∧
        lfnState.name[0] ≠ 0 then
      { dirent with
        displayName := (lfnState.name.toList.take fatNameMax).takeWhile (· ≠ 0)
        hasLongName := true }
    else dirent
  if (dirent.kind = .file ∨ dirent.kind = .directory) ∧ dirent.firstCluster ≠ 0 ∧
      fatClusterIsValid fs dirent.firstCluster = false then
    { dirent with suspicious := true }
  else dirent

/-- The loop of `fat_visit_sector_entries` from the entry at `base` on, with `count` entries left.
It ends with the long-name state, the user state and whether the end marker was met; the return
value is always `1`. -/
def fatVisitEntries {σ : Type} (fs : FatFs) (sector : Buffer) (callback : DirentCallback σ) :
    Nat → Nat → LfnState → σ → LfnState × σ × Bool
  | 0, _, lfnState, user => (lfnState, user, false)
  | count + 1, base, lfnState, user =>
    if sector base = 0x00 then (fatLfnReset, user, true)
    else if sector base = 0xE5 then
      let (goOn, user) := callback.call fs (fatDirentFromRaw sector base) user
      if goOn then fatVisitEntries fs sector callback count (base + fatDirEntrySize) fatLfnReset user
      else (fatLfnReset, user, false)
    else if sector (base + 11) = fatAttrLfn then
      fatVisitEntries fs sector callback count (base + fatDirEntrySize)
        (fatLfnCollect lfnState sector base).2 user
    else
      let (goOn, user) := callback.call fs (fatShortDirent fs sector base lfnState) user
      if goOn then fatVisitEntries fs sector callback count (base + fatDirEntrySize) fatLfnReset user
      else (fatLfnReset, user, false)

def fatVisitSectorEntries {σ : Type} (fs : FatFs) (sector : Buffer) (lfnState : LfnState)
    (callback : DirentCallback σ) (user : σ) : LfnState × σ × Bool :=
  fatVisitEntries fs sector callback ((fs.bytesPerSector.toNat + 31) / 32) 0 lfnState user

/-- How a walk over a directory ends. -/
inductive WalkEnd where
  | stopped
  | reachedEnd
  | exhausted
  | readFailed
  | nextFailed
  | looped
  | tooLong
  | corrupted
  | invalid
  deriving DecidableEq, Repr

/-- A run of sectors from `lba` on, with `count` sectors left. The walk stops after a sector in
which the user state asks for it (`stop`, the check of `context.found`). The result is `none` when
all sectors were visited. -/
def fatWalkSectors {σ : Type} (d : Disks) (fs : FatFs) (callback : DirentCallback σ) (stop : σ → Bool)
    (readFailMessage : String) : Nat → UInt32 → LfnState → σ → Io → Option WalkEnd × LfnState × σ × Io
  | 0, _, lfnState, user, io => (none, lfnState, user, io)
  | count + 1, lba, lfnState, user, io =>
    match fatBlockReadSector d fs lba io with
    | (none, io) => (some .readFailed, lfnState, user, io.note readFailMessage)
    | (some sector, io) =>
      let (lfnState, user, reachedEnd) := fatVisitSectorEntries fs sector lfnState callback user
      if stop user then (some .stopped, lfnState, user, io)
      else if reachedEnd then (some .reachedEnd, lfnState, user, io)
      else fatWalkSectors d fs callback stop readFailMessage count (lba + 1) lfnState user io

/-- The log messages of a walk along a cluster chain. -/
structure ChainMessages where
  readFail : String
  nextFail : String
  loop : String
  long : String
  corrupt : String
  invalid : String

/-- The loop shared by `fat_find_directory_cluster_chain` and `fat_list_cluster_chain`. The number
counts the free slots of the table of visited clusters. -/
def fatWalkChain {σ : Type} (d : Disks) (fs : FatFs) (callback : DirentCallback σ) (stop : σ → Bool)
    (messages : ChainMessages) : Nat → List UInt32 → UInt32 → LfnState → σ → Io → WalkEnd × σ × Io
  | slots, visited, cluster, lfnState, user, io =>
    if fatClusterIsValid fs cluster = false then (.invalid, user, io.note messages.invalid)
    else if cluster ∈ visited then (.looped, user, io.note messages.loop)
    else
      match slots with
      | 0 => (.tooLong, user, io.note messages.long)
      | slots + 1 =>
        match fatWalkSectors d fs callback stop messages.readFail fs.sectorsPerCluster.toNat
            (fatClusterFirstLba fs cluster) lfnState user io with
        | (some walkEnd, _, user, io) => (walkEnd, user, io)
        | (none, lfnState, user, io) =>
          match fatReadFatEntry d fs cluster io with
          | (none, io) => (.nextFailed, user, io.note messages.nextFail)
          | (some nextCluster, io) =>
            if fatEntryIsEnd fs.fatType nextCluster then (.exhausted, user, io)
            else if nextCluster = 0 ∨ fatEntryIsBad fs.fatType nextCluster = true ∨
                fatEntryIsReserved fs.fatType nextCluster = true ∨
                fatClusterIsValid fs nextCluster = false then
              (.corrupted, user, io.note messages.corrupt)
            else fatWalkChain d fs callback stop messages slots
              (visited ++ [cluster]) nextCluster lfnState user io

/-- The loop over the fixed root directory of FAT12 and FAT16: from `first_root_dir_lba` while the sector
number is below the wrapped sum. -/
def fatWalkRootFixed {σ : Type} (d : Disks) (fs : FatFs) (callback : DirentCallback σ) (stop : σ → Bool)
    (readFailMessage : String) (user : σ) (io : Io) : WalkEnd × σ × Io :=
  let count := (fs.firstRootDirLba + fs.rootDirSectors).toNat - fs.firstRootDirLba.toNat
  match fatWalkSectors d fs callback stop readFailMessage count fs.firstRootDirLba fatLfnReset user io with
  | (some walkEnd, _, user, io) => (walkEnd, user, io)
  | (none, _, user, io) => (.exhausted, user, io)

/-! ## Finding an entry -/

/-- `fat_find_entry_callback`; the context holds the match once there is one. -/
def fatFindEntryCallback (name : List UInt8) : FatFs → Dirent → Option Dirent → Bool × Option Dirent :=
  fun _ dirent found =>
    if dirent.kind = .deleted ∨ dirent.kind = .lfn ∨ dirent.kind = .volumeLabel ∨
        dirent.kind = .reserved then
      (true, found)
    else if fatDirentNameMatches dirent name = false then (true, found)
    else (false, some dirent)

/-- The status of a search: what is found is refused if it is suspicious. -/
def fatFindStatus : WalkEnd → Option Dirent → FatStatus
  | .stopped, some dirent => if dirent.suspicious then .corrupt else .ok
  | .stopped, none => .notFound
  | .reachedEnd, _ => .notFound
  | .exhausted, _ => .notFound
  | .readFailed, _ => .ioError
  | .nextFailed, _ => .ioError
  | .looped, _ => .corrupt
  | .tooLong, _ => .corrupt
  | .corrupted, _ => .corrupt
  | .invalid, _ => .corrupt

def fatFindRootFixed (d : Disks) (fs : FatFs) (name : List UInt8) (io : Io) :
    FatStatus × Option Dirent × Io :=
  let (walkEnd, found, io) := fatWalkRootFixed d fs (some (fatFindEntryCallback name)) Option.isSome
    "TERMOB: fat path root read failed" none io
  (fatFindStatus walkEnd found, found, io)

def fatFindDirectoryClusterChain (d : Disks) (fs : FatFs) (startCluster : UInt32) (name : List UInt8)
    (messages : ChainMessages) (io : Io) : FatStatus × Option Dirent × Io :=
  let (walkEnd, found, io) := fatWalkChain d fs (some (fatFindEntryCallback name)) Option.isSome messages
    fatMaxVisitedClusters [] startCluster fatLfnReset none io
  (fatFindStatus walkEnd found, found, io)

def fatFindRootEntry (d : Disks) (fs : FatFs) (name : List UInt8) (io : Io) :
    FatStatus × Option Dirent × Io :=
  match fs.fatType with
  | .fat12 => fatFindRootFixed d fs name io
  | .fat16 => fatFindRootFixed d fs name io
  | .fat32 =>
    fatFindDirectoryClusterChain d fs fs.rootCluster name
      { readFail := "TERMOB: fat path root read failed"
        nextFail := "TERMOB: fat path root next cluster read failed"
        loop := "TERMOB: fat path root loop detected"
        long := "TERMOB: fat path root chain too long for guard table"
        corrupt := "TERMOB: fat path root chain corrupted"
        invalid := "TERMOB: fat path root cluster invalid" } io
  | .none => (.corrupt, none, io)

def fatFindDirectoryEntry (d : Disks) (fs : FatFs) (startCluster : UInt32) (name : List UInt8) (io : Io) :
    FatStatus × Option Dirent × Io :=
  if fatClusterIsValid fs startCluster = false then
    (.corrupt, none, io.note "TERMOB: fat path directory cluster invalid")
  else
    fatFindDirectoryClusterChain d fs startCluster name
      { readFail := "TERMOB: fat path directory read failed"
        nextFail := "TERMOB: fat path directory next cluster read failed"
        loop := "TERMOB: fat path directory loop detected"
        long := "TERMOB: fat path directory chain too long for guard table"
        corrupt := "TERMOB: fat path directory chain corrupted"
        invalid := "TERMOB: fat path directory cluster invalid" } io

/-! ## Paths -/

def fatSkipPathSeparators (path : List UInt8) : List UInt8 := path.dropWhile (· = 0x2F)

def fatIsValidPathChar (c : UInt8) : Bool := decide (c ≥ 32) && decide (c ≤ 126) && decide (c ≠ 0x2F)

def fatParseChars (outComponentSize : Nat) : List UInt8 → List UInt8 → Option (List UInt8 × List UInt8)
  | component, [] => some (component, [])
  | component, c :: cursor =>
    if c = 0x2F then some (component, c :: cursor)
    else if fatIsValidPathChar c = false ∨ component.length + 1 ≥ outComponentSize then none
    else fatParseChars outComponentSize (component ++ [c]) cursor

/-- The component, whether more follow, and the cursor behind it. -/
def fatParsePathComponent (outComponentSize : Nat) (pathCursor : List UInt8) :
    Option (List UInt8 × Bool × List UInt8) :=
  match fatSkipPathSeparators pathCursor with
  | [] => some ([], false, [])
  | cursor =>
    match fatParseChars outComponentSize [] cursor with
    | none => none
    | some (component, rest) =>
      let rest := fatSkipPathSeparators rest
      some (component, decide (rest ≠ []), rest)

structure LookupResult where
  dirent : Dirent
  isRoot : Bool
  deriving DecidableEq, Repr

/-- The loop of `fat_lookup_path`. Every round takes at least one character, so that as many rounds as there
are characters are enough. -/
def fatLookupLoop (d : Disks) (fs : FatFs) :
    Nat → List UInt8 → LookupResult → Io → FatStatus × LookupResult × Io
  | 0, _, out, io => (.ok, out, io)
  | rounds + 1, cursor, out, io =>
    if cursor = [] then (.ok, out, io)
    else
      match fatParsePathComponent 13 cursor with
      | none => (.invalidPath, out, io.note "TERMOB: fat path component invalid")
      | some (component, hasMore, cursor) =>
        if component = [] then (.invalidPath, out, io.note "TERMOB: fat path component invalid")
        else if out.isRoot = false ∧ out.dirent.kind ≠ .directory then
          (.notDirectory, out, io.note "TERMOB: fat path used file as directory")
        else
          match (if out.isRoot then fatFindRootEntry d fs component io
            else fatFindDirectoryEntry d fs out.dirent.firstCluster component io) with
          | (.ok, some entry, io) =>
            if entry.suspicious then (.corrupt, out, io.note "TERMOB: fat path matched suspicious entry")
            else
              let out : LookupResult := ⟨entry, false⟩
              if hasMore = true ∧ entry.kind ≠ .directory then
                (.notDirectory, out, io.note "TERMOB: fat path used file as directory")
              else fatLookupLoop d fs rounds cursor out io
          | (status, _, io) => (status, out, io)

def fatLookupPath (d : Disks) (fs : FatFs) (path : List UInt8) (out : LookupResult) (io : Io) :
    FatStatus × LookupResult × Io :=
  if path.head? ≠ some 0x2F then (.invalidPath, out, io.note "TERMOB: fat path invalid syntax")
  else
    let cursor := fatSkipPathSeparators path
    fatLookupLoop d fs cursor.length cursor { out with isRoot := true } io

end TermobKernel.Fat

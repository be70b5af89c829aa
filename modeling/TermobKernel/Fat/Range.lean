import TermobKernel.Fat.Seeking
import TermobKernel.Fat.Accounting

/-!
# Random access

`fat_read_file_range` opens a file, seeks and reads. The seek finds the cluster of the offset by a
walk from the first cluster on, a sequence of reads comes to it step by step; both end with the same
bytes.
-/

namespace TermobKernel.Fat
open Word Slices

section
variable {d : Disks} {fs : FatFs}

theorem fatLookupLoop_clean {out : LookupResult} (hout : out.isRoot = true ∨ out.dirent.suspicious = false)
    (rounds : Nat) (cursor : List UInt8) (io : Io) :
    (fatLookupLoop d fs rounds cursor out io).2.1.isRoot = true ∨
      (fatLookupLoop d fs rounds cursor out io).2.1.dirent.suspicious = false := by
  induction rounds generalizing cursor out io with
  | zero => exact hout
  | succ rounds ih =>
    rw [fatLookupLoop]
    split
    · exact hout
    split
    · exact hout
    split
    · exact hout
    split
    · exact hout
    split
    · split
      · exact hout
      · next hclean =>
        have hentry : (⟨_, false⟩ : LookupResult).dirent.suspicious = false := Bool.eq_false_iff.mpr hclean
        dsimp only
        split
        · exact Or.inr hentry
        · exact ih (Or.inr hentry) _ _
    · exact hout

theorem fatLookupPath_clean {path : List UInt8} {out lookup : LookupResult} {io io' : Io}
    (h : fatLookupPath d fs path out io = (.ok, lookup, io')) (hroot : lookup.isRoot = false) :
    lookup.dirent.suspicious = false := by
  unfold fatLookupPath at h
  split at h
  · cases h
  · have hclean : lookup.isRoot = true ∨ lookup.dirent.suspicious = false := by
      have hloop := @fatLookupLoop_clean d fs { out with isRoot := true } (Or.inl rfl)
        (fatSkipPathSeparators path).length (fatSkipPathSeparators path) io
      rwa [h] at hloop
    rw [hroot] at hclean
    exact hclean.resolve_left Bool.false_ne_true

theorem HealthyChain.fatOpenFile_eq {device : BlockDevice} {chain : List UInt32} {path : List UInt8}
    {lookup : LookupResult} {io io' : Io} (hh : HealthyChain device fs lookup.dirent chain)
    (hm : Mounted d fs device)
    (hlookup : fatLookupPath d fs path ⟨freshDirent, false⟩ io = (.ok, lookup, io'))
    (hroot : lookup.isRoot = false) (hkind : lookup.dirent.kind = .file) (outFile : FatFile) :
    fatOpenFile d fs path outFile io = (.ok, openedHandle fs lookup.dirent, io') := by
  have hclean := fatLookupPath_clean hlookup hroot
  rw [fatOpenFile, hlookup]
  dsimp only
  rw [if_neg (by simp [hroot, hkind]), if_neg (by simp [hclean])]
  by_cases hempty : lookup.dirent.sizeBytes = 0
  · rw [if_neg (by simp [hempty]), if_neg (by simp [hempty])]
    simp [openedHandle, fatFileResetState, fatFileAtStart, hempty]
  · have hpos : 0 < lookup.dirent.sizeBytes.toNat :=
      Nat.pos_of_ne_zero fun h => hempty (UInt32.toNat_inj.mp h)
    have hlen : 0 < chain.length := Nat.lt_of_le_of_lt (Nat.zero_le _) (hh.div_lt hm hpos)
    have hvalid : fatClusterIsValid fs lookup.dirent.firstCluster = true := by
      rw [← hh.head _ (List.getElem?_eq_getElem hlen)]
      exact hh.valid _ (List.getElem_mem hlen)
    rw [if_neg (by simp [hvalid]), if_pos hempty]
    simp [openedHandle, fatFileResetState, fatFileAtStart, hempty]

theorem bytesOf_stored (buffer : Buffer) (bytes : List UInt8) :
    bytesOf (stored buffer 0 bytes) bytes.length = bytes := by
  apply List.ext_getElem
  · simp [bytesOf]
  · intro i _ hi
    simp [bytesOf, stored, hi]

theorem HealthyChain.fatReadFile_stored {device : BlockDevice} {dirent : Dirent}
    {chain : List UInt32} (hh : HealthyChain device fs dirent chain) (hm : Mounted d fs device)
    (hreads : ∀ n lba, device.fails n lba = false) {file : FatFile} {pos : Nat}
    (hc : Cursor fs dirent chain file pos) (buffer : Buffer) (bufferSize : UInt32) (io : Io) :
    ∃ file' io', fatReadFile d file buffer bufferSize io =
      ⟨.ok, file', stored buffer 0 (slice (fileBytes device fs dirent chain) pos bufferSize.toNat),
        UInt32.ofNat (slice (fileBytes device fs dirent chain) pos bufferSize.toNat).length, io'⟩ := by
  obtain ⟨hlow, hhigh⟩ := hm.bytesPerSector_bounds
  rw [← hc.volume] at hlow hhigh
  have hposition : file.position ≤ file.dirent.sizeBytes := by
    rw [UInt32.le_iff_toNat_le, hc.position, hc.entry]
    exact hc.le
  have hspec := hh.fatReadFile_spec hm hc buffer bufferSize io
  obtain ⟨hok, hcount, _⟩ := hspec.complete fun n _ lba => hreads n lba
  have hbytes := hspec.bytes
  obtain ⟨status, file', bytes, io', hbound, _, heq⟩ :=
    fatReadFile_stores d (by omega) hhigh hposition bufferSize io
  have hlength : (UInt32.ofNat bytes.length).toNat = bytes.length := by
    have hlt := bufferSize.toNat_lt
    rw [UInt32.toNat_ofNat', Nat.mod_eq_of_lt (by omega)]
  rw [heq buffer] at hok hcount hbytes ⊢
  dsimp only at hok hcount hbytes
  rw [hcount, ReadResult.bytes, hlength, bytesOf_stored, ← hh.fileBytes_length hm, slice_min] at hbytes
  rw [hok, ← hbytes]
  exact ⟨file', io', rfl⟩

end

/-- **Random access is slicing.** On an accepted volume whose device does not fail, for a path to a
file with a healthy chain, `fat_read_file_range` stores and counts the bytes of the file from any
offset on. A caller who opens the file, reads `offset` bytes and then reads again gets the same. -/
theorem range_reads_slice {d : Disks} {deviceIndex bootLba : UInt32} {io₀ io₁ io io' : Io}
    {fs : FatFs} {device : BlockDevice} {path : List UInt8} {lookup : LookupResult}
    {chain : List UInt32} (hmount : fatMount d deviceIndex bootLba io₀ = (some fs, io₁))
    (hdevice : blockDeviceAt d deviceIndex = some device)
    (hreads : ∀ n lba, device.fails n lba = false)
    (hlookup : fatLookupPath d fs path ⟨freshDirent, false⟩ io = (.ok, lookup, io'))
    (hfile : lookup.isRoot = false ∧ lookup.dirent.kind = .file)
    (hchain : HealthyChain device fs lookup.dirent chain) (offset : UInt32) (buffer : Buffer)
    (bufferSize : UInt32) :
    let content := fileBytes device fs lookup.dirent chain
    content.length = lookup.dirent.sizeBytes.toNat ∧
    (∃ io'', fatReadFileRange d fs path offset buffer bufferSize io =
      ⟨.ok, stored buffer 0 (slice content offset.toNat bufferSize.toNat),
        UInt32.ofNat (slice content offset.toNat bufferSize.toNat).length, io''⟩) ∧
    ∀ (outFile : FatFile) (dropped : Buffer), ∃ file, fatOpenFile d fs path outFile io = (.ok, file, io') ∧
      (readAll d file io' [(dropped, offset), (buffer, bufferSize)]).1.map ReadResult.bytes =
        [slice content 0 offset.toNat, slice content offset.toNat bufferSize.toNat] := by
  have hm := fatMount_device hmount hdevice
  have hlen := hchain.fileBytes_length hm
  have hopen := hchain.fatOpenFile_eq hm hlookup hfile.1 hfile.2
  dsimp only
  refine ⟨hlen, ?_, fun outFile dropped => ⟨_, hopen outFile, ?_⟩⟩
  · rw [fatReadFileRange, hopen]
    dsimp only
    have hentry : (openedHandle fs lookup.dirent).dirent = lookup.dirent := rfl
    by_cases hbeyond : offset ≥ lookup.dirent.sizeBytes
    · have hle := UInt32.le_iff_toNat_le.mp hbeyond
      rw [hentry, if_pos hbeyond, slice_of_length_le (by omega), stored_nil]
      exact ⟨_, rfl⟩
    · have hlt : offset.toNat < lookup.dirent.sizeBytes.toNat := by
        rwa [ge_iff_le, UInt32.not_le, UInt32.lt_iff_toNat_lt] at hbeyond
      obtain ⟨file', io'', hseek, hcursor⟩ := hchain.fatSeekFile_spec hm hreads rfl hentry
        (UInt32.le_iff_toNat_le.mpr hlt.le) (Or.inr (hchain.div_lt hm hlt)) io'
      obtain ⟨_, io₃, hread⟩ := hchain.fatReadFile_stored hm hreads hcursor buffer bufferSize io''
      rw [hentry, if_neg hbeyond, hseek]
      dsimp only
      rw [hread]
      exact ⟨io₃, rfl⟩
  · obtain ⟨_, hpieces, _, _⟩ := hchain.readAll_reliable hm (hchain.cursor_opened hm) io'
      (fun n _ lba => hreads n lba)
      [(dropped, offset), (buffer, bufferSize)]
    rw [hpieces]
    simp only [requested, List.map_cons, List.map_nil, pieces, Nat.zero_add]
    rw [slice_length, Nat.sub_zero]
    rcases Nat.le_total offset.toNat (fileBytes device fs lookup.dirent chain).length with hle | hle
    · rw [Nat.min_eq_left hle]
    · rw [Nat.min_eq_right hle, slice_of_length_le (le_refl _), slice_of_length_le hle]

/-- The last ten bytes of the file of two clusters, asked for with a buffer of a hundred. -/
theorem two_clusters_range : ∃ io,
    fatReadFileRange (sparseDisks twoClusterSectors fun _ _ => false) floppyVolume [0x2F, 0x41]
        1014 freshBuffer 100 ⟨[0], []⟩ =
      ⟨.ok, stored freshBuffer 0 [0, 0, 0, 0, 0, 0, 0, 0, 0, 9], 10, io⟩ := by
  have hlookup : fatLookupPath (sparseDisks twoClusterSectors fun _ _ => false) floppyVolume [0x2F, 0x41]
      ⟨freshDirent, false⟩ ⟨[0], []⟩ = (.ok, ⟨twoClusterEntry, false⟩, ⟨[0, 19], []⟩) := by decide +kernel
  have hslice : slice (fileBytes (sparseDevice twoClusterSectors fun _ _ => false) floppyVolume
    twoClusterEntry [2, 3])
      1014 100 = [0, 0, 0, 0, 0, 0, 0, 0, 0, 9] := by decide +kernel
  obtain ⟨_, ⟨io, hrange⟩, _⟩ := range_reads_slice twoCluster_mounts rfl (fun _ _ => rfl) hlookup ⟨rfl, rfl⟩
    twoCluster_healthy 1014 freshBuffer 100
  refine ⟨io, hrange.trans ?_⟩
  change RangeResult.mk _ (stored _ _ (slice _ 1014 100)) (UInt32.ofNat (slice _ 1014 100).length) _ = _
  rw [hslice]
  rfl

end TermobKernel.Fat

import TermobKernel.Fat.Reading

/-!
# Seeking in a file

`fat_seek_file` goes back to the first cluster and advances from there. On a file with a healthy
chain it reaches every offset up to the size, but for the end of a file that fills its last cluster,
for which it would need one cluster more than there are. When it fails, the handle is left where the
walk stopped.
-/

namespace TermobKernel.Fat
open Word Slices

theorem fatAdvanceClusters_step {d : Disks} {file file' : FatFile} {io io' : Io}
    (h : fatFileAdvanceCluster d file io = (.ok, file', io')) (n : Nat) :
    fatAdvanceClusters d (n + 1) file io = fatAdvanceClusters d n file' io' := by
  rw [fatAdvanceClusters, h]

theorem fatAdvanceClusters_refused {d : Disks} {file file' : FatFile} {io io' : Io} {status : FatStatus}
    (hstatus : status ≠ .ok) (h : fatFileAdvanceCluster d file io = (status, file', io')) (n : Nat) :
    fatAdvanceClusters d (n + 1) file io = (status, file', io') := by
  rw [fatAdvanceClusters, h]
  cases status with
  | ok => exact absurd rfl hstatus
  | _ => rfl

section Mounted
variable {d : Disks} {fs : FatFs} {device : BlockDevice} {dirent : Dirent} {chain : List UInt32}
variable {file : FatFile} {offset : UInt32}

/-! ### In a healthy chain -/

theorem HealthyChain.fatAdvanceClusters_spec (hh : HealthyChain device fs dirent chain)
    (hm : Mounted d fs device) (hreads : ∀ n lba, device.fails n lba = false) (n : Nat) {k : Nat}
    (hs : Standing fs chain file k) (hfs : file.fs = fs) (hdirent : file.dirent = dirent)
    (hn : k + n < chain.length) (io : Io) :
    ∃ file' io', fatAdvanceClusters d n file io = (.ok, file', io') ∧ Standing fs chain file' (k + n) ∧
      file'.fs = fs ∧ file'.dirent = dirent := by
  induction n generalizing file k io with
  | zero => exact ⟨file, io, rfl, hs, hfs, hdirent⟩
  | succ n ih =>
    have hshort := hh.short
    have hlt : k + 1 < chain.length := by omega
    have hnext := List.getElem?_eq_getElem hlt
    rcases hh.advance_spec hm hs hfs hdirent hnext io with ⟨_, hadvance⟩ | ⟨hfails, _⟩
    · obtain ⟨file', io', hloop, hstanding, hrest⟩ :=
        ih (hs.advanced hm hfs hnext (by omega)) hfs hdirent (by omega)
          (io.accessed (sectorRun (entryLba fs file.currentCluster) (entrySectors fs file.currentCluster)))
      refine ⟨file', io', ?_, ?_, hrest⟩
      · rw [fatAdvanceClusters_step hadvance, hloop]
      · rwa [show k + (n + 1) = k + 1 + n by omega]
    · exact absurd (fun j _ => hreads _ _) hfails

theorem HealthyChain.fatAdvanceClusters_beyond (hh : HealthyChain device fs dirent chain)
    (hm : Mounted d fs device) (n : Nat) {k : Nat} (hs : Standing fs chain file k)
    (hfs : file.fs = fs) (hdirent : file.dirent = dirent) (hn : chain.length ≤ k + n) (io : Io) :
    (fatAdvanceClusters d n file io).1 ≠ .ok := by
  have hk : k < chain.length := (List.getElem?_eq_some_iff.mp hs.cluster).1
  induction n generalizing file k io with
  | zero => omega
  | succ n ih =>
    have hshort := hh.short
    by_cases hlt : k + 1 < chain.length
    · have hnext := List.getElem?_eq_getElem hlt
      rcases hh.advance_spec hm hs hfs hdirent hnext io with ⟨_, hadvance⟩ | ⟨_, j, _, hadvance⟩
      · rw [fatAdvanceClusters_step hadvance]
        exact ih (hs.advanced hm hfs hnext (by omega)) hfs hdirent (by omega) _ hlt
      · rw [fatAdvanceClusters_refused (by decide) hadvance]
        simp
    · have hvalid : fatClusterIsValid file.fs file.currentCluster = true := by
        rw [hfs]
        exact hh.valid _ (List.mem_of_getElem? hs.cluster)
      have hlong : file.clustersSeen ≥ fatFileMaxClusters file := by
        rw [ge_iff_le, UInt32.le_iff_toNat_le, hs.seen, hh.maxClusters_toNat hm hfs hdirent]
        omega
      have hadvance : fatFileAdvanceCluster d file io =
          (.corrupt, file, io.note "TERMOB: fat file chain too long") := by
        rw [fatFileAdvanceCluster, if_neg (by simp [valid_ne_zero hvalid, hvalid]), if_pos hlong]
      rw [fatAdvanceClusters_refused (by decide) hadvance]
      simp

theorem fatSeekFile_eq (hle : offset ≤ file.dirent.sizeBytes) (hoffset : offset ≠ 0) (io : Io) :
    fatSeekFile d file offset io =
      match fatAdvanceClusters d (offset / fatFileClusterSizeBytes file).toNat
        (fatFileResetState file) io with
      | (.ok, file', io) =>
        (.ok, { file' with
          position := offset
          currentClusterFileOffset :=
          offset / fatFileClusterSizeBytes file * fatFileClusterSizeBytes file }, io)
      | (status, file', io) => (status, file', io) := by
  have hsize : ¬(offset = 0 ∨ (fatFileResetState file).dirent.sizeBytes = 0) := by
    rw [not_or]
    refine ⟨hoffset, fun hzero => hoffset ?_⟩
    rw [show file.dirent.sizeBytes = 0 from hzero, UInt32.le_iff_toNat_le] at hle
    exact UInt32.toNat_inj.mp (Nat.le_zero.mp hle)
  unfold fatSeekFile
  rw [if_neg (UInt32.not_lt.mpr hle)]
  dsimp only
  rw [if_neg hsize]
  rfl

theorem fatSeekFile_status (hle : offset ≤ file.dirent.sizeBytes) (hoffset : offset ≠ 0) (io : Io) :
    (fatSeekFile d file offset io).1 =
      (fatAdvanceClusters d (offset / fatFileClusterSizeBytes file).toNat
        (fatFileResetState file) io).1 := by
  rw [fatSeekFile_eq hle hoffset]
  generalize fatAdvanceClusters d _ (fatFileResetState file) io = result
  obtain ⟨status, _, _⟩ := result
  cases status <;> rfl

theorem HealthyChain.div_lt_iff (hh : HealthyChain device fs dirent chain) (hm : Mounted d fs device)
    {offset : Nat} (hle : offset ≤ dirent.sizeBytes.toNat) :
    offset / clusterSize fs < chain.length ↔
      ¬(offset = dirent.sizeBytes.toNat ∧ clusterSize fs ∣ dirent.sizeBytes.toNat) := by
  have hpos := hm.clusterSize_bounds.1
  constructor
  · rintro hlt ⟨rfl, m, hfull⟩
    have hlen := hh.length
    rw [hfull, Nat.mul_add_div hpos, Nat.div_eq_of_lt (show clusterSize fs - 1 < _ by omega)] at hlen
    rw [hfull, Nat.mul_div_cancel_left _ hpos] at hlt
    omega
  · intro hinside
    by_contra hge
    have hsize := hh.size_le hm
    have hfull := Nat.mul_le_of_le_div _ _ _ (Nat.not_lt.mp hge)
    exact hinside ⟨by omega, chain.length, by rw [Nat.mul_comm]; omega⟩

theorem HealthyChain.fatSeekFile_spec (hh : HealthyChain device fs dirent chain) (hm : Mounted d fs device)
    (hreads : ∀ n lba, device.fails n lba = false) (hfs : file.fs = fs)
    (hdirent : file.dirent = dirent) (hle : offset ≤ dirent.sizeBytes)
    (hin : offset = 0 ∨ offset.toNat / clusterSize fs < chain.length) (io : Io) :
    ∃ file' io', fatSeekFile d file offset io = (.ok, file', io') ∧
      Cursor fs dirent chain file' offset.toNat := by
  have hreset := hh.cursor_reset hm hfs hdirent
  have hcs := hm.clusterSizeBytes_toNat file hfs
  have hlast := UInt32.le_iff_toNat_le.mp hle
  by_cases hzero : offset = 0
  · refine ⟨fatFileResetState file, io, ?_, by rw [hzero]; exact hreset⟩
    unfold fatSeekFile
    rw [if_neg (by rw [hdirent]; exact UInt32.not_lt.mpr hle)]
    dsimp only
    rw [if_pos (Or.inl hzero)]
  · have hlt := hin.resolve_left hzero
    have hpos : 0 < dirent.sizeBytes.toNat := by
      have : offset.toNat ≠ 0 := fun h => hzero (UInt32.toNat_inj.mp h)
      omega
    have hquot : (offset / fatFileClusterSizeBytes file).toNat = offset.toNat / clusterSize fs := by
      rw [UInt32.toNat_div, hcs]
    have hstart := hreset.standing hpos
    rw [Nat.zero_div] at hstart
    obtain ⟨file', io', hloop, hs, hfs', hdirent'⟩ :=
      hh.fatAdvanceClusters_spec hm hreads (offset.toNat / clusterSize fs) hstart hfs hdirent (by omega) io
    rw [Nat.zero_add] at hs
    rw [fatSeekFile_eq (by rw [hdirent]; exact hle) hzero, hquot, hloop]
    refine ⟨_, io', rfl, hfs', hdirent', rfl, hlast, fun _ =>
      ⟨hs.cluster, ?_, hs.seen, hs.count, hs.visited⟩⟩
    have hmul := Nat.div_mul_le_self offset.toNat (clusterSize fs)
    have hword := offset.toNat_lt
    change (offset / fatFileClusterSizeBytes file * fatFileClusterSizeBytes file).toNat = _
    rw [toNat_mul_of_lt (by rw [hquot, hcs]; omega), hquot, hcs]

end Mounted

/-- A seek succeeds with the position at the offset, and a read after it returns the bytes from there on. -/
def SeekReads (d : Disks) (content : List UInt8) (file : FatFile) (offset : UInt32) (io : Io) : Prop :=
  ∃ file' io', fatSeekFile d file offset io = (.ok, file', io') ∧ file'.position = offset ∧
    ∀ buffer bufferSize io'',
      (fatReadFile d file' buffer bufferSize io'').status = .ok ∧
      (fatReadFile d file' buffer bufferSize io'').bytes = slice content offset.toNat bufferSize.toNat

/-- **Seeking.** In a file with a healthy chain, on a device whose reads succeed, a seek to an
offset up to the size works if and only if the offset is not the end of a file that fills its last
cluster. -/
theorem seek_reads_iff {d : Disks} {deviceIndex bootLba : UInt32} {io₀ io₁ io : Io} {fs : FatFs}
    {device : BlockDevice} {file : FatFile} {chain : List UInt32} {offset : UInt32}
    (hmount : fatMount d deviceIndex bootLba io₀ = (some fs, io₁))
    (hdevice : blockDeviceAt d deviceIndex = some device) (hreads : ∀ n lba, device.fails n lba = false)
    (hfs : file.fs = fs) (hchain : HealthyChain device fs file.dirent chain)
    (hle : offset ≤ file.dirent.sizeBytes) :
    SeekReads d (fileBytes device fs file.dirent chain) file offset io ↔
      ¬(offset = file.dirent.sizeBytes ∧ 0 < file.dirent.sizeBytes ∧
        clusterSize fs ∣ file.dirent.sizeBytes.toNat) := by
  have hm := fatMount_device hmount hdevice
  have hlen := hchain.fileBytes_length hm
  have hlast := UInt32.le_iff_toNat_le.mp hle
  constructor
  · rintro ⟨file', io', hseek, _⟩ ⟨heq, hsize, hfull⟩
    have hpos := UInt32.lt_iff_toNat_lt.mp hsize
    have hne : offset ≠ 0 := by
      rintro rfl
      rw [← heq] at hpos
      exact absurd hpos (by decide)
    have hbeyond : chain.length ≤ 0 + (offset / fatFileClusterSizeBytes file).toNat := by
      rw [Nat.zero_add, UInt32.toNat_div, hm.clusterSizeBytes_toNat file hfs, ← Nat.not_lt,
        hchain.div_lt_iff hm hlast, not_not]
      exact ⟨congrArg UInt32.toNat heq, hfull⟩
    have hstart := (hchain.cursor_reset hm hfs rfl).standing hpos
    rw [Nat.zero_div] at hstart
    have hfailed := hchain.fatAdvanceClusters_beyond hm _ hstart hfs rfl hbeyond io
    rw [← fatSeekFile_status hle hne, hseek] at hfailed
    exact hfailed rfl
  · intro hinside
    have hin : offset = 0 ∨ offset.toNat / clusterSize fs < chain.length := by
      by_cases hzero : offset = 0
      · exact Or.inl hzero
      · right
        rw [hchain.div_lt_iff hm hlast]
        rintro ⟨heq, hfull⟩
        have hne : offset.toNat ≠ 0 := fun h => hzero (UInt32.toNat_inj.mp h)
        refine hinside ⟨UInt32.toNat_inj.mp heq, ?_, hfull⟩
        rw [UInt32.lt_iff_toNat_lt]
        change 0 < _
        omega
    obtain ⟨file', io', hseek, hc⟩ := hchain.fatSeekFile_spec hm hreads hfs rfl hle hin io
    refine ⟨file', io', hseek, UInt32.toNat_inj.mp hc.position, ?_⟩
    intro buffer bufferSize io''
    have hspec := hchain.fatReadFile_spec hm hc buffer bufferSize io''
    obtain ⟨hstatus, hcount, _⟩ := hspec.complete fun n _ lba => hreads n lba
    exact ⟨hstatus, by rw [hspec.bytes, hcount, ← hlen, slice_min]⟩

theorem two_clusters_seek_middle :
    SeekReads (sparseDisks twoClusterSectors fun _ _ => false)
      (fileBytes (sparseDevice twoClusterSectors fun _ _ => false) floppyVolume twoClusterEntry [2, 3])
      (openedHandle floppyVolume twoClusterEntry) 512 ⟨[0, 19], []⟩ :=
  (seek_reads_iff twoCluster_mounts rfl (fun _ _ => rfl)
    (show (openedHandle floppyVolume twoClusterEntry).fs = floppyVolume from rfl) twoCluster_healthy
    (show (512 : UInt32) ≤ 1024 by decide)).mpr fun h => absurd h.1 (show ¬(512 : UInt32) = 1024 by decide)

/-- The end of the file of two full clusters is an admitted offset, and the seek to it is refused. -/
theorem seek_end_of_full_cluster :
    fatMount (sparseDisks twoClusterSectors fun _ _ => false) 0 0 .start = (some floppyVolume, ⟨[0], []⟩) ∧
    fatOpenFile (sparseDisks twoClusterSectors fun _ _ => false) floppyVolume [0x2F, 0x41]
        (openedHandle floppyVolume freshDirent) ⟨[0], []⟩ =
      (.ok, openedHandle floppyVolume twoClusterEntry, ⟨[0, 19], []⟩) ∧
    HealthyChain (sparseDevice twoClusterSectors fun _ _ => false) floppyVolume twoClusterEntry [2, 3] ∧
    (1024 : UInt32) ≤ twoClusterEntry.sizeBytes ∧
    (fatSeekFile (sparseDisks twoClusterSectors fun _ _ => false)
      (openedHandle floppyVolume twoClusterEntry) 1024 ⟨[0, 19], []⟩).1 = .corrupt :=
  ⟨twoCluster_mounts, twoCluster_opens, twoCluster_healthy, by decide, by decide +kernel⟩

/-! ### Failed seeks -/

/-- Where the link of the last of the visited clusters leads, if it can be followed: the entry can
be read, it holds a valid cluster that is no marker and was not visited, and `limit` and the table
of visited clusters have room for it. -/
def nextLink (device : BlockDevice) (fs : FatFs) (limit : Nat) (seen : List UInt32) (io : Io) :
    Option (UInt32 × Io) :=
  match seen.getLast? with
  | none => none
  | some cluster =>
    match fatEntryValue device fs cluster with
    | none => none
    | some next =>
      if fatClusterIsValid fs cluster = true ∧ seen.length < limit ∧
          device.Serves io (entryLba fs cluster) (entrySectors fs cluster) ∧
          fatClusterIsValid fs next = true ∧ isMarker fs.fatType next = false ∧ next ∉ seen ∧
          seen.length < 256 then
        some (next, io.accessed (sectorRun (entryLba fs cluster) (entrySectors fs cluster)))
      else none

/-- Follow `n` links, or as many as can be followed: whether all could be, and the clusters that
were visited. -/
def followLinks (device : BlockDevice) (fs : FatFs) (limit : Nat) :
    Nat → List UInt32 → Io → Bool × List UInt32
  | 0, seen, _ => (true, seen)
  | n + 1, seen, io =>
    match nextLink device fs limit seen io with
    | none => (false, seen)
    | some (next, io) => followLinks device fs limit n (seen ++ [next]) io

theorem fatFileAdvanceCluster_cases (d : Disks) (file : FatFile) (io : Io) :
    (∃ next io', fatReadFatEntry d file.fs file.currentCluster io = (some next, io') ∧
      fatClusterIsValid file.fs file.currentCluster = true ∧ file.clustersSeen < fatFileMaxClusters file ∧
      fatClusterIsValid file.fs next = true ∧ isMarker file.fs.fatType next = false ∧
      next ∉ file.visitedClusters.toList.take file.visitedCount.toNat ∧ file.visitedCount < 256) ∨
    (∃ status io', status ≠ .ok ∧ fatFileAdvanceCluster d file io = (status, file, io')) := by
  unfold fatFileAdvanceCluster
  by_cases hcurrent : file.currentCluster = 0 ∨ fatClusterIsValid file.fs file.currentCluster = false
  · rw [if_pos hcurrent]
    exact Or.inr ⟨.corrupt, _, by decide, rfl⟩
  rw [if_neg hcurrent]
  by_cases hlong : file.clustersSeen ≥ fatFileMaxClusters file
  · rw [if_pos hlong]
    exact Or.inr ⟨.corrupt, _, by decide, rfl⟩
  rw [if_neg hlong]
  rcases hread : fatReadFatEntry d file.fs file.currentCluster io with ⟨_ | next, io'⟩
  · exact Or.inr ⟨.ioError, _, by decide, rfl⟩
  dsimp only
  split_ifs with hend hbad hvisited hfull
  · exact Or.inr ⟨.corrupt, _, by decide, rfl⟩
  · exact Or.inr ⟨.corrupt, _, by decide, rfl⟩
  · exact Or.inr ⟨.corrupt, _, by decide, rfl⟩
  · exact Or.inr ⟨.corrupt, _, by decide, rfl⟩
  · simp only [not_or, Bool.not_eq_true, Bool.not_eq_false] at hcurrent hend hbad
    refine Or.inl ⟨next, io', rfl, hcurrent.2, UInt32.not_le.mp hlong, hbad.2.2.2, ?_, hvisited,
      UInt32.not_le.mp hfull⟩
    simp [isMarker, hend, hbad.2.1, hbad.2.2.1]

section Mounted
variable {d : Disks} {fs : FatFs} {device : BlockDevice} {seen : List UInt32}

theorem Mounted.advance_nextLink (hm : Mounted d fs device) {file : FatFile} {k : Nat}
    (hs : Standing fs seen file k) (hlen : seen.length = k + 1) (hfs : file.fs = fs) (io : Io) :
    match nextLink device fs (fatFileMaxClusters file).toNat seen io with
    | some (next, io') => fatFileAdvanceCluster d file io = (.ok, file.advanced next, io') ∧ k + 1 < 256
    | none => ∃ status io', status ≠ .ok ∧ fatFileAdvanceCluster d file io = (status, file, io') := by
  have hlast : seen.getLast? = some file.currentCluster := by
    rw [List.getLast?_eq_getElem?, hlen]
    exact hs.cluster
  have hvisited : file.visitedClusters.toList.take file.visitedCount.toNat = seen := by
    rw [hs.count, hs.visited, ← hlen, List.take_length]
  subst hfs
  cases hlink : nextLink device file.fs (fatFileMaxClusters file).toNat seen io with
  | some step =>
    obtain ⟨next, io'⟩ := step
    unfold nextLink at hlink
    rw [hlast] at hlink
    dsimp only at hlink
    cases hentry : fatEntryValue device file.fs file.currentCluster with
    | none => simp [hentry] at hlink
    | some value =>
      rw [hentry] at hlink
      dsimp only at hlink
      split_ifs at hlink with hcan
      obtain ⟨rfl, rfl⟩ := Prod.mk.inj (Option.some.inj hlink)
      obtain ⟨hvalid, hbelow, hserves, hnext, hmarker, hnew, hroom⟩ := hcan
      refine ⟨fatFileAdvanceCluster_ok hvalid ?_ ?_ hnext hmarker (by rwa [hvisited]) ?_, by omega⟩
      · rw [UInt32.lt_iff_toNat_lt, hs.seen]
        omega
      · rcases hm.onDevice.fatReadFatEntry_spec file.currentCluster io with ⟨_, hread⟩ | ⟨hfails, _⟩
        · rw [hread, hentry]
        · exact absurd hserves hfails
      · rw [UInt32.lt_iff_toNat_lt, hs.count]
        change _ < 256
        omega
  | none =>
    rcases fatFileAdvanceCluster_cases d file io with
      ⟨next, io', hread, hvalid, hbelow, hnext, hmarker, hnew, hroom⟩ | hfailed
    · rcases hm.onDevice.fatReadFatEntry_spec file.currentCluster io with
        ⟨hserves, hspec⟩ | ⟨_, j, _, hspec⟩
      · have hentry : fatEntryValue device file.fs file.currentCluster = some next := by
          rw [hread] at hspec
          exact (Prod.mk.inj hspec).1.symm
        rw [UInt32.lt_iff_toNat_lt, hs.seen] at hbelow
        rw [UInt32.lt_iff_toNat_lt, hs.count] at hroom
        rw [hvisited] at hnew
        have hroom : k + 1 < 256 := hroom
        simp [nextLink, hlast, hentry, hvalid, hlen, hbelow, hserves, hnext, hmarker, hnew, hroom] at hlink
      · rw [hread] at hspec
        exact absurd (Prod.mk.inj hspec).1 (by simp)
    · exact hfailed

/-- How the loop of `fat_seek_file` leaves a handle when it stops early: at the last of the visited
clusters, with nothing else changed but the table behind them. -/
structure LeftAt (fs : FatFs) (before after : FatFile) (seen : List UInt32) : Prop where
  volume : after.fs = before.fs
  entry : after.dirent = before.dirent
  position : after.position = before.position
  some : 0 < seen.length
  standing : Standing fs seen after (seen.length - 1)
  behind : after.visitedClusters.toList.drop seen.length = before.visitedClusters.toList.drop seen.length

theorem followLinks_length (device : BlockDevice) (fs : FatFs) (limit n : Nat) (seen : List UInt32)
    (io : Io) : seen.length ≤ (followLinks device fs limit n seen io).2.length := by
  induction n generalizing seen io with
  | zero => exact le_refl _
  | succ n ih =>
    rw [followLinks]
    cases nextLink device fs limit seen io with
    | none => exact le_refl _
    | some step =>
      refine le_trans ?_ (ih (seen ++ [step.1]) step.2)
      simp

theorem LeftAt.advanced {file after : FatFile} {next : UInt32} {seen : List UInt32}
    (h : LeftAt fs (file.advanced next) after seen) (hlen : file.visitedCount.toNat < seen.length) :
    LeftAt fs file after seen := by
  refine ⟨h.volume, h.entry, h.position, h.some, h.standing, ?_⟩
  rw [h.behind]
  change (file.visitedClusters.setIfInBounds file.visitedCount.toNat next).toList.drop seen.length = _
  rw [Vector.toList_setIfInBounds, List.drop_set_of_lt hlen]

theorem Mounted.fatAdvanceClusters_followLinks (hm : Mounted d fs device) (n : Nat) {file : FatFile}
    {k : Nat} (hs : Standing fs seen file k) (hlen : seen.length = k + 1) (hfs : file.fs = fs)
    (io : Io) :
    ((followLinks device fs (fatFileMaxClusters file).toNat n seen io).1 = true ∧
      (fatAdvanceClusters d n file io).1 = .ok) ∨
    ((followLinks device fs (fatFileMaxClusters file).toNat n seen io).1 = false ∧
      (fatAdvanceClusters d n file io).1 ≠ .ok ∧
      LeftAt fs file (fatAdvanceClusters d n file io).2.1
        (followLinks device fs (fatFileMaxClusters file).toNat n seen io).2) := by
  induction n generalizing file seen k io with
  | zero => exact Or.inl ⟨rfl, rfl⟩
  | succ n ih =>
    have hstep := hm.advance_nextLink hs hlen hfs io
    rw [followLinks]
    cases hlink : nextLink device fs (fatFileMaxClusters file).toNat seen io with
    | none =>
      rw [hlink] at hstep
      obtain ⟨status, io', hstatus, hadvance⟩ := hstep
      rw [fatAdvanceClusters_refused hstatus hadvance]
      refine Or.inr ⟨rfl, hstatus, rfl, rfl, rfl, by change 0 < seen.length; omega, ?_, rfl⟩
      change Standing fs seen file (seen.length - 1)
      rwa [hlen, Nat.add_sub_cancel]
    | some step =>
      obtain ⟨next, io'⟩ := step
      rw [hlink] at hstep
      obtain ⟨hadvance, hroom⟩ := hstep
      have hnext : (seen ++ [next])[k + 1]? = some next := by
        rw [← hlen, List.getElem?_concat_length]
      have hlonger : Standing fs (seen ++ [next]) file k := by
        refine ⟨?_, hs.offset, hs.seen, hs.count, ?_⟩
        · rw [List.getElem?_append_left (by omega)]
          exact hs.cluster
        · rw [hs.visited, List.take_append_of_le_length (by omega)]
      have hlen' : (seen ++ [next]).length = k + 1 + 1 := by simp [hlen]
      rw [fatAdvanceClusters_step hadvance]
      rcases ih (hlonger.advanced hm hfs hnext hroom) hlen' hfs io' with hdone | ⟨hfailed, hstatus, hleft⟩
      · exact Or.inl hdone
      · refine Or.inr ⟨hfailed, hstatus, hleft.advanced ?_⟩
        have hgrown := followLinks_length device fs (fatFileMaxClusters file).toNat n (seen ++ [next]) io'
        rw [hlen'] at hgrown
        rw [hs.count]
        exact hgrown

/-- The loop leaves a handle as it was before the reset only if it was already standing there. -/
theorem LeftAt.eq_iff {file after : FatFile} (h : LeftAt fs (fatFileResetState file) after seen) :
    after = file ↔ file.position = 0 ∧ Standing fs seen file (seen.length - 1) := by
  have hpos := h.some
  have hlast : seen.length - 1 + 1 = seen.length := by omega
  constructor
  · rintro rfl
    exact ⟨h.position, h.standing⟩
  · rintro ⟨hposition, hs⟩
    have hbehind : after.visitedClusters.toList.drop seen.length =
        file.visitedClusters.toList.drop seen.length := by
      rw [h.behind]
      change (ite _ (file.visitedClusters.setIfInBounds 0 _) _).toList.drop _ = _
      split_ifs
      · rw [Vector.toList_setIfInBounds, List.drop_set_of_lt hpos]
      · rfl
    have hbefore : after.visitedClusters.toList.take seen.length =
        file.visitedClusters.toList.take seen.length := by
      have h₁ := h.standing.visited
      have h₂ := hs.visited
      rw [hlast] at h₁ h₂
      rw [h₁, h₂]
    apply FatFile.ext
    · exact h.volume
    · exact h.entry
    · exact h.position.trans hposition.symm
    · exact Option.some.inj (h.standing.cluster.symm.trans hs.cluster)
    · exact UInt32.toNat_inj.mp (h.standing.offset.trans hs.offset.symm)
    · exact UInt32.toNat_inj.mp (h.standing.seen.trans hs.seen.symm)
    · exact UInt32.toNat_inj.mp (h.standing.count.trans hs.count.symm)
    · apply Vector.toList_inj.mp
      rw [← List.take_append_drop seen.length after.visitedClusters.toList, hbefore, hbehind,
        List.take_append_drop]

end Mounted

def SeekAtomic (d : Disks) (file : FatFile) (offset : UInt32) (io : Io) : Prop :=
  (fatSeekFile d file offset io).1 ≠ .ok → (fatSeekFile d file offset io).2.1 = file

/-- **Failed seeks.** On any disk and whatever accesses fail, a failed seek leaves the handle as it
was if and only if the offset is refused at once, or all links up to it can be followed, so that the
seek does not fail, or the handle is already where the walk from the first cluster stops. -/
theorem seek_atomic_iff {d : Disks} {deviceIndex bootLba : UInt32} {io₀ io₁ : Io} {fs : FatFs}
    {device : BlockDevice} {file : FatFile} (hmount : fatMount d deviceIndex bootLba io₀ = (some fs, io₁))
    (hdevice : blockDeviceAt d deviceIndex = some device) (hfs : file.fs = fs) (offset : UInt32) (io : Io) :
    let walk := followLinks device fs (fatFileMaxClusters file).toNat (offset.toNat / clusterSize fs)
      [file.dirent.firstCluster] io
    SeekAtomic d file offset io ↔ file.dirent.sizeBytes < offset ∨ walk.1 = true ∨
      (file.position = 0 ∧ Standing fs walk.2 file (walk.2.length - 1)) := by
  intro walk
  have hm := fatMount_device hmount hdevice
  unfold SeekAtomic
  by_cases hbeyond : file.dirent.sizeBytes < offset
  · have hseek : fatSeekFile d file offset io = (.invalidArgument, file, io) := by
      rw [fatSeekFile, if_pos hbeyond]
    rw [hseek]
    exact ⟨fun _ => Or.inl hbeyond, fun _ _ => rfl⟩
  have hle := UInt32.not_lt.mp hbeyond
  by_cases hzero : offset = 0
  · have hwalk : walk.1 = true := by
      change (followLinks _ _ _ (offset.toNat / clusterSize fs) _ _).1 = true
      rw [hzero, UInt32.toNat_zero, Nat.zero_div]
      rfl
    have hseek : (fatSeekFile d file offset io).1 = .ok := by
      unfold fatSeekFile
      rw [if_neg hbeyond]
      dsimp only
      rw [if_pos (Or.inl hzero)]
    rw [hseek]
    exact ⟨fun _ => Or.inr (Or.inl hwalk), fun _ h => absurd rfl h⟩
  have hne : file.dirent.sizeBytes ≠ 0 := by
    intro h
    rw [h, UInt32.le_iff_toNat_le] at hle
    exact hzero (UInt32.toNat_inj.mp (Nat.le_zero.mp hle))
  have hquot : (offset / fatFileClusterSizeBytes file).toNat = offset.toNat / clusterSize fs := by
    rw [UInt32.toNat_div, hm.clusterSizeBytes_toNat file hfs]
  rcases hm.fatAdvanceClusters_followLinks (offset.toNat / clusterSize fs)
    (standing_reset hne (show [file.dirent.firstCluster][0]? = some _ from rfl)) rfl hfs io with
    ⟨hwalk, hstatus⟩ | ⟨hwalk, hstatus, hleft⟩
  · rw [fatSeekFile_status hle hzero, hquot, hstatus]
    exact ⟨fun _ => Or.inr (Or.inl hwalk), fun _ h => absurd rfl h⟩
  · have hwalk : walk.1 = false := hwalk
    have hfile : (fatSeekFile d file offset io).2.1 =
        (fatAdvanceClusters d (offset.toNat / clusterSize fs) (fatFileResetState file) io).2.1 := by
      rw [fatSeekFile_eq hle hzero, hquot]
      rcases hloop : fatAdvanceClusters d (offset.toNat / clusterSize fs) (fatFileResetState file) io with
        ⟨status, file', io'⟩
      rw [hloop] at hstatus
      cases status with
      | ok => exact absurd rfl hstatus
      | _ => rfl
    rw [fatSeekFile_status hle hzero, hquot, hfile, hleft.eq_iff]
    constructor
    · exact fun h => Or.inr (Or.inr (h hstatus))
    · rintro (h | h | h) _
      · exact absurd h hbeyond
      · rw [hwalk] at h
        exact absurd h (by decide)
      · exact h

theorem two_clusters_seek_atomic :
    SeekAtomic (sparseDisks twoClusterSectors fun _ _ => false)
      (openedHandle floppyVolume twoClusterEntry) 512
      ⟨[0, 19], []⟩ :=
  (seek_atomic_iff twoCluster_mounts rfl
    (show (openedHandle floppyVolume twoClusterEntry).fs = floppyVolume from rfl) 512 _).mpr
    (Or.inr (Or.inl (by decide +kernel)))

def tenBytesRead : FatFile :=
  (fatReadFile (sparseDisks twoClusterSectors fun _ _ => false) (openedHandle floppyVolume twoClusterEntry)
    freshBuffer 10 ⟨[0, 19], []⟩).file

/-- Ten bytes into the file of two full clusters, a seek to its end fails. Before it, a read would
have gone on; after it the position is lost, and a read is told that the file is corrupt. -/
theorem failed_seek_loses_position :
    fatOpenFile (sparseDisks twoClusterSectors fun _ _ => false) floppyVolume [0x2F, 0x41]
        (openedHandle floppyVolume freshDirent) ⟨[0], []⟩ =
      (.ok, openedHandle floppyVolume twoClusterEntry, ⟨[0, 19], []⟩) ∧
    ¬SeekAtomic (sparseDisks twoClusterSectors fun _ _ => false) tenBytesRead 1024 .start ∧
    tenBytesRead.position = 10 ∧
    (fatReadFile (sparseDisks twoClusterSectors fun _ _ => false) tenBytesRead
      freshBuffer 1 .start).status = .ok ∧
    (fatSeekFile (sparseDisks twoClusterSectors fun _ _ => false) tenBytesRead
      1024 .start).2.1.position = 0 ∧
    (fatReadFile (sparseDisks twoClusterSectors fun _ _ => false)
      (fatSeekFile (sparseDisks twoClusterSectors fun _ _ => false) tenBytesRead 1024 .start).2.1
      freshBuffer 1 .start).status = .corrupt := by
  refine ⟨twoCluster_opens, fun hatomic => ?_, by decide +kernel, by decide +kernel, by decide +kernel,
    by decide +kernel⟩
  have hposition := congrArg FatFile.position (hatomic (by decide +kernel))
  exact absurd hposition (by decide +kernel)

end TermobKernel.Fat

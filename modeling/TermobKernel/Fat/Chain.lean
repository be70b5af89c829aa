import TermobKernel.Fat.Table
import TermobKernel.Library.Slices

/-!
# Cluster chains and the cursor of a file

The contents of a file are the bytes of the clusters of its chain, up to its size. A handle keeps
its place in the chain in five fields; `Standing` says that they agree on the `k`-th cluster, and
`Cursor` that they agree with the position as well. `fat_file_advance_cluster` takes a handle from
one cluster of a healthy chain to the next, unless it cannot read the entry between them.
-/

namespace TermobKernel.Fat
open Word Slices

/-! ### Contents -/

def clusterSize (fs : FatFs) : Nat := fs.bytesPerSector.toNat * fs.sectorsPerCluster.toNat

def clusterByte (device : BlockDevice) (fs : FatFs) (cluster : UInt32) (i : Nat) : UInt8 :=
  device.image (fatClusterFirstLba fs cluster + UInt32.ofNat (i / fs.bytesPerSector.toNat))
    (i % fs.bytesPerSector.toNat)

def clusterBytes (device : BlockDevice) (fs : FatFs) (cluster : UInt32) : List UInt8 :=
  (List.range (clusterSize fs)).map (clusterByte device fs cluster)

/-- The chain of a file is healthy: it has as many clusters as the size needs, at most as many as a handle
can remember, all of them valid and different, and each linked to the next by an entry that is no marker. -/
structure HealthyChain (device : BlockDevice) (fs : FatFs) (dirent : Dirent)
    (chain : List UInt32) : Prop where
  length : chain.length = (dirent.sizeBytes.toNat + (clusterSize fs - 1)) / clusterSize fs
  short : chain.length ≤ 256
  head : ∀ cluster, chain[0]? = some cluster → cluster = dirent.firstCluster
  valid : ∀ cluster ∈ chain, fatClusterIsValid fs cluster = true
  nodup : chain.Nodup
  linked : ∀ k cluster next, chain[k]? = some cluster → chain[k + 1]? = some next →
    fatEntryValue device fs cluster = some next ∧ isMarker fs.fatType next = false

def fileBytes (device : BlockDevice) (fs : FatFs) (dirent : Dirent) (chain : List UInt32) : List UInt8 :=
  (chain.flatMap (clusterBytes device fs)).take dirent.sizeBytes.toNat

/-- The fields of a handle that say which cluster it is in agree on the `k`-th cluster of the chain. -/
structure Standing (fs : FatFs) (chain : List UInt32) (file : FatFile) (k : Nat) : Prop where
  cluster : chain[k]? = some file.currentCluster
  offset : file.currentClusterFileOffset.toNat = k * clusterSize fs
  seen : file.clustersSeen.toNat = k + 1
  count : file.visitedCount.toNat = k + 1
  visited : file.visitedClusters.toList.take (k + 1) = chain.take (k + 1)

/-- The handle is at position `pos` of the file, and unless this is the end, in the cluster of that
position. -/
structure Cursor (fs : FatFs) (dirent : Dirent) (chain : List UInt32) (file : FatFile)
    (pos : Nat) : Prop where
  volume : file.fs = fs
  entry : file.dirent = dirent
  position : file.position.toNat = pos
  le : pos ≤ dirent.sizeBytes.toNat
  standing : pos < dirent.sizeBytes.toNat → Standing fs chain file (pos / clusterSize fs)

section Mounted
variable {d : Disks} {fs : FatFs} {device : BlockDevice} {dirent : Dirent} {chain : List UInt32}
variable {file : FatFile} {next : UInt32} {k : Nat}

theorem Mounted.clusterSize_bounds (hm : Mounted d fs device) :
    0 < clusterSize fs ∧ clusterSize fs ≤ 2 ^ 19 := by
  obtain ⟨hlow, hhigh⟩ := hm.bytesPerSector_bounds
  obtain ⟨hpos, hle⟩ := hm.sectorsPerCluster_bounds
  refine ⟨Nat.mul_pos (by omega) hpos, ?_⟩
  calc clusterSize fs ≤ 4096 * 128 := Nat.mul_le_mul hhigh hle
    _ = 2 ^ 19 := by decide

theorem Mounted.clusterSizeBytes_toNat (hm : Mounted d fs device) (file : FatFile) (hfs : file.fs = fs) :
    (fatFileClusterSizeBytes file).toNat = clusterSize fs := by
  have hle := hm.clusterSize_bounds.2
  unfold clusterSize at hle
  rw [fatFileClusterSizeBytes, hfs, toNat_mul_of_lt (by omega), clusterSize]

theorem clusterBytes_length (cluster : UInt32) :
    (clusterBytes device fs cluster).length = clusterSize fs := by
  simp [clusterBytes]

section
variable (hh : HealthyChain device fs dirent chain)
include hh

theorem HealthyChain.size_le (hm : Mounted d fs device) :
    dirent.sizeBytes.toNat ≤ chain.length * clusterSize fs := by
  obtain ⟨hsize, _⟩ := hm.clusterSize_bounds
  have := Nat.lt_mul_div_succ (dirent.sizeBytes.toNat + (clusterSize fs - 1)) hsize
  rw [← hh.length, Nat.mul_comm, Nat.add_one_mul] at this
  omega

theorem HealthyChain.div_lt (hm : Mounted d fs device) {pos : Nat}
    (hpos : pos < dirent.sizeBytes.toNat) : pos / clusterSize fs < chain.length :=
  (Nat.div_lt_iff_lt_mul hm.clusterSize_bounds.1).mpr (Nat.lt_of_lt_of_le hpos (hh.size_le hm))

/-- A healthy chain is so short that no offset in the file comes near the end of a word. -/
theorem HealthyChain.size_small (hm : Mounted d fs device) :
    chain.length * clusterSize fs ≤ 2 ^ 27 := by
  calc chain.length * clusterSize fs ≤ 256 * 2 ^ 19 := Nat.mul_le_mul hh.short hm.clusterSize_bounds.2
    _ = 2 ^ 27 := by decide

theorem HealthyChain.fileBytes_length (hm : Mounted d fs device) :
    (fileBytes device fs dirent chain).length = dirent.sizeBytes.toNat := by
  rw [fileBytes, List.length_take, length_flatMap_blocks fun c _ => clusterBytes_length c]
  exact Nat.min_eq_left (hh.size_le hm)

end

theorem Mounted.fileBytes_get (hm : Mounted d fs device) {pos : Nat} {cluster : UInt32}
    (hpos : pos < dirent.sizeBytes.toNat) (hcluster : chain[pos / clusterSize fs]? = some cluster) :
    (fileBytes device fs dirent chain)[pos]? =
      some (clusterByte device fs cluster (pos % clusterSize fs)) := by
  obtain ⟨hsize, _⟩ := hm.clusterSize_bounds
  rw [fileBytes, List.getElem?_take_of_lt hpos,
    getElem?_flatMap_blocks hsize fun c _ => clusterBytes_length c, hcluster, Option.bind_some,
    clusterBytes, List.getElem?_map, List.getElem?_range (Nat.mod_lt _ hsize), Option.map_some]

/-! ### Advancing along the chain -/

/-- The bound that `fat_file_advance_cluster` puts on the number of clusters, as long as the sum
does not wrap. -/
theorem Mounted.maxClusters_toNat (hm : Mounted d fs device) (hfs : file.fs = fs)
    (hroom : file.dirent.sizeBytes.toNat + clusterSize fs ≤ 2 ^ 32) :
    (fatFileMaxClusters file).toNat =
        (file.dirent.sizeBytes.toNat + (clusterSize fs - 1)) / clusterSize fs := by
  obtain ⟨hpos, hle⟩ := hm.clusterSize_bounds
  have hcs := hm.clusterSizeBytes_toNat file hfs
  unfold fatFileMaxClusters
  by_cases hzero : file.dirent.sizeBytes = 0
  · rw [if_pos hzero, hzero]
    exact (Nat.div_eq_of_lt (by rw [UInt32.toNat_zero]; omega)).symm
  · have hsub : (file.dirent.sizeBytes + fatFileClusterSizeBytes file - 1).toNat =
        file.dirent.sizeBytes.toNat + (clusterSize fs - 1) := by
      rw [UInt32.toNat_sub, UInt32.toNat_add, hcs]
      change (2 ^ 32 - 1 + _) % 2 ^ 32 = _
      omega
    rw [if_neg hzero, UInt32.toNat_div, hsub, hcs]

theorem HealthyChain.maxClusters_toNat (hh : HealthyChain device fs dirent chain)
    (hm : Mounted d fs device) (hfs : file.fs = fs) (hdirent : file.dirent = dirent) :
    (fatFileMaxClusters file).toNat = chain.length := by
  have hsize := hh.size_le hm
  have hsmall := hh.size_small hm
  have hle := hm.clusterSize_bounds.2
  rw [hm.maxClusters_toNat hfs (by rw [hdirent]; omega), hdirent, hh.length]

theorem not_mem_take_of_nodup {chain : List UInt32} (hnodup : chain.Nodup)
    (hnext : chain[k]? = some next) : next ∉ chain.take k := by
  intro hmem
  obtain ⟨i, hi, hget⟩ := List.mem_take_iff_getElem.mp hmem
  obtain ⟨hk, hget'⟩ := List.getElem?_eq_some_iff.mp hnext
  have := (List.Nodup.getElem_inj_iff hnodup).mp (hget.trans hget'.symm)
  omega

theorem take_set_visited (visited : Vector UInt32 256) (hk : k < 256) (next : UInt32) :
    (visited.setIfInBounds k next).toList.take (k + 1) = visited.toList.take k ++ [next] := by
  have hlist : (visited.setIfInBounds k next).toList = visited.toList.set k next := by
    simp
  rw [hlist, List.take_succ_eq_append_getElem (by simpa using hk), List.take_set_of_le (le_refl k)]
  simp

theorem Standing.advanced (hm : Mounted d fs device)
    (hfs : file.fs = fs) (hs : Standing fs chain file k) (hnext : chain[k + 1]? = some next)
    (hk : k + 1 < 256) : Standing fs chain (file.advanced next) (k + 1) := by
  have hcs := hm.clusterSizeBytes_toNat file hfs
  have hmul : (k + 1) * clusterSize fs ≤ 256 * 2 ^ 19 := Nat.mul_le_mul hk.le hm.clusterSize_bounds.2
  rw [Nat.add_one_mul] at hmul
  constructor
  · exact hnext
  · change (file.currentClusterFileOffset + fatFileClusterSizeBytes file).toNat = _
    have hoffset := hs.offset
    rw [toNat_add_of_lt (by omega), hcs, hoffset, Nat.add_one_mul]
  · change (file.clustersSeen + 1).toNat = _
    have hseen := hs.seen
    rw [toNat_add_of_lt (by change _ + 1 < _; omega), hseen]
    rfl
  · change (file.visitedCount + 1).toNat = _
    have hcount := hs.count
    rw [toNat_add_of_lt (by change _ + 1 < _; omega), hcount]
    rfl
  · change (file.visitedClusters.setIfInBounds file.visitedCount.toNat next).toList.take (k + 1 + 1) = _
    rw [hs.count, take_set_visited _ hk, hs.visited, List.take_add_one (i := k + 1), hnext,
      Option.toList_some]

theorem HealthyChain.advance_spec (hh : HealthyChain device fs dirent chain)
    (hm : Mounted d fs device) (hs : Standing fs chain file k) (hfs : file.fs = fs)
    (hdirent : file.dirent = dirent) (hnext : chain[k + 1]? = some next) (io : Io) :
    (device.Serves io (entryLba fs file.currentCluster) (entrySectors fs file.currentCluster) ∧
      fatFileAdvanceCluster d file io = (.ok, file.advanced next,
        io.accessed (sectorRun (entryLba fs file.currentCluster) (entrySectors fs file.currentCluster)))) ∨
    (¬device.Serves io (entryLba fs file.currentCluster) (entrySectors fs file.currentCluster) ∧
      ∃ j, device.StopsAfter io (entryLba fs file.currentCluster) (entrySectors fs file.currentCluster) j ∧
        fatFileAdvanceCluster d file io = (.ioError, file,
        (io.accessed (sectorRun (entryLba fs file.currentCluster) j)).note
          "TERMOB: fat file next cluster read failed")) := by
  obtain ⟨hk, _⟩ := List.getElem?_eq_some_iff.mp hnext
  obtain ⟨hvalue, hmarker⟩ := hh.linked k _ _ hs.cluster hnext
  have hcurrent : fatClusterIsValid fs file.currentCluster = true :=
    hh.valid _ (List.mem_of_getElem? hs.cluster)
  have hseen : file.clustersSeen < fatFileMaxClusters file := by
    rw [UInt32.lt_iff_toNat_lt, hs.seen, hh.maxClusters_toNat hm hfs hdirent]
    exact hk
  subst hfs
  rcases hm.onDevice.fatReadFatEntry_spec file.currentCluster io with
    ⟨hserves, hread⟩ | ⟨hfails, j, hstops, hread⟩
  · left
    refine ⟨hserves, ?_⟩
    rw [hvalue] at hread
    refine fatFileAdvanceCluster_ok hcurrent hseen hread (hh.valid _ (List.mem_of_getElem? hnext))
      hmarker ?_ ?_
    · rw [hs.count, hs.visited]
      exact not_mem_take_of_nodup hh.nodup hnext
    · have hshort := hh.short
      rw [UInt32.lt_iff_toNat_lt, hs.count]
      change _ < 256
      omega
  · right
    refine ⟨hfails, j, hstops, ?_⟩
    unfold fatFileAdvanceCluster
    rw [if_neg (by simp [valid_ne_zero hcurrent, hcurrent]), if_neg (UInt32.not_le.mpr hseen), hread]

/-! ### The start of a file -/

theorem standing_reset (hne : file.dirent.sizeBytes ≠ 0)
    (hhead : chain[0]? = some file.dirent.firstCluster) : Standing fs chain (fatFileResetState file) 0 := by
  unfold fatFileResetState fatFileAtStart
  constructor
  · simp only [if_neg hne, hhead]
  · simp
  · simp only [if_neg hne]
    rfl
  · simp only [if_neg hne]
    rfl
  · simp only [ne_eq, hne, not_false_eq_true, if_true]
    rw [take_set_visited _ (by decide), List.take_zero, List.take_add_one, List.take_zero, hhead]
    rfl

theorem HealthyChain.cursor_reset (hh : HealthyChain device fs dirent chain)
    (hm : Mounted d fs device) (hfs : file.fs = fs) (hdirent : file.dirent = dirent) :
    Cursor fs dirent chain (fatFileResetState file) 0 := by
  refine ⟨hfs, hdirent, rfl, Nat.zero_le _, ?_⟩
  intro hpos
  have hne : dirent.sizeBytes ≠ 0 := by
    intro h
    rw [h] at hpos
    exact absurd hpos (by decide)
  have hlen : 0 < chain.length := Nat.lt_of_le_of_lt (Nat.zero_le _) (hh.div_lt hm hpos)
  have hhead : chain[0]? = some dirent.firstCluster := by
    rw [List.getElem?_eq_getElem hlen, hh.head _ (List.getElem?_eq_getElem hlen)]
  subst hdirent
  rw [Nat.zero_div]
  exact standing_reset hne hhead

end Mounted

/-- The handle that `fat_open_file` returns for a directory entry. -/
def openedHandle (fs : FatFs) (dirent : Dirent) : FatFile :=
  fatFileResetState (fatFileAtStart fs dirent (Vector.replicate 256 0))

theorem HealthyChain.cursor_opened {d : Disks} {fs : FatFs} {device : BlockDevice} {dirent : Dirent}
    {chain : List UInt32} (hh : HealthyChain device fs dirent chain) (hm : Mounted d fs device) :
    Cursor fs dirent chain (openedHandle fs dirent) 0 :=
  hh.cursor_reset hm rfl rfl

theorem fatOpenFile_ok {d : Disks} {fs : FatFs} {path : List UInt8} {outFile file : FatFile} {io io' : Io}
    (h : fatOpenFile d fs path outFile io = (.ok, file, io')) :
    file = openedHandle fs file.dirent := by
  unfold fatOpenFile at h
  split at h
  · split_ifs at h with hroot hsuspicious hinvalid hsize
    all_goals obtain ⟨hstatus, hfile, _⟩ := by simpa only [Prod.mk.injEq] using h
    all_goals first | exact absurd hstatus (by decide) | subst hfile
    · simp [openedHandle, fatFileResetState, fatFileAtStart, hsize]
    · simp [openedHandle, fatFileResetState, fatFileAtStart, not_not.mp hsize]
  · next hstatus _ =>
    obtain ⟨rfl, _, _⟩ := by simpa only [Prod.mk.injEq] using h
    simp at hstatus

/-! ### A concrete file -/

/-- A floppy with one file of two full clusters, `/A`: its entry in the root directory, the link
from cluster 2 to cluster 3 in the table, and a byte in each cluster. -/
def twoClusterSectors : List (UInt32 × List (Nat × UInt8)) :=
  [(0, floppyBoot), (1, [(3, 0x03), (4, 0xF0), (5, 0xFF)]),
    (19, [(0, 0x41), (1, 32), (2, 32), (3, 32), (4, 32), (5, 32), (6, 32), (7, 32), (8, 32),
      (9, 32), (10, 32), (11, 0x20), (26, 2), (29, 4)]),
    (33, [(0, 7)]), (34, [(511, 9)])]

def twoClusterEntry : Dirent :=
  { shortName := [0x41], displayName := [0x41], rawName := [0x41, 32, 32, 32, 32, 32, 32, 32, 32, 32, 32]
    attributes := 0x20, firstCluster := 2, sizeBytes := 1024, kind := .file, hasLongName := false
    suspicious := false }

theorem twoCluster_mounts : fatMount (sparseDisks twoClusterSectors fun _ _ => false) 0 0 .start =
    (some floppyVolume, ⟨[0], []⟩) := by
  decide

theorem twoCluster_opens :
    fatOpenFile (sparseDisks twoClusterSectors fun _ _ => false) floppyVolume [0x2F, 0x41]
        (openedHandle floppyVolume freshDirent) ⟨[0], []⟩ =
      (.ok, openedHandle floppyVolume twoClusterEntry, ⟨[0, 19], []⟩) := by
  decide +kernel

theorem twoCluster_healthy :
    HealthyChain (sparseDevice twoClusterSectors fun _ _ => false) floppyVolume twoClusterEntry [2, 3] := by
  refine ⟨by decide, by decide, ?_, ?_, by decide, ?_⟩
  · intro cluster h
    exact (Option.some.inj h).symm
  · intro cluster hmem
    obtain rfl | rfl : cluster = 2 ∨ cluster = 3 := by simpa using hmem
    · decide
    · decide
  · intro k cluster next hcluster hnext
    obtain ⟨hlt, _⟩ := List.getElem?_eq_some_iff.mp hnext
    have hk : k = 0 := by
      simp only [List.length_cons, List.length_nil] at hlt
      omega
    subst hk
    obtain rfl := Option.some.inj hcluster
    obtain rfl := Option.some.inj hnext
    decide

end TermobKernel.Fat

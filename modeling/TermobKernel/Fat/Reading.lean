import TermobKernel.Fat.Chain

/-!
# Reading a file

`fat_read_file` on a file with a healthy chain, on a device that may fail at any access. A call
returns the next bytes of the file; it ends with all that was asked for, at a data sector that could
not be read, or at an entry of the table that could not be read. After the first two the cursor is
good. After the third the handle is stuck at the end of a cluster: the position has moved on, the
cluster has not, and every later read finds the position outside of the cluster.
-/

namespace TermobKernel.Fat
open Word Slices

variable {device : BlockDevice} {lba : UInt32} {chain : List UInt32} {count : Nat} {dirent : Dirent}
  {fs : FatFs} {io : Io} {n n' : Nat}

/-! ### Buffers -/

def bytesOf (buffer : Buffer) (n : Nat) : List UInt8 := (List.range n).map buffer

def ReadResult.bytes (result : ReadResult) : List UInt8 := bytesOf result.buffer result.readBytes.toNat

theorem fatCopyBytes_apply (dst : Buffer) (dstOffset : Nat) (src : Buffer) (srcOffset count i : Nat) :
    fatCopyBytes dst dstOffset src srcOffset count i =
      if dstOffset ≤ i ∧ i < dstOffset + count then src (srcOffset + (i - dstOffset)) else dst i := by
  induction count with
  | zero => rw [fatCopyBytes, if_neg (by omega)]
  | succ count ih =>
    rw [fatCopyBytes]
    dsimp only
    by_cases hi : i = dstOffset + count
    · rw [if_pos hi, if_pos (by omega), hi, Nat.add_sub_cancel_left]
    · rw [if_neg hi, ih]
      by_cases hin : dstOffset ≤ i ∧ i < dstOffset + count
      · rw [if_pos hin, if_pos (by omega)]
      · rw [if_neg hin, if_neg (by omega)]

theorem bytesOf_fatCopyBytes (dst src : Buffer) (copied srcOffset count : Nat) :
    bytesOf (fatCopyBytes dst copied src srcOffset count) (copied + count) =
      bytesOf dst copied ++ (List.range count).map fun i => src (srcOffset + i) := by
  unfold bytesOf
  rw [List.range_add, List.map_append, List.map_map]
  congr 1
  · apply List.map_congr_left
    intro i hi
    rw [fatCopyBytes_apply, if_neg]
    have := List.mem_range.mp hi
    omega
  · apply List.map_congr_left
    intro i hi
    have := List.mem_range.mp hi
    rw [Function.comp_apply, fatCopyBytes_apply, if_pos (by omega), Nat.add_sub_cancel_left]

theorem fatMinSize_toNat (a b : UInt32) : (fatMinSize a b).toNat = min a.toNat b.toNat := by
  unfold fatMinSize
  split_ifs with h
  · exact (Nat.min_eq_left (UInt32.lt_iff_toNat_lt.mp h).le).symm
  · exact (Nat.min_eq_right (UInt32.le_iff_toNat_le.mp (UInt32.not_lt.mp h))).symm

/-! ### One round -/

/-- Some access from the `n`-th on, to one of `count` sectors from `lba` on, fails. -/
def BlockDevice.FailsFrom (device : BlockDevice) (n : Nat) (lba : UInt32) (count : Nat) : Prop :=
  ∃ m ≥ n, ∃ j < count, device.fails m (lba + UInt32.ofNat j) = true

theorem failsFrom_of_not_serves
    (h : ¬device.Serves io lba count) : device.FailsFrom io.accesses.length lba count := by
  unfold BlockDevice.Serves at h
  push Not at h
  obtain ⟨j, hj, hfails⟩ := h
  exact ⟨_, Nat.le_add_right _ j, j, hj, by simpa using hfails⟩

theorem BlockDevice.FailsFrom.mono
    (h : device.FailsFrom n' lba count) (hn : n ≤ n') : device.FailsFrom n lba count := by
  obtain ⟨m, hm, rest⟩ := h
  exact ⟨m, hn.trans hm, rest⟩

/-- An access that was made, from the `n`-th on and to one of `count` sectors from `lba` on, has failed. -/
def BlockDevice.Failed (device : BlockDevice) (n : Nat) (io : Io) (lba : UInt32) (count : Nat) : Prop :=
  ∃ m ≥ n, ∃ j < count,
    io.accesses[m]? = some (lba + UInt32.ofNat j) ∧ device.fails m (lba + UInt32.ofNat j) = true

theorem BlockDevice.Failed.failsFrom {n : Nat}
    (h : device.Failed n io lba count) : device.FailsFrom n lba count := by
  obtain ⟨m, hm, j, hj, _, hfails⟩ := h
  exact ⟨m, hm, j, hj, hfails⟩

theorem BlockDevice.Failed.mono
    (h : device.Failed n' io lba count) (hn : n ≤ n') : device.Failed n io lba count := by
  obtain ⟨m, hm, rest⟩ := h
  exact ⟨m, hn.trans hm, rest⟩

theorem BlockDevice.StopsAfter.failed {count k : Nat}
    (h : device.StopsAfter io lba count k) (message : String) :
    device.Failed io.accesses.length ((io.accessed (sectorRun lba k)).note message) lba count := by
  obtain ⟨j, hj, rfl, hfails⟩ := h
  refine ⟨_, Nat.le_add_right _ j, j, hj, ?_, hfails⟩
  change (io.accesses ++ sectorRun lba (j + 1))[io.accesses.length + j]? = _
  rw [List.getElem?_append_right (Nat.le_add_right _ j), Nat.add_sub_cancel_left, sectorRun,
    List.getElem?_map, List.getElem?_range (Nat.lt_succ_self j), Option.map_some]

section Mounted
variable {d : Disks} {fs : FatFs} {device : BlockDevice} {dirent : Dirent} {chain : List UInt32}

theorem Mounted.sector_bytes (hm : Mounted d fs device) {pos n : Nat} {cluster : UInt32}
    (hcluster : chain[pos / clusterSize fs]? = some cluster)
    (hn : pos % clusterSize fs % fs.bytesPerSector.toNat + n ≤ fs.bytesPerSector.toNat)
    (hsize : pos + n ≤ dirent.sizeBytes.toNat) :
    slice (fileBytes device fs dirent chain) pos n = (List.range n).map fun i =>
      device.filled (fatClusterFirstLba fs cluster +
        UInt32.ofNat (pos % clusterSize fs / fs.bytesPerSector.toNat))
        1 freshBuffer (pos % clusterSize fs % fs.bytesPerSector.toNat + i) := by
  obtain ⟨hlow, _⟩ := hm.bytesPerSector_bounds
  obtain ⟨hpos, _⟩ := hm.sectorsPerCluster_bounds
  apply slice_eq_map_range
  intro i hi
  obtain ⟨hblock, hsector, hbyte⟩ := place_add (k := fs.sectorsPerCluster.toNat)
    (show 0 < fs.bytesPerSector.toNat by omega) hpos
    (show pos % clusterSize fs % fs.bytesPerSector.toNat + i < fs.bytesPerSector.toNat by omega)
  have hin : pos % clusterSize fs % fs.bytesPerSector.toNat + i < fs.bytesPerSector.toNat := by omega
  rw [hm.fileBytes_get (by omega) (by rw [← hcluster]; exact congrArg _ hblock)]
  unfold clusterByte BlockDevice.filled
  rw [← hm.sectorSize, if_pos (by omega), Nat.div_eq_of_lt hin, Nat.mod_eq_of_lt hin]
  unfold clusterSize
  rw [hsector, hbyte]
  simp

theorem Cursor.clusterOffset_toNat {file : FatFile} {pos : Nat} (hc : Cursor fs dirent chain file pos)
    (hpos : pos < dirent.sizeBytes.toNat) :
    (file.position - file.currentClusterFileOffset).toNat = pos % clusterSize fs := by
  have hoffset := (hc.standing hpos).offset
  have hdiv := Nat.div_add_mod pos (clusterSize fs)
  rw [Nat.mul_comm] at hdiv
  rw [toNat_sub_of_le (by rw [hoffset, hc.position]; omega), hoffset, hc.position]
  omega

def FatFile.moved (file : FatFile) (n : UInt32) : FatFile := { file with position := file.position + n }

/-- A round of `fat_read_file` at a good cursor. The sector cannot be read and the call ends, or the
rest of the sector is copied as far as it is asked for; then the call ends at the end of the file,
goes to the next cluster, or goes on. -/
theorem Mounted.fatReadLoop_round (hm : Mounted d fs device) {file : FatFile} {pos : Nat}
    (hc : Cursor fs dirent chain file pos)
    (hvalid : fatClusterIsValid fs file.currentCluster = true) {copied total : UInt32}
    (hcopied : copied.toNat < total.toNat)
    (hroom : pos + (total.toNat - copied.toNat) ≤ dirent.sizeBytes.toNat) (rounds : Nat)
    (buffer : Buffer) (io : Io) :
    (∃ lba io', ¬device.Serves io lba 1 ∧ io.accesses.length ≤ io'.accesses.length ∧
      fatReadLoop d total (rounds + 1) file buffer copied io = ⟨.ioError, file, buffer, copied, io'⟩) ∨
    (∃ (n : UInt32) (buffer' : Buffer) (io' : Io),
      n.toNat = min (fs.bytesPerSector.toNat - pos % clusterSize fs % fs.bytesPerSector.toNat)
        (total.toNat - copied.toNat) ∧
      0 < n.toNat ∧ pos % clusterSize fs + n.toNat ≤ clusterSize fs ∧
      bytesOf buffer' (copied.toNat + n.toNat) =
        bytesOf buffer copied.toNat ++ slice (fileBytes device fs dirent chain) pos n.toNat ∧
      io'.accesses.length = io.accesses.length + 1 ∧
      fatReadLoop d total (rounds + 1) file buffer copied io =
        if pos + n.toNat = dirent.sizeBytes.toNat then ⟨.ok, file.moved n, buffer', copied + n, io'⟩
        else if pos % clusterSize fs + n.toNat = clusterSize fs then
          match fatFileAdvanceCluster d (file.moved n) io' with
          | (.ok, file, io) => fatReadLoop d total rounds file buffer' (copied + n) io
          | (status, file, io) => ⟨status, file, buffer', copied + n, io⟩
        else fatReadLoop d total rounds (file.moved n) buffer' (copied + n) io') := by
  have hpos : pos < dirent.sizeBytes.toNat := by omega
  have hs := hc.standing hpos
  have hoffset := hc.clusterOffset_toNat hpos
  have hposition := hc.position
  obtain rfl := hc.volume
  obtain rfl := hc.entry
  obtain ⟨hcspos, _⟩ := hm.clusterSize_bounds
  obtain ⟨hlow, _⟩ := hm.bytesPerSector_bounds
  have hcs := hm.clusterSizeBytes_toNat file rfl
  have hmod := Nat.mod_lt pos hcspos
  have hbyte : ((file.position - file.currentClusterFileOffset) % file.fs.bytesPerSector).toNat =
      pos % clusterSize file.fs % file.fs.bytesPerSector.toNat := by
    rw [UInt32.toNat_mod, hoffset]
  have hbytelt : pos % clusterSize file.fs % file.fs.bytesPerSector.toNat < file.fs.bytesPerSector.toNat :=
    Nat.mod_lt _ (by omega)
  have hindex : (file.position - file.currentClusterFileOffset) / file.fs.bytesPerSector =
      UInt32.ofNat (pos % clusterSize file.fs / file.fs.bytesPerSector.toNat) := by
    rw [← hoffset, ← UInt32.toNat_div, UInt32.ofNat_toNat]
  have hinside : ¬file.position - file.currentClusterFileOffset ≥ fatFileClusterSizeBytes file := by
    rw [ge_iff_le, UInt32.le_iff_toNat_le, hoffset, hcs]
    omega
  rw [fatReadLoop, if_neg (by simpa [UInt32.lt_iff_toNat_lt] using hcopied),
    if_neg (by simp [valid_ne_zero hvalid, hvalid])]
  dsimp only
  rw [if_neg hinside, hindex]
  rcases hm.onDevice.fatBlockReadSector_spec (fatClusterFirstLba file.fs file.currentCluster +
    UInt32.ofNat (pos % clusterSize file.fs / file.fs.bytesPerSector.toNat)) io with
    ⟨_, hread⟩ | ⟨hfails, k, hread⟩
  · right
    rw [hread]
    dsimp only
    generalize hn : fatMinSize (file.fs.bytesPerSector -
      (file.position - file.currentClusterFileOffset) % file.fs.bytesPerSector) (total - copied) = n
    have hcount : n.toNat = min (file.fs.bytesPerSector.toNat -
        pos % clusterSize file.fs % file.fs.bytesPerSector.toNat) (total.toNat - copied.toNat) := by
      rw [← hn, fatMinSize_toNat, toNat_sub_of_le (by omega), toNat_sub_of_le hcopied.le, hbyte]
    have hmoved : (file.position + n).toNat = pos + n.toNat := by
      have := file.dirent.sizeBytes.toNat_lt
      rw [toNat_add_of_lt (by omega), hposition]
    have hfits : pos % clusterSize file.fs + n.toNat ≤ clusterSize file.fs :=
      unit_end_le (k := file.fs.sectorsPerCluster.toNat) (show 0 < file.fs.bytesPerSector.toNat by omega)
        hm.sectorsPerCluster_bounds.1 (by unfold clusterSize at hcount hbytelt; omega)
    have hend : file.position + n ≥ file.dirent.sizeBytes ↔
        pos + n.toNat = file.dirent.sizeBytes.toNat := by
      rw [ge_iff_le, UInt32.le_iff_toNat_le, hmoved]
      omega
    have hedge : file.position + n - file.currentClusterFileOffset ≥ fatFileClusterSizeBytes file ↔
        pos % clusterSize file.fs + n.toNat = clusterSize file.fs := by
      have hdiv := Nat.div_add_mod pos (clusterSize file.fs)
      rw [Nat.mul_comm] at hdiv
      rw [ge_iff_le, UInt32.le_iff_toNat_le, hcs,
        toNat_sub_of_le (by rw [hs.offset, hmoved]; omega), hmoved, hs.offset]
      omega
    refine ⟨n, _, _, hcount, by omega, hfits, ?_, ?_, by simp only [hend, hedge]; rfl⟩
    · rw [bytesOf_fatCopyBytes, hbyte]
      congr 1
      exact (hm.sector_bytes hs.cluster (by omega) (by omega)).symm
    · simp [Io.accessed, sectorRun]
  · left
    rw [hread]
    refine ⟨_, _, hfails, ?_, rfl⟩
    simp [Io.note, Io.accessed]

end Mounted

/-! ### How a read ends -/

/-- The handle is at the end of its cluster, before the end of the file. -/
structure Stuck (fs : FatFs) (dirent : Dirent) (chain : List UInt32) (file : FatFile) : Prop where
  volume : file.fs = fs
  entry : file.dirent = dirent
  standing : ∃ k, Standing fs chain file k ∧ file.position.toNat = (k + 1) * clusterSize fs
  before : file.position.toNat < dirent.sizeBytes.toNat

/-- How a read of `want` bytes from position `pos` on may end, when `n` accesses went before it. -/
inductive ReadOutcome (device : BlockDevice) (fs : FatFs) (dirent : Dirent) (chain : List UInt32)
    (n pos want : Nat) (result : ReadResult) : Prop where
  | complete (status : result.status = .ok) (count : result.readBytes.toNat = want)
      (cursor : Cursor fs dirent chain result.file (pos + want))
  | dataFailed (status : result.status = .ioError)
      (cursor : Cursor fs dirent chain result.file (pos + result.readBytes.toNat))
      (failed : ∃ lba, device.FailsFrom n lba 1)
  | linkFailed (status : result.status = .ioError) (stuck : Stuck fs dirent chain result.file)
      (failed : ∃ k cluster, k + 1 < chain.length ∧ chain[k]? = some cluster ∧
        device.Failed n result.io (entryLba fs cluster) (entrySectors fs cluster))

/-- What a read returns: the next bytes of the file, and one of the three ends. -/
structure ReadSpec (device : BlockDevice) (fs : FatFs) (dirent : Dirent) (chain : List UInt32)
    (io : Io) (pos want : Nat) (result : ReadResult) : Prop where
  bytes : result.bytes = slice (fileBytes device fs dirent chain) pos result.readBytes.toNat
  count_le : result.readBytes.toNat ≤ want
  grows : io.accesses.length ≤ result.io.accesses.length
  outcome : ReadOutcome device fs dirent chain io.accesses.length pos want result

theorem ReadSpec.earlier {io io' : Io} {pos want : Nat} {result : ReadResult}
    (h : ReadSpec device fs dirent chain io' pos want result)
    (hle : io.accesses.length ≤ io'.accesses.length) :
    ReadSpec device fs dirent chain io pos want result := by
  refine ⟨h.bytes, h.count_le, hle.trans h.grows, ?_⟩
  cases h.outcome with
  | complete status count cursor => exact .complete status count cursor
  | dataFailed status cursor failed =>
    obtain ⟨lba, hfails⟩ := failed
    exact .dataFailed status cursor ⟨lba, hfails.mono hle⟩
  | linkFailed status stuck failed =>
    obtain ⟨k, cluster, hk, hcluster, hfails⟩ := failed
    exact .linkFailed status stuck ⟨k, cluster, hk, hcluster, hfails.mono hle⟩

section Mounted
variable {d : Disks} {fs : FatFs} {device : BlockDevice} {dirent : Dirent} {chain : List UInt32}
variable {file : FatFile} {pos : Nat} {n : UInt32}

theorem Standing.moved {k : Nat} (hs : Standing fs chain file k) (n : UInt32) :
    Standing fs chain (file.moved n) k :=
  ⟨hs.cluster, hs.offset, hs.seen, hs.count, hs.visited⟩

theorem Cursor.moved_position (hc : Cursor fs dirent chain file pos)
    (hle : pos + n.toNat ≤ dirent.sizeBytes.toNat) : (file.moved n).position.toNat = pos + n.toNat := by
  have := dirent.sizeBytes.toNat_lt
  change (file.position + n).toNat = _
  rw [toNat_add_of_lt (by rw [hc.position]; omega), hc.position]

theorem Cursor.moved (hm : Mounted d fs device) (hc : Cursor fs dirent chain file pos)
    (hle : pos + n.toNat ≤ dirent.sizeBytes.toNat)
    (hin : pos + n.toNat = dirent.sizeBytes.toNat ∨ pos % clusterSize fs + n.toNat < clusterSize fs) :
    Cursor fs dirent chain (file.moved n) (pos + n.toNat) := by
  refine ⟨hc.volume, hc.entry, hc.moved_position hle, hle, ?_⟩
  intro hlt
  have hin : pos % clusterSize fs + n.toNat < clusterSize fs := by omega
  have hdiv : (pos + n.toNat) / clusterSize fs = pos / clusterSize fs := by
    have hsplit : pos + n.toNat = clusterSize fs * (pos / clusterSize fs) +
        (pos % clusterSize fs + n.toNat) := by
      have := Nat.div_add_mod pos (clusterSize fs)
      omega
    rw [hsplit, Nat.mul_add_div hm.clusterSize_bounds.1, Nat.div_eq_of_lt hin, Nat.add_zero]
  rw [hdiv]
  exact (hc.standing (by omega)).moved n

theorem HealthyChain.cursor_advanced (hh : HealthyChain device fs dirent chain)
    (hm : Mounted d fs device) (hc : Cursor fs dirent chain file pos)
    (hlt : pos + n.toNat < dirent.sizeBytes.toNat)
    (hedge : pos % clusterSize fs + n.toNat = clusterSize fs) :
    pos + n.toNat = (pos / clusterSize fs + 1) * clusterSize fs ∧
      ∃ next, chain[pos / clusterSize fs + 1]? = some next ∧
        Cursor fs dirent chain ((file.moved n).advanced next) (pos + n.toNat) := by
  have hsum : pos + n.toNat = (pos / clusterSize fs + 1) * clusterSize fs := by
    have hdiv := Nat.div_add_mod pos (clusterSize fs)
    rw [Nat.mul_comm] at hdiv
    rw [Nat.add_one_mul]
    omega
  have hquot : (pos + n.toNat) / clusterSize fs = pos / clusterSize fs + 1 := by
    rw [hsum, Nat.mul_div_cancel _ hm.clusterSize_bounds.1]
  have hlen := hh.div_lt hm hlt
  rw [hquot] at hlen
  have hnext := List.getElem?_eq_getElem hlen
  refine ⟨hsum, _, hnext, hc.volume, hc.entry, hc.moved_position hlt.le, hlt.le, ?_⟩
  intro _
  rw [hquot]
  have hshort := hh.short
  exact Standing.advanced hm hc.volume ((hc.standing (by omega)).moved n) hnext (by omega)

theorem HealthyChain.fatReadLoop_spec (hh : HealthyChain device fs dirent chain)
    (hm : Mounted d fs device) {total : UInt32} (hroom : pos + total.toNat ≤ dirent.sizeBytes.toNat)
      (rounds : Nat) {buffer : Buffer} {copied : UInt32} (hle : copied.toNat ≤ total.toNat)
    (hrounds : total.toNat - copied.toNat ≤ rounds)
    (hc : Cursor fs dirent chain file (pos + copied.toNat))
    (hbytes : bytesOf buffer copied.toNat =
      slice (fileBytes device fs dirent chain) pos copied.toNat) (io : Io) :
    ReadSpec device fs dirent chain io pos total.toNat
        (fatReadLoop d total rounds file buffer copied io) := by
  induction rounds generalizing file buffer copied io with
  | zero =>
    have hall : copied.toNat = total.toNat := by omega
    exact ⟨hbytes, hle, le_refl _, .complete rfl hall (hall ▸ hc)⟩
  | succ rounds ih =>
    by_cases hlt : copied.toNat < total.toNat
    · have hvalid := hh.valid _ (List.mem_of_getElem? (hc.standing (by omega)).cluster)
      rcases hm.fatReadLoop_round hc hvalid hlt (by omega) rounds buffer io with
        ⟨lba, io', hfails, hgrows, hloop⟩ | ⟨n, buffer', io', hn, hpos, hfits, hcopy, hgrows, hloop⟩
      · rw [hloop]
        exact ⟨hbytes, hle, hgrows, .dataFailed rfl hc ⟨lba, failsFrom_of_not_serves hfails⟩⟩
      · -- the bytes of the round go behind those that were copied before
        have hsum : (copied + n).toNat = copied.toNat + n.toNat := by
          have := total.toNat_lt
          rw [toNat_add_of_lt (by omega)]
        have hpos' : pos + copied.toNat + n.toNat = pos + (copied + n).toNat := by omega
        have hbytes' : bytesOf buffer' (copied + n).toNat =
            slice (fileBytes device fs dirent chain) pos (copied + n).toNat := by
          rw [hsum, hcopy, hbytes, slice_add]
        have hgrows' : io.accesses.length ≤ io'.accesses.length := by omega
        rw [hloop]
        split_ifs with hend hedge
        · have hall : (copied + n).toNat = total.toNat := by omega
          refine ⟨hbytes', by rw [hall], hgrows', .complete rfl hall ?_⟩
          have := hc.moved hm (n := n) (by omega) (Or.inl hend)
          rwa [hpos', hall] at this
        · obtain ⟨hedge', next, hnext, hcursor⟩ := hh.cursor_advanced hm hc (by omega) hedge
          have hs := (hc.standing (by omega)).moved n
          rcases hh.advance_spec hm hs hc.volume hc.entry hnext io' with
            ⟨_, hadvance⟩ | ⟨_, j, hstops, hadvance⟩
          · rw [hadvance]
            rw [hpos'] at hcursor
            refine (ih (by omega) (by omega) hcursor hbytes' _).earlier ?_
            simp only [Io.accessed, List.length_append]
            omega
          · rw [hadvance]
            refine ⟨hbytes', by change (copied + n).toNat ≤ _; omega, ?_, .linkFailed rfl ?_ ?_⟩
            · simp only [Io.accessed, Io.note, List.length_append]
              omega
            · have hmoved := hc.moved_position (n := n) (by omega)
              exact ⟨hc.volume, hc.entry, ⟨_, hs, hmoved.trans hedge'⟩, by rw [hmoved]; omega⟩
            · exact ⟨_, _, (List.getElem?_eq_some_iff.mp hnext).1, hs.cluster,
                (hstops.failed _).mono hgrows'⟩
        · have hcursor := hc.moved hm (n := n) (by omega) (Or.inr (by omega))
          rw [hpos'] at hcursor
          exact (ih (by omega) (by omega) hcursor hbytes' io').earlier hgrows'
    · have hall : copied.toNat = total.toNat := by omega
      rw [fatReadLoop, if_pos (by simpa [UInt32.lt_iff_toNat_lt] using hlt)]
      exact ⟨hbytes, hle, le_refl _, .complete rfl hall (hall ▸ hc)⟩

theorem Mounted.fatReadFile_eq (hm : Mounted d fs device) (hfs : file.fs = fs)
    {bufferSize : UInt32} (hsize : bufferSize ≠ 0) (hbefore : file.position < file.dirent.sizeBytes)
    (buffer : Buffer) (io : Io) :
    fatReadFile d file buffer bufferSize io =
      fatReadLoop d (fatMinSize bufferSize (file.dirent.sizeBytes - file.position))
        (fatMinSize bufferSize (file.dirent.sizeBytes - file.position)).toNat file buffer 0 io := by
  have hsmall : ¬file.fs.bytesPerSector > 4096 := by
    rw [gt_iff_lt, UInt32.not_lt, hfs, UInt32.le_iff_toNat_le]
    exact hm.bytesPerSector_bounds.2
  unfold fatReadFile
  rw [if_neg (by simpa [hsize] using hbefore), if_neg hsmall]

theorem HealthyChain.fatReadFile_spec (hh : HealthyChain device fs dirent chain)
    (hm : Mounted d fs device) (hc : Cursor fs dirent chain file pos) (buffer : Buffer)
    (bufferSize : UInt32) (io : Io) :
    ReadSpec device fs dirent chain io pos (min bufferSize.toNat (dirent.sizeBytes.toNat - pos))
      (fatReadFile d file buffer bufferSize io) := by
  have hle := hc.le
  by_cases hnone : bufferSize = 0 ∨ file.position ≥ file.dirent.sizeBytes
  · have hzero : min bufferSize.toNat (dirent.sizeBytes.toNat - pos) = 0 := by
      rcases hnone with h | h
      · simp [h]
      · rw [hc.entry, ge_iff_le, UInt32.le_iff_toNat_le, hc.position] at h
        omega
    unfold fatReadFile
    rw [if_pos hnone, hzero]
    exact ⟨rfl, le_refl _, le_refl _, .complete rfl rfl hc⟩
  · rw [not_or, ge_iff_le, UInt32.not_le] at hnone
    have htotal : (fatMinSize bufferSize (file.dirent.sizeBytes - file.position)).toNat =
        min bufferSize.toNat (dirent.sizeBytes.toNat - pos) := by
      rw [fatMinSize_toNat, hc.entry, toNat_sub_of_le (by rw [hc.position]; exact hle), hc.position]
    rw [hm.fatReadFile_eq hc.volume hnone.1 hnone.2, ← htotal]
    refine hh.fatReadLoop_spec hm (by omega) _ (Nat.zero_le _) (Nat.sub_le _ _) ?_ ?_ io
    · exact hc
    · rfl

end Mounted

/-! ### Sequences of reads -/

/-- A caller that reads again and again, with a buffer and its size for each call: what it gets, and how the
handle and the devices are left. -/
def readAll (d : Disks) : FatFile → Io → List (Buffer × UInt32) → List ReadResult × FatFile × Io
  | file, io, [] => ([], file, io)
  | file, io, (buffer, bufferSize) :: requests =>
    let result := fatReadFile d file buffer bufferSize io
    let (results, file, io) := readAll d result.file result.io requests
    (result :: results, file, io)

def received (results : List ReadResult) : List UInt8 := results.flatMap ReadResult.bytes

def requested (requests : List (Buffer × UInt32)) : List Nat := requests.map fun request => request.2.toNat

def BlockDevice.ReliableFrom (device : BlockDevice) (n : Nat) : Prop :=
  ∀ m ≥ n, ∀ lba, device.fails m lba = false

theorem BlockDevice.ReliableFrom.not_failsFrom {n : Nat} (h : device.ReliableFrom n)
    (lba : UInt32) (count : Nat) : ¬device.FailsFrom n lba count := by
  rintro ⟨m, hm, j, _, hfails⟩
  rw [h m hm] at hfails
  exact absurd hfails (by decide)

theorem BlockDevice.ReliableFrom.mono (h : device.ReliableFrom n) (hn : n ≤ n') : device.ReliableFrom n' :=
  fun m hm => h m (hn.trans hm)

section Mounted
variable {d : Disks} {fs : FatFs} {device : BlockDevice} {dirent : Dirent} {chain : List UInt32}

theorem ReadSpec.complete {io : Io} {pos want : Nat} {result : ReadResult}
    (h : ReadSpec device fs dirent chain io pos want result) (hr : device.ReliableFrom io.accesses.length) :
    result.status = .ok ∧ result.readBytes.toNat = want ∧
        Cursor fs dirent chain result.file (pos + want) := by
  cases h.outcome with
  | complete status count cursor => exact ⟨status, count, cursor⟩
  | dataFailed _ _ failed =>
    obtain ⟨lba, hfails⟩ := failed
    exact absurd hfails (hr.not_failsFrom _ _)
  | linkFailed _ _ failed =>
    obtain ⟨_, _, _, _, hfails⟩ := failed
    exact absurd hfails.failsFrom (hr.not_failsFrom _ _)

theorem HealthyChain.readAll_reliable (hh : HealthyChain device fs dirent chain) (hm : Mounted d fs device)
    {file : FatFile} {pos : Nat} (hc : Cursor fs dirent chain file pos) (io : Io)
    (hr : device.ReliableFrom io.accesses.length) (requests : List (Buffer × UInt32)) :
    (∀ result ∈ (readAll d file io requests).1, result.status = .ok) ∧
      (readAll d file io requests).1.map ReadResult.bytes =
        pieces (fileBytes device fs dirent chain) pos (requested requests) ∧
      io.accesses.length ≤ (readAll d file io requests).2.2.accesses.length ∧
      Cursor fs dirent chain (readAll d file io requests).2.1
        (pos + (slice (fileBytes device fs dirent chain) pos (requested requests).sum).length) := by
  induction requests generalizing file pos io with
  | nil =>
    refine ⟨by simp [readAll], rfl, le_refl _, ?_⟩
    simpa [readAll, requested, slice_zero] using hc
  | cons request requests ih =>
    obtain ⟨buffer, bufferSize⟩ := request
    have hspec := hh.fatReadFile_spec hm hc buffer bufferSize io
    obtain ⟨hstatus, hcount, hcursor⟩ := hspec.complete hr
    have hlen := hh.fileBytes_length hm
    have hbytes : (fatReadFile d file buffer bufferSize io).bytes =
        slice (fileBytes device fs dirent chain) pos bufferSize.toNat := by
      rw [hspec.bytes, hcount, ← hlen, slice_min]
    rw [← hlen, ← slice_length] at hcursor
    have hgrows := hspec.grows
    obtain ⟨hall, hpieces, hgrows', hcursor'⟩ := ih hcursor _ (hr.mono hgrows)
    refine ⟨?_, ?_, hgrows.trans hgrows', ?_⟩
    · intro result hmem
      rcases List.mem_cons.mp hmem with rfl | hmem
      · exact hstatus
      · exact hall result hmem
    · change _ :: _ = pieces _ _ (bufferSize.toNat :: requested requests)
      rw [pieces, hbytes, hpieces]
    · change Cursor fs dirent chain _ (pos +
        (slice _ _ (bufferSize.toNat :: requested requests).sum).length)
      rw [List.sum_cons, slice_length_add, ← Nat.add_assoc]
      exact hcursor'

end Mounted

/-- **Sequential reads.** After a file with a healthy chain was opened, on a device whose reads
succeed, every sequence of reads returns `OK` and the pieces of the file that were asked for,
whatever the sizes of the calls; after the last byte every read returns nothing. -/
theorem sequential_reads {d : Disks} {deviceIndex bootLba : UInt32} {io₀ io₁ io₂ io₃ : Io} {fs : FatFs}
    {device : BlockDevice} {path : List UInt8} {outFile file : FatFile} {chain : List UInt32}
    (hmount : fatMount d deviceIndex bootLba io₀ = (some fs, io₁))
    (hopen : fatOpenFile d fs path outFile io₂ = (.ok, file, io₃))
    (hdevice : blockDeviceAt d deviceIndex = some device) (hreads : ∀ n lba, device.fails n lba = false)
    (hchain : HealthyChain device fs file.dirent chain) (requests : List (Buffer × UInt32)) :
    (fileBytes device fs file.dirent chain).length = file.dirent.sizeBytes.toNat ∧
      (∀ result ∈ (readAll d file io₃ requests).1, result.status = .ok) ∧
      (readAll d file io₃ requests).1.map ReadResult.bytes =
        pieces (fileBytes device fs file.dirent chain) 0 (requested requests) ∧
      received (readAll d file io₃ requests).1 =
        (fileBytes device fs file.dirent chain).take (requested requests).sum ∧
      (file.dirent.sizeBytes.toNat ≤ (requested requests).sum →
        received (readAll d file io₃ requests).1 = fileBytes device fs file.dirent chain ∧
        ∀ buffer bufferSize,
          let result := fatReadFile d (readAll d file io₃ requests).2.1 buffer bufferSize
            (readAll d file io₃ requests).2.2
          result.status = .ok ∧ result.readBytes = 0) := by
  have hm := fatMount_device hmount hdevice
  have hlen := hchain.fileBytes_length hm
  have hc : Cursor fs file.dirent chain file 0 := by
    rw [fatOpenFile_ok hopen]
    exact hchain.cursor_opened hm
  obtain ⟨hok, hpieces, hgrows, hcursor⟩ :=
    hchain.readAll_reliable hm hc io₃ (fun n _ lba => hreads n lba) requests
  have hreceived : received (readAll d file io₃ requests).1 =
      (fileBytes device fs file.dirent chain).take (requested requests).sum := by
    rw [received, List.flatMap_def, hpieces, pieces_flatten]
    rfl
  refine ⟨hlen, hok, hpieces, hreceived, ?_⟩
  intro hall
  refine ⟨by rw [hreceived, List.take_of_length_le (by omega)], ?_⟩
  intro buffer bufferSize
  rw [slice_all (by omega), Nat.zero_add, hlen] at hcursor
  obtain ⟨hstatus, hcount, _⟩ :=
    (hchain.fatReadFile_spec hm hcursor buffer bufferSize _).complete fun n _ lba => hreads n lba
  refine ⟨hstatus, UInt32.toNat_inj.mp ?_⟩
  rw [hcount, Nat.sub_self, Nat.min_zero]
  rfl

theorem two_clusters_read_in_two_calls :
    received (readAll (sparseDisks twoClusterSectors fun _ _ => false)
        (openedHandle floppyVolume twoClusterEntry)
        ⟨[0, 19], []⟩ [(freshBuffer, 600), (freshBuffer, 600)]).1 =
      fileBytes (sparseDevice twoClusterSectors fun _ _ => false) floppyVolume twoClusterEntry [2, 3] :=
  ((sequential_reads twoCluster_mounts twoCluster_opens rfl (fun _ _ => rfl) twoCluster_healthy _).2.2.2.2
    (by decide)).1

/-! ### Reading on after a failure -/

/-- None of the accesses that were made, from the `n`-th on, to an entry that links two clusters of
the chain has failed. -/
def SparesLinks (device : BlockDevice) (fs : FatFs) (chain : List UInt32) (n : Nat) (io : Io) : Prop :=
  ∀ k cluster, k + 1 < chain.length → chain[k]? = some cluster →
    ¬device.Failed n io (entryLba fs cluster) (entrySectors fs cluster)

/-- A caller that goes on reading after failures is never told that the file is corrupt, what it has
is a beginning of the contents, and once the device has stopped failing it gets all that it asks
for. -/
def Resumes (d : Disks) (device : BlockDevice) (content : List UInt8) (file : FatFile) (io : Io)
    (requests : List (Buffer × UInt32)) : Prop :=
  (∀ result ∈ (readAll d file io requests).1, result.status = .ok ∨ result.status = .ioError) ∧
  received (readAll d file io requests).1 <+: content ∧
  (device.ReliableFrom (readAll d file io requests).2.2.accesses.length → ∀ more,
    let rest := readAll d (readAll d file io requests).2.1 (readAll d file io requests).2.2 more
    (∀ result ∈ rest.1, result.status = .ok) ∧
    received ((readAll d file io requests).1 ++ rest.1) =
      content.take ((received (readAll d file io requests).1).length + (requested more).sum))

section Mounted
variable {d : Disks} {fs : FatFs} {device : BlockDevice} {dirent : Dirent} {chain : List UInt32}
variable {file : FatFile} {io : Io}

theorem ReadSpec.resumes {pos want : Nat} {result : ReadResult}
    (h : ReadSpec device fs dirent chain io pos want result)
    (hlinks : SparesLinks device fs chain io.accesses.length result.io) :
    (result.status = .ok ∨ result.status = .ioError) ∧
      Cursor fs dirent chain result.file (pos + result.readBytes.toNat) := by
  cases h.outcome with
  | complete status count cursor => exact ⟨Or.inl status, by rwa [count]⟩
  | dataFailed status cursor _ => exact ⟨Or.inr status, cursor⟩
  | linkFailed _ _ failed =>
    obtain ⟨k, cluster, hk, hcluster, hfailed⟩ := failed
    exact absurd hfailed (hlinks k cluster hk hcluster)

theorem SparesLinks.later {n n' : Nat} (h : SparesLinks device fs chain n io) (hn : n ≤ n') :
    SparesLinks device fs chain n' io :=
  fun k cluster hk hcluster hfailed => h k cluster hk hcluster (hfailed.mono hn)

theorem HealthyChain.readAll_resumes (hh : HealthyChain device fs dirent chain)
    (hm : Mounted d fs device) {pos : Nat} (hc : Cursor fs dirent chain file pos) (io : Io)
      (requests : List (Buffer × UInt32))
    (hlinks : ∀ result ∈ (readAll d file io requests).1,
      SparesLinks device fs chain io.accesses.length result.io) :
    (∀ result ∈ (readAll d file io requests).1, result.status = .ok ∨ result.status = .ioError) ∧
      ∃ n, received (readAll d file io requests).1 = slice (fileBytes device fs dirent chain) pos n ∧
        Cursor fs dirent chain (readAll d file io requests).2.1 (pos + n) := by
  induction requests generalizing file pos io with
  | nil => exact ⟨by simp [readAll], 0, rfl, hc⟩
  | cons request requests ih =>
    obtain ⟨buffer, bufferSize⟩ := request
    have hspec := hh.fatReadFile_spec hm hc buffer bufferSize io
    obtain ⟨hstatus, hcursor⟩ := hspec.resumes (hlinks _ List.mem_cons_self)
    obtain ⟨hall, n, hreceived, hcursor'⟩ := ih hcursor (fatReadFile d file buffer bufferSize io).io
      fun result hmem => (hlinks result (List.mem_cons_of_mem _ hmem)).later hspec.grows
    refine ⟨?_, (fatReadFile d file buffer bufferSize io).readBytes.toNat + n, ?_, ?_⟩
    · intro result hmem
      rcases List.mem_cons.mp hmem with rfl | hmem
      · exact hstatus
      · exact hall result hmem
    · change (fatReadFile d file buffer bufferSize io).bytes ++ received _ = _
      rw [hspec.bytes, slice_add]
      exact congrArg _ hreceived
    · rw [← Nat.add_assoc]
      exact hcursor'

theorem HealthyChain.resumes (hh : HealthyChain device fs dirent chain) (hm : Mounted d fs device)
    (hc : Cursor fs dirent chain file 0) (io : Io) (requests : List (Buffer × UInt32))
    (hlinks : ∀ result ∈ (readAll d file io requests).1,
      SparesLinks device fs chain io.accesses.length result.io) :
    Resumes d device (fileBytes device fs dirent chain) file io requests := by
  obtain ⟨hall, n, hreceived, hcursor⟩ := hh.readAll_resumes hm hc io requests hlinks
  rw [Nat.zero_add] at hcursor
  have hlen : (received (readAll d file io requests).1).length = n := by
    have hle := hcursor.le
    rw [hreceived, slice_length, hh.fileBytes_length hm]
    omega
  refine ⟨hall, by rw [hreceived]; exact List.take_prefix _ _, ?_⟩
  intro hr more
  obtain ⟨hok, hpieces, _, _⟩ := hh.readAll_reliable hm hcursor _ hr more
  refine ⟨hok, ?_⟩
  have hrest : received (readAll d (readAll d file io requests).2.1
      (readAll d file io requests).2.2 more).1 =
        slice (fileBytes device fs dirent chain) n (requested more).sum := by
    rw [received, List.flatMap_def, hpieces, pieces_flatten]
  have hsplit := slice_add (fileBytes device fs dirent chain) 0 n (requested more).sum
  rw [Nat.zero_add] at hsplit
  rw [hlen, received, List.flatMap_append]
  change received _ ++ received _ = _
  rw [hreceived, hrest, ← hsplit]
  rfl

theorem Stuck.read_corrupt (hm : Mounted d fs device) (hh : HealthyChain device fs dirent chain)
    (hstuck : Stuck fs dirent chain file) (buffer : Buffer) {bufferSize : UInt32} (hsize : bufferSize ≠ 0)
    (io : Io) : (fatReadFile d file buffer bufferSize io).status = .corrupt := by
  obtain ⟨hvolume, hentry, ⟨k, hs, hposition⟩, hbefore⟩ := hstuck
  subst hvolume hentry
  have hcs := hm.clusterSizeBytes_toNat file rfl
  have hvalid : fatClusterIsValid file.fs file.currentCluster = true :=
    hh.valid _ (List.mem_of_getElem? hs.cluster)
  have htotal : 0 < (fatMinSize bufferSize (file.dirent.sizeBytes - file.position)).toNat := by
    have hne : bufferSize.toNat ≠ 0 := fun h => hsize (UInt32.toNat_inj.mp h)
    rw [fatMinSize_toNat, toNat_sub_of_le hbefore.le]
    omega
  obtain ⟨rounds, hrounds⟩ := Nat.exists_eq_succ_of_ne_zero htotal.ne'
  have houtside : file.position - file.currentClusterFileOffset ≥ fatFileClusterSizeBytes file := by
    have hle : file.currentClusterFileOffset.toNat ≤ file.position.toNat := by
      rw [hs.offset, hposition, Nat.add_one_mul]
      omega
    rw [ge_iff_le, UInt32.le_iff_toNat_le, hcs, toNat_sub_of_le hle, hposition, hs.offset, Nat.add_one_mul]
    omega
  have hcopied : ¬¬(0 : UInt32) < fatMinSize bufferSize (file.dirent.sizeBytes - file.position) := by
    rw [not_not, UInt32.lt_iff_toNat_lt]
    exact htotal
  rw [hm.fatReadFile_eq rfl hsize (UInt32.lt_iff_toNat_lt.mpr hbefore), hrounds, fatReadLoop,
    if_neg hcopied, if_neg (by simp [valid_ne_zero hvalid, hvalid])]
  dsimp only
  rw [if_pos houtside]

theorem HealthyChain.first_cluster_round (hh : HealthyChain device fs dirent chain)
    (hm : Mounted d fs device) (hlong : clusterSize fs < dirent.sizeBytes.toNat)
    {total copied : UInt32} (htotal : total.toNat = clusterSize fs) {left : Nat}
    (hleft : copied.toNat + (left + 1) * fs.bytesPerSector.toNat = clusterSize fs)
    (hc : Cursor fs dirent chain file copied.toNat) (hserves : ∀ lba, device.Serves io lba 1)
    (rounds : Nat) (buffer : Buffer) :
    ∃ (n : UInt32) (buffer' : Buffer) (io' : Io), n.toNat = fs.bytesPerSector.toNat ∧
      copied.toNat % clusterSize fs = copied.toNat ∧ io'.accesses.length = io.accesses.length + 1 ∧
      fatReadLoop d total (rounds + 1) file buffer copied io =
        if copied.toNat + n.toNat = clusterSize fs then
          match fatFileAdvanceCluster d (file.moved n) io' with
          | (.ok, file, io) => fatReadLoop d total rounds file buffer' (copied + n) io
          | (status, file, io) => ⟨status, file, buffer', copied + n, io⟩
        else fatReadLoop d total rounds (file.moved n) buffer' (copied + n) io' := by
  have hlow := hm.bytesPerSector_bounds.1
  have hstep := Nat.add_one_mul left fs.bytesPerSector.toNat
  have hplace : copied.toNat % clusterSize fs = copied.toNat := Nat.mod_eq_of_lt (by omega)
  have hsector : copied.toNat % fs.bytesPerSector.toNat = 0 := by
    have heq : copied.toNat = fs.bytesPerSector.toNat * (fs.sectorsPerCluster.toNat - (left + 1)) := by
      rw [Nat.mul_sub, Nat.mul_comm _ (left + 1)]
      unfold clusterSize at hleft
      omega
    rw [heq, Nat.mul_mod_right]
  have hvalid := hh.valid _ (List.mem_of_getElem? (hc.standing (by omega)).cluster)
  rcases hm.fatReadLoop_round hc hvalid (show copied.toNat < total.toNat by omega)
      (by omega) rounds buffer io with
    ⟨lba, _, hfails, _⟩ | ⟨n, buffer', io', hn, _, _, _, hio, hloop⟩
  · exact absurd (hserves lba) hfails
  · rw [hplace, hsector] at hn
    have hn : n.toNat = fs.bytesPerSector.toNat := by omega
    refine ⟨n, buffer', io', hn, hplace, hio, ?_⟩
    rw [hloop, if_neg (by omega), hplace]

/-- On a device that only fails the access after as many as a cluster has sectors, a read of the
first cluster of a longer file gets stuck. The induction is on the sectors that are left, with one
access for each. -/
theorem HealthyChain.first_cluster_stuck (hh : HealthyChain device fs dirent chain)
    (hm : Mounted d fs device) (hlong : clusterSize fs < dirent.sizeBytes.toNat)
    (hfails : ∀ m lba, device.fails m lba = decide (m = fs.sectorsPerCluster.toNat))
    {total : UInt32} (htotal : total.toNat = clusterSize fs) (left : Nat) {copied : UInt32}
    (hc : Cursor fs dirent chain file copied.toNat) {rounds : Nat} (hrounds : left < rounds)
    (buffer : Buffer) (io : Io)
    (hleft : copied.toNat + (left + 1) * fs.bytesPerSector.toNat = clusterSize fs)
    (hio : io.accesses.length + (left + 1) = fs.sectorsPerCluster.toNat) :
    Stuck fs dirent chain (fatReadLoop d total rounds file buffer copied io).file := by
  induction left generalizing rounds file copied buffer io with
  | zero =>
    obtain ⟨rounds, rfl⟩ : ∃ r, rounds = r + 1 := ⟨rounds - 1, by omega⟩
    have hserves : ∀ lba, device.Serves io lba 1 := by
      intro lba k hk
      rw [hfails, decide_eq_false_iff_not]
      omega
    obtain ⟨n, buffer', io', hn, hplace, hio', hloop⟩ :=
      hh.first_cluster_round hm hlong htotal hleft hc hserves rounds buffer
    rw [Nat.zero_add, Nat.one_mul] at hleft
    obtain ⟨hedge, next, hnext, _⟩ := hh.cursor_advanced hm hc (n := n) (by omega) (by omega)
    have hs := (hc.standing (by omega)).moved n
    have hmoved := hc.moved_position (n := n) (by omega)
    rw [hloop, if_pos (by omega)]
    rcases hh.advance_spec hm hs hc.volume hc.entry hnext io' with
      ⟨hserved, _⟩ | ⟨_, j, _, hadvance⟩
    · have hfirst := hserved 0 (hm.onDevice.entrySectors_pos _)
      rw [hfails, decide_eq_false_iff_not] at hfirst
      omega
    · rw [hadvance]
      exact ⟨hc.volume, hc.entry, ⟨_, hs, hmoved.trans hedge⟩, by rw [hmoved]; omega⟩
  | succ left ih =>
    obtain ⟨rounds, rfl⟩ : ∃ r, rounds = r + 1 := ⟨rounds - 1, by omega⟩
    have hserves : ∀ lba, device.Serves io lba 1 := by
      intro lba k hk
      rw [hfails, decide_eq_false_iff_not]
      omega
    obtain ⟨n, buffer', io', hn, hplace, hio', hloop⟩ :=
      hh.first_cluster_round hm hlong htotal hleft hc hserves rounds buffer
    have hlow := hm.bytesPerSector_bounds.1
    have hstep := Nat.add_one_mul (left + 1) fs.bytesPerSector.toNat
    have hstep' := Nat.add_one_mul left fs.bytesPerSector.toNat
    have hsum : (copied + n).toNat = copied.toNat + n.toNat := by
      have := total.toNat_lt
      rw [toNat_add_of_lt (by omega)]
    have hcursor := hc.moved hm (n := n) (by omega) (Or.inr (by omega))
    rw [← hsum] at hcursor
    rw [hloop, if_neg (by omega)]
    exact ih hcursor (by omega) buffer' io' (by omega) (by omega)

end Mounted

def failsOnce (n : Nat) : Nat → UInt32 → Bool := fun m _ => decide (m = n)

/-- The device with another pattern of failures, at the place of the device of the volume. -/
def disksFailing (fs : FatFs) (device : BlockDevice) (fails : Nat → UInt32 → Bool) : Disks :=
  ⟨true, List.replicate (fs.deviceIndex.toNat + 1) { device with fails := fails }⟩

theorem Mounted.failing {d : Disks} (hm : Mounted d fs device) (fails : Nat → UInt32 → Bool) :
    Mounted (disksFailing fs device fails) fs { device with fails := fails } :=
  { hm with found := by simp [blockDeviceAt, disksFailing] }

theorem HealthyChain.failing
    (hh : HealthyChain device fs dirent chain) (fails : Nat → UInt32 → Bool) :
    HealthyChain { device with fails := fails } fs dirent chain :=
  ⟨hh.length, hh.short, hh.head, hh.valid, hh.nodup, hh.linked⟩

theorem HealthyChain.link_failure_stuck {d : Disks} (hh : HealthyChain device fs dirent chain)
    (hm : Mounted d fs device) (hlong : clusterSize fs < dirent.sizeBytes.toNat) :
    Stuck fs dirent chain
      (fatReadFile (disksFailing fs device (failsOnce fs.sectorsPerCluster.toNat))
        (openedHandle fs dirent) freshBuffer (UInt32.ofNat (clusterSize fs)) .start).file := by
  obtain ⟨hpos, hle⟩ := hm.clusterSize_bounds
  obtain ⟨hspc, _⟩ := hm.sectorsPerCluster_bounds
  have hlow := hm.bytesPerSector_bounds.1
  have hc := hh.cursor_opened hm
  have hsectors : fs.sectorsPerCluster.toNat ≤ clusterSize fs := Nat.le_mul_of_pos_left _ (by omega)
  have hwhole : fs.sectorsPerCluster.toNat - 1 + 1 = fs.sectorsPerCluster.toNat := Nat.sub_add_cancel hspc
  have hone : (UInt32.ofNat (clusterSize fs)).toNat = clusterSize fs :=
    UInt32.toNat_ofNat_of_lt' (by change _ < 2 ^ 32; omega)
  have hne : UInt32.ofNat (clusterSize fs) ≠ 0 := by
    intro h
    rw [h] at hone
    exact absurd hone hpos.ne
  have hbefore : (openedHandle fs dirent).position < (openedHandle fs dirent).dirent.sizeBytes := by
    rw [UInt32.lt_iff_toNat_lt, hc.position, hc.entry]
    omega
  have htotal : (fatMinSize (UInt32.ofNat (clusterSize fs))
      ((openedHandle fs dirent).dirent.sizeBytes - (openedHandle fs dirent).position)).toNat =
        clusterSize fs := by
    rw [fatMinSize_toNat, hone, toNat_sub_of_le (UInt32.lt_iff_toNat_lt.mp hbefore).le,
      hc.position, hc.entry]
    omega
  rw [(hm.failing _).fatReadFile_eq rfl hne hbefore]
  refine (hh.failing _).first_cluster_stuck (hm.failing _) hlong (fun _ _ => rfl) htotal
    (fs.sectorsPerCluster.toNat - 1) hc (by omega) freshBuffer .start ?_ ?_
  · rw [hwhole, clusterSize, Nat.mul_comm]
    exact Nat.zero_add _
  · rw [hwhole]
    exact Nat.zero_add _

/-- **Reading on after failures.** A sequence of reads of a file with a healthy chain gets through
failures of the device if no access that it makes to an entry linking two clusters fails; and every
sequence gets through all failures if and only if the file has no such link, being no longer than a
cluster. -/
theorem reads_resumable_iff {d : Disks} {deviceIndex bootLba : UInt32} {io io' : Io} {fs : FatFs}
    {device : BlockDevice} {dirent : Dirent} {chain : List UInt32}
    (hmount : fatMount d deviceIndex bootLba io = (some fs, io'))
    (hdevice : blockDeviceAt d deviceIndex = some device) (hchain : HealthyChain device fs dirent chain) :
    (∀ fails io requests,
      (∀ result ∈ (readAll (disksFailing fs device fails) (openedHandle fs dirent) io requests).1,
        SparesLinks { device with fails := fails } fs chain io.accesses.length result.io) →
      Resumes (disksFailing fs device fails)
        { device with fails := fails } (fileBytes device fs dirent chain)
        (openedHandle fs dirent) io requests) ∧
    ((∀ fails io requests, Resumes (disksFailing fs device fails) { device with fails := fails }
        (fileBytes device fs dirent chain) (openedHandle fs dirent) io requests) ↔
      dirent.sizeBytes.toNat ≤ clusterSize fs) := by
  have hm := fatMount_device hmount hdevice
  have hspared := fun fails => (hchain.failing fails).resumes (hm.failing fails) (hchain.cursor_opened hm)
  refine ⟨hspared, ?_, ?_⟩
  · intro hresumable
    by_contra hlong
    have hstuck := hchain.link_failure_stuck hm (by omega)
    have hcorrupt := hstuck.read_corrupt (hm.failing (failsOnce fs.sectorsPerCluster.toNat))
      (hchain.failing _)
      freshBuffer (show (1 : UInt32) ≠ 0 by decide)
    -- the first cluster is read while the link to the second cannot be, and then one byte more
    rcases (hresumable (failsOnce fs.sectorsPerCluster.toNat) .start
      [(freshBuffer, UInt32.ofNat (clusterSize fs)), (freshBuffer, 1)]).1 _
      (List.mem_cons_of_mem _ (List.mem_cons_self ..)) with h | h
    all_goals exact absurd ((hcorrupt _).symm.trans h) (by decide)
  · intro hshort fails io requests
    refine hspared fails io requests fun _ _ k cluster hk => ?_
    have hlen := hchain.length
    have hpos := hm.clusterSize_bounds.1
    have hlt : (dirent.sizeBytes.toNat + (clusterSize fs - 1)) / clusterSize fs < 2 :=
      (Nat.div_lt_iff_lt_mul hpos).mpr (by omega)
    omega

/-- The first access to the sector of the second cluster fails. -/
def failsSecondCluster : Nat → UInt32 → Bool := fun m lba => decide (m = 2 ∧ lba = 34)

/-- Through this failure the file can be read: the first call ends behind the first cluster, and the
second goes on there. It cannot be read through all failures. -/
theorem two_clusters_resumed :
    let device := sparseDevice twoClusterSectors fun _ _ => false
    let content := fileBytes device floppyVolume twoClusterEntry [2, 3]
    let requests := [(freshBuffer, 1024), (freshBuffer, 1024)]
    (readAll (disksFailing floppyVolume device failsSecondCluster)
        (openedHandle floppyVolume twoClusterEntry) .start
        requests).1.map (fun result => (result.status, result.readBytes)) = [(.ioError, 512), (.ok, 512)] ∧
      Resumes (disksFailing floppyVolume device failsSecondCluster)
        { device with fails := failsSecondCluster } content
        (openedHandle floppyVolume twoClusterEntry) .start requests ∧
      ¬∀ fails io requests, Resumes (disksFailing floppyVolume device fails)
        { device with fails := fails } content
        (openedHandle floppyVolume twoClusterEntry) io requests := by
  intro device content requests
  obtain ⟨hspared, hall⟩ := reads_resumable_iff twoCluster_mounts rfl twoCluster_healthy
  refine ⟨by decide +kernel,
    hspared failsSecondCluster .start requests fun result _ k cluster hk hcluster => ?_, ?_⟩
  · rintro ⟨m, _, j, hj, _, hfails⟩
    obtain rfl : k = 0 := by
      rw [List.length_cons, List.length_singleton] at hk
      omega
    obtain rfl := Option.some.inj hcluster
    obtain rfl : j = 0 := Nat.lt_one_iff.mp hj
    have hlba := (of_decide_eq_true hfails).2
    exact absurd hlba (by decide)
  · exact fun hresumes => absurd (hall.mp hresumes) (by decide)

/-- The link between the two clusters cannot be read once, after the first cluster: the read of the
file ends with an error, and the next one is told that the file is corrupt. -/
theorem link_failure_then_corrupt :
    fatMount (sparseDisks twoClusterSectors (failsOnce 3)) 0 0 .start = (some floppyVolume, ⟨[0], []⟩) ∧
    fatOpenFile (sparseDisks twoClusterSectors (failsOnce 3)) floppyVolume [0x2F, 0x41]
        (openedHandle floppyVolume freshDirent) ⟨[0], []⟩ =
      (.ok, openedHandle floppyVolume twoClusterEntry, ⟨[0, 19], []⟩) ∧
    HealthyChain (sparseDevice twoClusterSectors fun _ _ => false) floppyVolume twoClusterEntry [2, 3] ∧
    (readAll (sparseDisks twoClusterSectors (failsOnce 3)) (openedHandle floppyVolume twoClusterEntry)
        ⟨[0, 19], []⟩ [(freshBuffer, 1024), (freshBuffer, 512)]).1.map
      (fun result => (result.status, result.readBytes)) = [(.ioError, 512), (.corrupt, 0)] := by
  refine ⟨by decide, by decide +kernel, twoCluster_healthy, by decide +kernel⟩

end TermobKernel.Fat

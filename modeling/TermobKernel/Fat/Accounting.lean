import TermobKernel.Fat.Reading

/-!
# What a read accounts for

`fat_read_file` on a handle whose cursor may be anything, on a disk that may hold anything and fail
at any access. Each of its ends leaves the count, the position and the buffer in agreement. The
bytes that a call stores do not depend on what was in the buffer.
-/

namespace TermobKernel.Fat
open Word

def stored (buffer : Buffer) (start : Nat) (bytes : List UInt8) : Buffer := fun i =>
  if start ≤ i ∧ i < start + bytes.length then bytes.getD (i - start) 0 else buffer i

theorem stored_nil (buffer : Buffer) (start : Nat) : stored buffer start [] = buffer := by
  funext i
  rw [stored, if_neg]
  rw [List.length_nil]
  omega

theorem stored_append (buffer : Buffer) (start : Nat) (bytes more : List UInt8) :
    stored (stored buffer start bytes) (start + bytes.length) more =
        stored buffer start (bytes ++ more) := by
  funext i
  simp only [stored, List.length_append, List.getD_eq_getElem?_getD]
  by_cases hmore : start + bytes.length ≤ i ∧ i < start + bytes.length + more.length
  · rw [if_pos hmore, if_pos (by omega), List.getElem?_append_right (by omega)]
    congr 2
    omega
  · rw [if_neg hmore]
    by_cases hbytes : start ≤ i ∧ i < start + bytes.length
    · rw [if_pos hbytes, if_pos (by omega), List.getElem?_append_left (by omega)]
    · rw [if_neg hbytes, if_neg (by omega)]

theorem fatCopyBytes_eq_stored (dst : Buffer) (dstOffset : Nat) (src : Buffer) (srcOffset count : Nat) :
    fatCopyBytes dst dstOffset src srcOffset count =
      stored dst dstOffset ((List.range count).map fun i => src (srcOffset + i)) := by
  funext i
  rw [fatCopyBytes_apply, stored, List.length_map, List.length_range]
  by_cases hin : dstOffset ≤ i ∧ i < dstOffset + count
  · rw [if_pos hin, if_pos hin, List.getD_eq_getElem?_getD, List.getElem?_map,
      List.getElem?_range (by omega : i - dstOffset < count)]
    rfl
  · rw [if_neg hin, if_neg hin]

/-- Handles on the same file of the same volume, the second one `n` bytes further on. -/
structure Ahead (file file' : FatFile) (n : Nat) : Prop where
  volume : file'.fs = file.fs
  entry : file'.dirent = file.dirent
  position : file'.position.toNat = file.position.toNat + n

theorem Ahead.trans {file file' file'' : FatFile} {m n : Nat} (h : Ahead file file' m)
    (h' : Ahead file' file'' n) :
    Ahead file file'' (m + n) :=
  ⟨h'.volume.trans h.volume, h'.entry.trans h.entry, by rw [h'.position, h.position, Nat.add_assoc]⟩

theorem ahead_fatFileAdvanceCluster (d : Disks) (file : FatFile) (io : Io) :
    Ahead file (fatFileAdvanceCluster d file io).2.1 0 := by
  have hsame : Ahead file file 0 := ⟨rfl, rfl, rfl⟩
  unfold fatFileAdvanceCluster
  split
  · exact hsame
  split
  · exact hsame
  split
  · exact hsame
  split
  · exact hsame
  split
  · exact hsame
  split
  · exact hsame
  split
  · exact hsame
  · exact ⟨rfl, rfl, rfl⟩

/-- A round of the loop from this handle on, whatever the buffer holds: it stores some bytes and
moves the position by as many, and then comes to the next round or ends with a status. -/
structure RoundTo (d : Disks) (total : UInt32) (file : FatFile) (copied : UInt32) (io : Io)
    (status : Option FatStatus)
    (file' : FatFile) (bytes : List UInt8) (io' : Io) : Prop where
  ahead : Ahead file file' bytes.length
  room : bytes.length ≤ total.toNat - copied.toNat
  progress : status = none → 0 < bytes.length
  loop : ∀ (rounds : Nat) (buffer : Buffer), fatReadLoop d total (rounds + 1) file buffer copied io =
    match status with
    | none =>
      fatReadLoop d total rounds file' (stored buffer copied.toNat bytes)
        (copied + UInt32.ofNat bytes.length) io'
    | some status =>
      ⟨status, file', stored buffer copied.toNat bytes, copied + UInt32.ofNat bytes.length, io'⟩

theorem RoundTo.refused {d : Disks} {total : UInt32} {file : FatFile} {copied : UInt32} {io io' : Io}
    {status : FatStatus}
    (hend : ∀ (rounds : Nat) (buffer : Buffer), fatReadLoop d total (rounds + 1) file buffer copied io =
      ⟨status, file, buffer, copied, io'⟩) : RoundTo d total file copied io (some status) file [] io' where
  ahead := ⟨rfl, rfl, rfl⟩
  room := Nat.zero_le _
  progress := fun h => absurd h (Option.some_ne_none status)
  loop := by
    intro rounds buffer
    rw [hend, stored_nil]
    simp

section
variable {d : Disks} {file : FatFile} {total copied : UInt32} {io io' : Io}

def sectorOffset (file : FatFile) : UInt32 :=
  (file.position - file.currentClusterFileOffset) % file.fs.bytesPerSector

def roundSize (total : UInt32) (file : FatFile) (copied : UInt32) : UInt32 :=
  fatMinSize (file.fs.bytesPerSector - sectorOffset file) (total - copied)

theorem fatReadLoop_unserved (hcopied : copied < total)
    (hcluster : ¬(file.currentCluster = 0 ∨ fatClusterIsValid file.fs file.currentCluster = false))
    (hinside : ¬file.position - file.currentClusterFileOffset ≥ fatFileClusterSizeBytes file)
    (hread : fatBlockReadSector d file.fs (fatClusterFirstLba file.fs file.currentCluster +
      (file.position - file.currentClusterFileOffset) / file.fs.bytesPerSector) io = (none, io'))
    (rounds : Nat) (buffer : Buffer) :
    fatReadLoop d total (rounds + 1) file buffer copied io =
      ⟨.ioError, file, buffer, copied, io'.note "TERMOB: fat file data read failed"⟩ := by
  rw [fatReadLoop, if_neg (not_not.mpr hcopied), if_neg hcluster]
  dsimp only
  rw [if_neg hinside, hread]

theorem fatReadLoop_served {sector : Buffer} (hcopied : copied < total)
    (hcluster : ¬(file.currentCluster = 0 ∨ fatClusterIsValid file.fs file.currentCluster = false))
    (hinside : ¬file.position - file.currentClusterFileOffset ≥ fatFileClusterSizeBytes file)
    (hread : fatBlockReadSector d file.fs (fatClusterFirstLba file.fs file.currentCluster +
      (file.position - file.currentClusterFileOffset) / file.fs.bytesPerSector) io = (some sector, io'))
    (rounds : Nat) (buffer : Buffer) :
    fatReadLoop d total (rounds + 1) file buffer copied io =
      let n := roundSize total file copied
      let buffer := fatCopyBytes buffer copied.toNat sector (sectorOffset file).toNat n.toNat
      if (file.moved n).position ≥ file.dirent.sizeBytes then ⟨.ok, file.moved n, buffer, copied + n, io'⟩
      else if (file.moved n).position - file.currentClusterFileOffset ≥ fatFileClusterSizeBytes file then
        match fatFileAdvanceCluster d (file.moved n) io' with
        | (.ok, file, io) => fatReadLoop d total rounds file buffer (copied + n) io
        | (status, file, io) => ⟨status, file, buffer, copied + n, io⟩
      else fatReadLoop d total rounds (file.moved n) buffer (copied + n) io' := by
  rw [fatReadLoop, if_neg (not_not.mpr hcopied), if_neg hcluster]
  dsimp only
  rw [if_neg hinside, hread]
  rfl

theorem roundSize_toNat (hsize : 0 < file.fs.bytesPerSector.toNat) (hcopied : copied.toNat < total.toNat) :
    0 < (roundSize total file copied).toNat ∧
      (roundSize total file copied).toNat ≤ total.toNat - copied.toNat := by
  have hoffset : (sectorOffset file).toNat < file.fs.bytesPerSector.toNat := by
    rw [sectorOffset, UInt32.toNat_mod]
    exact Nat.mod_lt _ hsize
  rw [roundSize, fatMinSize_toNat, toNat_sub_of_le hoffset.le, toNat_sub_of_le hcopied.le]
  omega

theorem exists_roundTo (d : Disks) (hsize : 0 < file.fs.bytesPerSector.toNat)
    (hcopied : copied.toNat < total.toNat)
    (hroom : file.position.toNat + (total.toNat - copied.toNat) ≤ file.dirent.sizeBytes.toNat)
    (io : Io) :
    ∃ status file' bytes io', RoundTo d total file copied io status file' bytes io' := by
  have hgo : copied < total := UInt32.lt_iff_toNat_lt.mpr hcopied
  by_cases hcluster : file.currentCluster = 0 ∨ fatClusterIsValid file.fs file.currentCluster = false
  · refine ⟨some .corrupt, file, [], io.note "TERMOB: fat file cluster invalid",
      .refused fun rounds buffer => ?_⟩
    rw [fatReadLoop, if_neg (not_not.mpr hgo), if_pos hcluster]
  by_cases hinside : file.position - file.currentClusterFileOffset ≥ fatFileClusterSizeBytes file
  · refine ⟨some .corrupt, file, [], io.note "TERMOB: fat file cursor outside cluster",
      .refused fun rounds buffer => ?_⟩
    rw [fatReadLoop, if_neg (not_not.mpr hgo), if_neg hcluster]
    dsimp only
    rw [if_pos hinside]
  cases hread : fatBlockReadSector d file.fs (fatClusterFirstLba file.fs file.currentCluster +
      (file.position - file.currentClusterFileOffset) / file.fs.bytesPerSector) io with
  | mk sector io' =>
    cases sector with
    | none =>
      exact ⟨some .ioError, file, [], _, .refused (fatReadLoop_unserved hgo hcluster hinside hread)⟩
    | some sector =>
      have hloop := fatReadLoop_served hgo hcluster hinside hread
      obtain ⟨hpos, hle⟩ := roundSize_toNat hsize hcopied
      generalize roundSize total file copied = n at hloop hpos hle
      simp only [fatCopyBytes_eq_stored] at hloop
      generalize hbytes : ((List.range n.toNat).map fun i => sector
        ((sectorOffset file).toNat + i)) = bytes at hloop
      have hlength : bytes.length = n.toNat := by simp [← hbytes]
      have hcount : UInt32.ofNat bytes.length = n := by rw [hlength, UInt32.ofNat_toNat]
      have hlt := file.dirent.sizeBytes.toNat_lt
      have hmoved : Ahead file (file.moved n) bytes.length := by
        refine ⟨rfl, rfl, ?_⟩
        rw [hlength]
        exact toNat_add_of_lt (by omega)
      have hbound : bytes.length ≤ total.toNat - copied.toNat := by omega
      have hprogress : 0 < bytes.length := by omega
      by_cases hend : (file.moved n).position ≥ file.dirent.sizeBytes
      · refine ⟨some .ok, file.moved n, bytes, io', hmoved,
          hbound, fun _ => hprogress, fun rounds buffer => ?_⟩
        rw [hloop, if_pos hend, hcount]
      by_cases hedge : (file.moved n).position - file.currentClusterFileOffset ≥
        fatFileClusterSizeBytes file
      · have hadvance := ahead_fatFileAdvanceCluster d (file.moved n) io'
        cases hnext : fatFileAdvanceCluster d (file.moved n) io' with
        | mk status rest =>
          obtain ⟨file', io''⟩ := rest
          rw [hnext] at hadvance
          refine ⟨if status = .ok then none else some status, file', bytes, io'',
            hmoved.trans hadvance, hbound, fun _ => hprogress, fun rounds buffer => ?_⟩
          rw [hloop, if_neg hend, if_pos hedge, hnext, hcount]
          cases status <;> rfl
      · refine ⟨none, file.moved n, bytes, io', hmoved, hbound, fun _ => hprogress, fun rounds buffer => ?_⟩
        rw [hloop, if_neg hend, if_neg hedge, hcount]

theorem fatReadLoop_accounts (d : Disks) (total : UInt32) (left : Nat) (file : FatFile) (copied : UInt32)
    (hleft : left = total.toNat - copied.toNat) (hle : copied.toNat ≤ total.toNat)
    (hsize : 0 < file.fs.bytesPerSector.toNat)
    (hroom : file.position.toNat + (total.toNat - copied.toNat) ≤ file.dirent.sizeBytes.toNat) (io : Io) :
    ∃ status file' bytes io', Ahead file file' bytes.length ∧ bytes.length ≤ left ∧
      ∀ (rounds : Nat) (buffer : Buffer), left ≤ rounds → fatReadLoop d total rounds file buffer copied io =
        ⟨status, file', stored buffer copied.toNat bytes, copied + UInt32.ofNat bytes.length, io'⟩ := by
  induction left using Nat.strong_induction_on generalizing file copied io with
  | _ left ih =>
    rcases Nat.eq_or_lt_of_le hle with hdone | hmore
    · refine ⟨.ok, file, [], io, ⟨rfl, rfl, rfl⟩, Nat.zero_le _, fun rounds buffer _ => ?_⟩
      have hstop : ¬copied < total := by
        rw [UInt32.lt_iff_toNat_lt]
        omega
      rw [stored_nil]
      cases rounds with
      | zero => simp [fatReadLoop]
      | succ rounds => simp [fatReadLoop, hstop]
    · obtain ⟨status, file₁, bytes, io₁, hahead, hbound, hprogress, hround⟩ :=
        exists_roundTo d hsize hmore hroom io
      cases status with
      | some status =>
        refine ⟨status, file₁, bytes, io₁, hahead, by omega, fun rounds buffer hrounds => ?_⟩
        obtain ⟨rounds, rfl⟩ := Nat.exists_eq_add_of_lt (by omega : 0 < rounds)
        rw [Nat.zero_add, hround]
      | none =>
        have hpos := hprogress rfl
        have hlt := total.toNat_lt
        have hcount : (copied + UInt32.ofNat bytes.length).toNat = copied.toNat + bytes.length := by
          rw [toNat_add_of_lt] <;> rw [UInt32.toNat_ofNat', Nat.mod_eq_of_lt (by omega)]
          omega
        obtain ⟨status, file₂, more, io₂, hahead₂, hbound₂, hrest⟩ :=
          ih (left - bytes.length) (by omega) file₁ (copied + UInt32.ofNat bytes.length)
            (by omega) (by omega)
            (by rw [hahead.volume]; exact hsize) (by rw [hahead.position, hahead.entry]; omega) io₁
        refine ⟨status, file₂, bytes ++ more, io₂, ?_, ?_, fun rounds buffer hrounds => ?_⟩
        · rw [List.length_append]
          exact hahead.trans hahead₂
        · rw [List.length_append]
          omega
        · obtain ⟨rounds, rfl⟩ := Nat.exists_eq_add_of_lt (by omega : 0 < rounds)
          rw [Nat.zero_add, hround]
          dsimp only
          rw [hrest rounds _ (by omega), hcount, stored_append, List.length_append,
            UInt32.ofNat_add, UInt32.add_assoc]

end

theorem fatReadFile_stores (d : Disks) {file : FatFile} (hlow : 0 < file.fs.bytesPerSector.toNat)
    (hhigh : file.fs.bytesPerSector.toNat ≤ 4096) (hposition : file.position ≤ file.dirent.sizeBytes)
    (bufferSize : UInt32) (io : Io) :
    ∃ (status : FatStatus) (file' : FatFile) (bytes : List UInt8) (io' : Io),
      bytes.length ≤ min bufferSize.toNat (file.dirent.sizeBytes.toNat - file.position.toNat) ∧
      file'.position.toNat = file.position.toNat + bytes.length ∧
      ∀ buffer : Buffer, fatReadFile d file buffer bufferSize io =
        ⟨status, file', stored buffer 0 bytes, UInt32.ofNat bytes.length, io'⟩ := by
  unfold fatReadFile
  by_cases hnothing : bufferSize = 0 ∨ file.position ≥ file.dirent.sizeBytes
  · refine ⟨.ok, file, [], io, Nat.zero_le _, rfl, fun buffer => ?_⟩
    rw [if_pos hnothing, stored_nil]
    rfl
  · have hsmall : ¬file.fs.bytesPerSector > 4096 := by
      rw [gt_iff_lt, UInt32.lt_iff_toNat_lt]
      exact Nat.not_lt.mpr hhigh
    have hle := UInt32.le_iff_toNat_le.mp hposition
    have htotal : (fatMinSize bufferSize (file.dirent.sizeBytes - file.position)).toNat =
        min bufferSize.toNat (file.dirent.sizeBytes.toNat - file.position.toNat) := by
      rw [fatMinSize_toNat, toNat_sub_of_le hle]
    obtain ⟨status, file', bytes, io', hahead, hbound, hloop⟩ :=
      fatReadLoop_accounts d (fatMinSize bufferSize (file.dirent.sizeBytes - file.position)) _ file 0 rfl
        (Nat.zero_le _) hlow (by change _ + (_ - 0) ≤ _; omega) io
    change bytes.length ≤ _ - 0 at hbound
    refine ⟨status, file', bytes, io', by omega, hahead.position, fun buffer => ?_⟩
    rw [if_neg hnothing, if_neg hsmall]
    dsimp only
    rw [hloop _ buffer (Nat.sub_le _ _), UInt32.zero_add]
    rfl

/-- **Accounting.** A read of any size, from a handle whose position is inside of the file, ends on
any disk after at most as many rounds as bytes are asked for. What it stores, at the start of the
buffer, does not depend on the buffer, and is no more than asked for and than the file has left;
count and position tell its length. -/
theorem read_accounts {d : Disks} {deviceIndex bootLba : UInt32} {io₀ io₁ : Io} {fs : FatFs}
    (hmount : fatMount d deviceIndex bootLba io₀ = (some fs, io₁)) {file : FatFile} (hfs : file.fs = fs)
    (hposition : file.position ≤ file.dirent.sizeBytes) (d' : Disks) (bufferSize : UInt32) (io : Io) :
    (∃ (status : FatStatus) (file' : FatFile) (bytes : List UInt8) (io' : Io),
      bytes.length ≤ min bufferSize.toNat (file.dirent.sizeBytes.toNat - file.position.toNat) ∧
      file'.position.toNat = file.position.toNat + bytes.length ∧
      ∀ buffer : Buffer, fatReadFile d' file buffer bufferSize io =
        ⟨status, file', stored buffer 0 bytes, UInt32.ofNat bytes.length, io'⟩) ∧
    ∀ (buffer : Buffer) (rounds : Nat),
      (fatMinSize bufferSize (file.dirent.sizeBytes - file.position)).toNat ≤ rounds →
      fatReadLoop d' (fatMinSize bufferSize (file.dirent.sizeBytes - file.position)) rounds file
        buffer 0 io = fatReadLoop d' (fatMinSize bufferSize (file.dirent.sizeBytes - file.position))
          (fatMinSize bufferSize (file.dirent.sizeBytes - file.position)).toNat file buffer 0 io := by
  obtain ⟨device, hm, _, _⟩ := fatMount_mounted hmount
  obtain ⟨hlow, hhigh⟩ := hm.bytesPerSector_bounds
  rw [← hfs] at hlow hhigh
  refine ⟨fatReadFile_stores d' (by omega) hhigh hposition bufferSize io, fun buffer rounds hrounds => ?_⟩
  have hle := UInt32.le_iff_toNat_le.mp hposition
  have htotal := fatMinSize_toNat bufferSize (file.dirent.sizeBytes - file.position)
  rw [toNat_sub_of_le hle] at htotal
  obtain ⟨status, file', bytes, io', _, _, hloop⟩ :=
    fatReadLoop_accounts d' (fatMinSize bufferSize (file.dirent.sizeBytes - file.position)) _ file 0 rfl
      (Nat.zero_le _) (by omega) (by change _ + (_ - 0) ≤ _; omega) io
  rw [hloop rounds buffer hrounds, hloop _ buffer (Nat.sub_le _ _)]

/-- A handle whose cursor was lost: the position is ten bytes before the offset of its cluster. -/
def lostHandle : FatFile :=
  { openedHandle floppyVolume twoClusterEntry with position := 502, currentClusterFileOffset := 512 }

theorem lost_handle_accounts :
    ∃ (status : FatStatus) (file' : FatFile) (bytes : List UInt8) (io' : Io),
      bytes.length ≤ min 600 (1024 - 502) ∧ file'.position.toNat = 502 + bytes.length ∧
      ∀ buffer : Buffer,
        fatReadFile (sparseDisks twoClusterSectors (failsOnce 1)) lostHandle buffer 600 .start =
          ⟨status, file', stored buffer 0 bytes, UInt32.ofNat bytes.length, io'⟩ :=
  have hfs : lostHandle.fs = floppyVolume := rfl
  have hposition : lostHandle.position ≤ lostHandle.dirent.sizeBytes := by decide
  (read_accounts twoCluster_mounts hfs hposition (sparseDisks twoClusterSectors (failsOnce 1)) 600 .start).1

end TermobKernel.Fat

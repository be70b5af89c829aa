import TermobKernel.Fat.Reading
import TermobKernel.Fat.Seeking

/-!
# Handles on any disk

Nothing is assumed of the table here: chains may be cyclic, cut short or garbage, and any access may
fail. What the clusters in a handle's table then are is a prefix of the chain of the file
(`ChainPrefix`), and the other fields agree with it (`HandleOk`). `fat_read_file` keeps this through
every round and every way out, so that what a caller has received is the beginning of the contents
of different clusters, and a chain that runs into itself ends the reading.
-/

namespace TermobKernel.Fat
open Word Slices

def FatFile.visited (file : FatFile) : List UInt32 :=
  file.visitedClusters.toList.take file.visitedCount.toNat

/-- Clusters that the links of the table lead through from `first` on, all valid and different. -/
structure ChainPrefix (device : BlockDevice) (fs : FatFs) (first : UInt32) (seen : List UInt32) : Prop where
  head : seen.head? = some first
  valid : ∀ cluster ∈ seen, fatClusterIsValid fs cluster = true
  nodup : seen.Nodup
  linked : ∀ k cluster next, seen[k]? = some cluster → seen[k + 1]? = some next →
    fatEntryValue device fs cluster = some next

/-- The seven fields of a handle agree. -/
structure HandleOk (device : BlockDevice) (fs : FatFs) (dirent : Dirent) (file : FatFile) : Prop where
  volume : file.fs = fs
  entry : file.dirent = dirent
  chain : ChainPrefix device fs dirent.firstCluster file.visited
  last : file.visited.getLast? = some file.currentCluster
  seen : file.visitedCount = file.clustersSeen
  count : file.clustersSeen ≤ 256
  offset : file.currentClusterFileOffset.toNat = (file.visitedCount.toNat - 1) * clusterSize fs
  low : file.currentClusterFileOffset ≤ file.position
  high : file.position.toNat ≤
    min dirent.sizeBytes.toNat (file.currentClusterFileOffset.toNat + clusterSize fs)

section
variable {d : Disks} {fs : FatFs} {device : BlockDevice} {dirent : Dirent} {file : FatFile}

section
variable (h : HandleOk device fs dirent file)
include h

theorem HandleOk.count_le : file.visitedCount.toNat ≤ 256 := by
  rw [h.seen]
  exact UInt32.le_iff_toNat_le.mp h.count

theorem HandleOk.visited_length :
    file.visited.length = file.visitedCount.toNat := by
  have := h.count_le
  simp [FatFile.visited, this]

theorem HandleOk.count_pos : 0 < file.visitedCount.toNat := by
  rw [← h.visited_length]
  apply List.length_pos_of_ne_nil
  intro hnil
  have hlast := h.last
  rw [hnil] at hlast
  cases hlast

theorem HandleOk.standing :
    Standing fs file.visited file (file.visitedCount.toNat - 1) := by
  have hpos := h.count_pos
  have hlen := h.visited_length
  have hsucc : file.visitedCount.toNat - 1 + 1 = file.visitedCount.toNat := by omega
  refine ⟨?_, h.offset, ?_, hsucc.symm, ?_⟩
  · rw [← h.last, List.getLast?_eq_getElem?, hlen]
  · rw [hsucc, h.seen]
  · rw [hsucc, ← hlen, List.take_length, hlen, FatFile.visited]

theorem HandleOk.valid :
    fatClusterIsValid fs file.currentCluster = true :=
  h.chain.valid _ (List.mem_of_getLast? h.last)

/-- Unless the position has reached the end of the cluster, the handle is a good cursor in the
clusters it has visited. -/
theorem HandleOk.cursor
    (hin : file.position.toNat < file.currentClusterFileOffset.toNat + clusterSize fs) :
    Cursor fs dirent file.visited file file.position.toNat := by
  have hlow := UInt32.le_iff_toNat_le.mp h.low
  have hhigh := h.high
  refine ⟨h.volume, h.entry, rfl, by omega, ?_⟩
  intro _
  have hdiv : file.position.toNat / clusterSize fs = file.visitedCount.toNat - 1 := by
    apply Nat.div_eq_of_lt_le
    · rw [← h.offset]
      exact hlow
    · rw [Nat.add_one_mul, ← h.offset]
      exact hin
  rw [hdiv]
  exact h.standing

end

/-! ### The steps of a handle -/

theorem ChainPrefix.append {first : UInt32} {seen : List UInt32} (h : ChainPrefix device fs first seen)
    {cluster next : UInt32} (hlast : seen.getLast? = some cluster)
    (hlink : fatEntryValue device fs cluster = some next) (hvalid : fatClusterIsValid fs next = true)
    (hnew : next ∉ seen) : ChainPrefix device fs first (seen ++ [next]) := by
  refine ⟨?_, ?_, ?_, ?_⟩
  · rw [List.head?_append, h.head]
    rfl
  · intro c hc
    rcases List.mem_append.mp hc with hold | hone
    · exact h.valid c hold
    · rw [List.mem_singleton.mp hone]
      exact hvalid
  · rw [List.nodup_append]
    refine ⟨h.nodup, List.nodup_singleton next, ?_⟩
    intro a ha b hb
    rw [List.mem_singleton.mp hb]
    rintro rfl
    exact hnew ha
  · intro k c n hc hn
    rcases Nat.lt_trichotomy (k + 1) seen.length with hlt | heq | hgt
    · rw [List.getElem?_append_left (by omega)] at hc
      rw [List.getElem?_append_left hlt] at hn
      exact h.linked k c n hc hn
    · have hc' : cluster = c := by
        rw [List.getElem?_append_left (by omega)] at hc
        rw [List.getLast?_eq_getElem?, show seen.length - 1 = k by omega, hc] at hlast
        exact (Option.some.inj hlast).symm
      have hn' : next = n := by
        rw [List.getElem?_append_right (by omega), heq, Nat.sub_self] at hn
        exact Option.some.inj hn
      rw [← hc', ← hn']
      exact hlink
    · rw [List.getElem?_eq_none (by simp; omega)] at hn
      cases hn

theorem HandleOk.moved (h : HandleOk device fs dirent file) {n : UInt32}
    (hle : file.position.toNat + n.toNat ≤
      min dirent.sizeBytes.toNat (file.currentClusterFileOffset.toNat + clusterSize fs)) :
    HandleOk device fs dirent (file.moved n) ∧
      (file.moved n).position.toNat = file.position.toNat + n.toNat := by
  have hsize := dirent.sizeBytes.toNat_lt
  have hposition : (file.position + n).toNat = file.position.toNat + n.toNat := toNat_add_of_lt (by omega)
  have hlow := UInt32.le_iff_toNat_le.mp h.low
  refine ⟨⟨h.volume, h.entry, h.chain, h.last, h.seen, h.count, h.offset, ?_, ?_⟩, hposition⟩
  · change file.currentClusterFileOffset ≤ file.position + n
    rw [UInt32.le_iff_toNat_le, hposition]
    omega
  · change (file.position + n).toNat ≤ _
    rw [hposition]
    exact hle

/-- `fat_file_advance_cluster` at the end of the cluster: the handle is left as it is, or goes to
the cluster that the table links to and that was not visited. -/
theorem HandleOk.advance (hm : Mounted d fs device) (h : HandleOk device fs dirent file)
    (hedge : file.position.toNat = file.currentClusterFileOffset.toNat + clusterSize fs) (io : Io) :
    (∃ status io', status ≠ .ok ∧ fatFileAdvanceCluster d file io = (status, file, io')) ∨
    (∃ file' next io', fatFileAdvanceCluster d file io = (.ok, file', io') ∧
      HandleOk device fs dirent file' ∧
      file'.position = file.position ∧ file'.visited = file.visited ++ [next]) := by
  rcases fatFileAdvanceCluster_cases d file io with
    ⟨next, io', hread, hvalid, hbelow, hnext, hmarker, hnew, hroom⟩ | hfailed
  · right
    refine ⟨file.advanced next, next, io',
      fatFileAdvanceCluster_ok hvalid hbelow hread hnext hmarker hnew hroom, ?_⟩
    have hroom : file.visitedCount.toNat < 256 := UInt32.lt_iff_toNat_lt.mp hroom
    have hlink : fatEntryValue device fs file.currentCluster = some next := by
      rw [h.volume] at hread
      rcases hm.onDevice.fatReadFatEntry_spec file.currentCluster io with ⟨_, hspec⟩ | ⟨_, j, _, hspec⟩
      · rw [hread] at hspec
        exact (Prod.mk.inj hspec).1.symm
      · rw [hread] at hspec
        exact absurd (Prod.mk.inj hspec).1 (by simp)
    have hcount : (file.visitedCount + 1).toNat = file.visitedCount.toNat + 1 :=
      toNat_add_of_lt (by change _ + 1 < _; omega)
    have hvisited : (file.advanced next).visited = file.visited ++ [next] := by
      change (file.visitedClusters.setIfInBounds file.visitedCount.toNat next).toList.take
        (file.visitedCount + 1).toNat = _
      rw [hcount, take_set_visited _ hroom, FatFile.visited]
    have hsum := file.position.toNat_lt
    have hoffset : (file.currentClusterFileOffset + fatFileClusterSizeBytes file).toNat =
        file.currentClusterFileOffset.toNat + clusterSize fs := by
      rw [toNat_add_of_lt (by rw [hm.clusterSizeBytes_toNat file h.volume]; omega),
        hm.clusterSizeBytes_toNat file h.volume]
    refine ⟨⟨h.volume, h.entry, ?_, ?_, ?_, ?_, ?_, ?_, ?_⟩, rfl, hvisited⟩
    · rw [hvisited]
      rw [h.volume] at hnext
      exact h.chain.append h.last hlink hnext hnew
    · rw [hvisited, List.getLast?_append]
      rfl
    · change file.visitedCount + 1 = file.clustersSeen + 1
      rw [h.seen]
    · change file.clustersSeen + 1 ≤ 256
      rw [← h.seen, UInt32.le_iff_toNat_le, hcount]
      change _ ≤ 256
      omega
    · change (file.currentClusterFileOffset + fatFileClusterSizeBytes file).toNat =
        ((file.visitedCount + 1).toNat - 1) * clusterSize fs
      have hpos := h.count_pos
      rw [hoffset, hcount, h.offset, Nat.add_sub_cancel, ← Nat.add_one_mul]
      congr 1
      omega
    · change file.currentClusterFileOffset + fatFileClusterSizeBytes file ≤ file.position
      rw [UInt32.le_iff_toNat_le, hoffset, hedge]
    · have hhigh := h.high
      change file.position.toNat ≤ min dirent.sizeBytes.toNat
        ((file.currentClusterFileOffset + fatFileClusterSizeBytes file).toNat + clusterSize fs)
      rw [hoffset]
      omega
  · exact Or.inl hfailed

/-! ### One read -/

theorem slice_fileBytes_append (hm : Mounted d fs device) (seen more : List UInt32) {pos n : Nat}
    (hle : pos + n ≤ seen.length * clusterSize fs) :
    slice (fileBytes device fs dirent (seen ++ more)) pos n =
        slice (fileBytes device fs dirent seen) pos n := by
  have hcs := hm.clusterSize_bounds.1
  apply List.ext_getElem?
  intro i
  by_cases hi : i < n
  · rw [slice, slice, List.getElem?_take_of_lt hi, List.getElem?_take_of_lt hi, List.getElem?_drop,
      List.getElem?_drop, fileBytes, fileBytes]
    by_cases hsize : pos + i < dirent.sizeBytes.toNat
    · rw [List.getElem?_take_of_lt hsize, List.getElem?_take_of_lt hsize,
        getElem?_flatMap_blocks hcs fun c _ => clusterBytes_length c,
        getElem?_flatMap_blocks hcs fun c _ => clusterBytes_length c,
        List.getElem?_append_left ((Nat.div_lt_iff_lt_mul hcs).mpr (by omega))]
    · rw [List.getElem?_take_eq_none (by omega), List.getElem?_take_eq_none (by omega)]
  · rw [slice, slice, List.getElem?_take_eq_none (by omega), List.getElem?_take_eq_none (by omega)]

/-- What a read that starts at `start` and wants `want` bytes leaves and returns. -/
structure Delivered (device : BlockDevice) (fs : FatFs) (dirent : Dirent) (seen : List UInt32)
    (start want : Nat)
    (result : ReadResult) : Prop where
  handle : HandleOk device fs dirent result.file
  position : result.file.position.toNat = start + result.readBytes.toNat
  bytes : result.bytes = slice (fileBytes device fs dirent result.file.visited) start result.readBytes.toNat
  grows : ∃ more, result.file.visited = seen ++ more
  complete : result.status = .ok → result.readBytes.toNat = want

theorem HandleOk.fatReadLoop_edge (hm : Mounted d fs device) (h : HandleOk device fs dirent file)
    (hedge : file.position.toNat = file.currentClusterFileOffset.toNat + clusterSize fs)
    {total copied : UInt32} (hlt : copied.toNat < total.toNat) (rounds : Nat) (buffer : Buffer)
    (io : Io) :
    fatReadLoop d total (rounds + 1) file buffer copied io =
      ⟨.corrupt, file, buffer, copied, io.note "TERMOB: fat file cursor outside cluster"⟩ := by
  have hvalid : fatClusterIsValid file.fs file.currentCluster = true := by
    rw [h.volume]
    exact h.valid
  have houtside : file.position - file.currentClusterFileOffset ≥ fatFileClusterSizeBytes file := by
    rw [ge_iff_le, UInt32.le_iff_toNat_le, hm.clusterSizeBytes_toNat file h.volume,
      toNat_sub_of_le (by omega)]
    omega
  rw [fatReadLoop, if_neg (by simpa [UInt32.lt_iff_toNat_lt] using hlt),
    if_neg (by simp [valid_ne_zero hvalid, hvalid])]
  dsimp only
  rw [if_pos houtside]

/-- The loop of `fat_read_file` on any disk, by induction on the rounds. Every round that goes on
has copied a byte, so that the rounds do not run out. -/
theorem HandleOk.fatReadLoop_spec (hm : Mounted d fs device) {seen : List UInt32} {start : Nat}
    {total : UInt32}
    (hroom : start + total.toNat ≤ dirent.sizeBytes.toNat) (rounds : Nat) {file : FatFile} {buffer : Buffer}
    {copied : UInt32} (h : HandleOk device fs dirent file) (hle : copied.toNat ≤ total.toNat)
    (hrounds : total.toNat - copied.toNat ≤ rounds) (hposition : file.position.toNat = start + copied.toNat)
    (hbytes : bytesOf buffer copied.toNat =
      slice (fileBytes device fs dirent file.visited) start copied.toNat)
    (hgrows : ∃ more, file.visited = seen ++ more) (io : Io) :
    Delivered device fs dirent seen start total.toNat
        (fatReadLoop d total rounds file buffer copied io) := by
  induction rounds generalizing file buffer copied io with
  | zero => exact ⟨h, hposition, hbytes, hgrows, fun _ => show copied.toNat = _ by omega⟩
  | succ rounds ih =>
    by_cases hlt : copied.toNat < total.toNat
    swap
    · rw [fatReadLoop, if_pos (by simpa [UInt32.lt_iff_toNat_lt] using hlt)]
      exact ⟨h, hposition, hbytes, hgrows, fun _ => show copied.toNat = _ by omega⟩
    have hhigh := h.high
    by_cases hin : file.position.toNat < file.currentClusterFileOffset.toNat + clusterSize fs
    swap
    · rw [h.fatReadLoop_edge hm (by omega) hlt]
      exact ⟨h, hposition, hbytes, hgrows, fun hok => by cases hok⟩
    have hc := h.cursor hin
    rcases hm.fatReadLoop_round hc h.valid hlt (by omega) rounds buffer io with
      ⟨lba, io', _, _, hloop⟩ | ⟨n, buffer', io', hn, hpos, hfits, hcopy, _, hloop⟩
    · rw [hloop]
      exact ⟨h, hposition, hbytes, hgrows, fun hok => by cases hok⟩
    -- the round copied `n` bytes of the cluster
    have hsum : (copied + n).toNat = copied.toNat + n.toNat := by
      have := total.toNat_lt
      rw [toNat_add_of_lt (by omega)]
    have hplace : file.position.toNat % clusterSize fs =
        file.position.toNat - file.currentClusterFileOffset.toNat := by
      rw [← hc.clusterOffset_toNat (by omega), toNat_sub_of_le (UInt32.le_iff_toNat_le.mp h.low)]
    have hlow := UInt32.le_iff_toNat_le.mp h.low
    obtain ⟨hmoved, hmovedPosition⟩ := h.moved (n := n) (by omega)
    have hbytes' : bytesOf buffer' (copied + n).toNat =
        slice (fileBytes device fs dirent (file.moved n).visited) start (copied + n).toNat := by
      rw [hsum, hcopy, hbytes, slice_add, hposition]
      rfl
    have hposition' : (file.moved n).position.toNat = start + (copied + n).toNat := by omega
    rw [hloop]
    split_ifs with hend hedge
    · exact ⟨hmoved, hposition', hbytes', hgrows, fun _ => show (copied + n).toNat = _ by omega⟩
    · rcases hmoved.advance hm
        (by rw [hmovedPosition]; change _ = file.currentClusterFileOffset.toNat + _; omega)
        io' with ⟨status, io'', hstatus, hadvance⟩ | ⟨file', next, io'', hadvance, hok, hsame, hvisited⟩
      · rw [hadvance]
        cases status <;> first
          | exact absurd rfl hstatus
          | exact ⟨hmoved, hposition', hbytes', hgrows, fun hok => by cases hok⟩
      · rw [hadvance]
        refine ih hok (by omega) (by omega) (by rw [hsame]; exact hposition') ?_ ?_ io''
        · have hcount := h.count_pos
          have hoffset := h.offset
          rw [hbytes', hvisited, slice_fileBytes_append hm]
          rw [hmoved.visited_length]
          change _ ≤ file.visitedCount.toNat * _
          have hmul : file.visitedCount.toNat * clusterSize fs =
              (file.visitedCount.toNat - 1) * clusterSize fs + clusterSize fs := by
            rw [← Nat.add_one_mul]
            congr 1
            omega
          omega
        · obtain ⟨more, hmore⟩ := hgrows
          refine ⟨more ++ [next], ?_⟩
          rw [hvisited, ← List.append_assoc, ← hmore]
          rfl
    · exact ih hmoved (by omega) (by omega) hposition' hbytes' hgrows io'

theorem HandleOk.fatReadFile_spec (hm : Mounted d fs device) (h : HandleOk device fs dirent file)
    (buffer : Buffer) (bufferSize : UInt32) (io : Io) :
    Delivered device fs dirent file.visited file.position.toNat
      (min bufferSize.toNat (dirent.sizeBytes.toNat - file.position.toNat))
      (fatReadFile d file buffer bufferSize io) := by
  have hhigh := h.high
  by_cases hnone : bufferSize = 0 ∨ file.position ≥ file.dirent.sizeBytes
  · unfold fatReadFile
    rw [if_pos hnone]
    refine ⟨h, rfl, rfl, ⟨[], (List.append_nil _).symm⟩, fun _ => ?_⟩
    rcases hnone with hzero | hend
    · rw [hzero]
      simp
    · rw [h.entry, ge_iff_le, UInt32.le_iff_toNat_le] at hend
      change 0 = _
      omega
  · rw [not_or, ge_iff_le, UInt32.not_le] at hnone
    have htotal : (fatMinSize bufferSize (file.dirent.sizeBytes - file.position)).toNat =
        min bufferSize.toNat (dirent.sizeBytes.toNat - file.position.toNat) := by
      rw [fatMinSize_toNat, h.entry, toNat_sub_of_le (by omega)]
    rw [hm.fatReadFile_eq h.volume hnone.1 hnone.2, ← htotal]
    exact HandleOk.fatReadLoop_spec hm (by omega) _ h (Nat.zero_le _) (Nat.sub_le _ _) rfl rfl
      ⟨[], (List.append_nil _).symm⟩ io

/-! ### Any number of reads -/

/-- What a sequence of reads has delivered, and how it has left the handle. -/
structure AllDelivered (device : BlockDevice) (fs : FatFs) (dirent : Dirent) (seen : List UInt32)
    (start : Nat) (results : List ReadResult) (file : FatFile) : Prop where
  handle : HandleOk device fs dirent file
  position : file.position.toNat = start + (received results).length
  bytes : received results = slice (fileBytes device fs dirent file.visited) start (received results).length
  grows : ∃ more, file.visited = seen ++ more

theorem ReadResult.bytes_length (result : ReadResult) : result.bytes.length = result.readBytes.toNat := by
  simp [ReadResult.bytes, bytesOf]

theorem HandleOk.readAll_spec (hm : Mounted d fs device) (h : HandleOk device fs dirent file) (io : Io)
    (requests : List (Buffer × UInt32)) :
    AllDelivered device fs dirent file.visited file.position.toNat (readAll d file io requests).1
      (readAll d file io requests).2.1 := by
  induction requests generalizing file io with
  | nil => exact ⟨h, rfl, rfl, [], (List.append_nil _).symm⟩
  | cons request requests ih =>
    obtain ⟨buffer, bufferSize⟩ := request
    have hone := h.fatReadFile_spec hm buffer bufferSize io
    have hrest := ih hone.handle (fatReadFile d file buffer bufferSize io).io
    rw [readAll]
    dsimp only
    generalize fatReadFile d file buffer bufferSize io = result at hone hrest ⊢
    generalize readAll d result.file result.io requests = rest at hrest ⊢
    obtain ⟨more, hmore⟩ := hone.grows
    obtain ⟨more', hmore'⟩ := hrest.grows
    have hlen : (received (result :: rest.1)).length = result.readBytes.toNat +
        (received rest.1).length := by
      rw [received, List.flatMap_cons, List.length_append, ReadResult.bytes_length]
      rfl
    -- the clusters visited later do not change what the first read has delivered
    have hcovered : file.position.toNat + result.readBytes.toNat ≤
        result.file.visited.length * clusterSize fs := by
      have hhigh := hone.handle.high
      have hpos := hone.handle.count_pos
      rw [hone.position, hone.handle.offset] at hhigh
      rw [hone.handle.visited_length]
      calc file.position.toNat + result.readBytes.toNat
          ≤ (result.file.visitedCount.toNat - 1) * clusterSize fs + clusterSize fs := by omega
        _ = result.file.visitedCount.toNat * clusterSize fs := by
          rw [← Nat.add_one_mul]
          congr 1
          omega
    refine ⟨hrest.handle, ?_, ?_, ⟨more ++ more', ?_⟩⟩
    · rw [hrest.position, hone.position, hlen, Nat.add_assoc]
    · have hfirst : result.bytes =
          slice (fileBytes device fs dirent rest.2.1.visited) file.position.toNat
            result.readBytes.toNat := by
        rw [hmore', slice_fileBytes_append hm _ _ hcovered]
        exact hone.bytes
      have hsecond := hrest.bytes
      rw [hone.position] at hsecond
      rw [hlen, slice_add, ← hfirst, ← hsecond]
      rfl
    · rw [hmore', hmore, List.append_assoc]

/-! ### From the opening on -/

theorem fatOpenFile_valid {path : List UInt8} {outFile : FatFile} {io io' : Io}
    (h : fatOpenFile d fs path outFile io = (.ok, file, io')) (hne : file.dirent.sizeBytes ≠ 0) :
    fatClusterIsValid fs file.dirent.firstCluster = true := by
  unfold fatOpenFile at h
  split at h
  · split_ifs at h with hroot hsuspicious hinvalid hsize
    all_goals obtain ⟨hstatus, hfile, _⟩ := by simpa only [Prod.mk.injEq] using h
    all_goals first | exact absurd hstatus (by decide) | subst hfile
    · simpa [fatFileAtStart, hsize] using hinvalid
    · exact absurd (not_not.mp hsize) hne
  · next hstatus _ =>
    obtain ⟨rfl, _, _⟩ := by simpa only [Prod.mk.injEq] using h
    simp at hstatus

theorem handleOk_opened (hne : dirent.sizeBytes ≠ 0)
    (hvalid : fatClusterIsValid fs dirent.firstCluster = true) :
    HandleOk device fs dirent (openedHandle fs dirent) ∧ (openedHandle fs dirent).position = 0 ∧
      (openedHandle fs dirent).dirent = dirent := by
  have hs : Standing fs [dirent.firstCluster] (openedHandle fs dirent) 0 := standing_reset hne rfl
  have hcount : (openedHandle fs dirent).visitedCount.toNat = 1 := hs.count
  have hvisited : (openedHandle fs dirent).visited = [dirent.firstCluster] := by
    rw [FatFile.visited, hcount]
    exact hs.visited
  have hcurrent : dirent.firstCluster = (openedHandle fs dirent).currentCluster :=
    Option.some.inj hs.cluster
  have hoffset : (openedHandle fs dirent).currentClusterFileOffset.toNat = 0 := rfl
  refine ⟨⟨rfl, rfl, ?_, ?_, ?_, ?_, ?_, ?_, ?_⟩, rfl, rfl⟩
  · rw [hvisited]
    refine ⟨rfl, ?_, List.nodup_singleton _, ?_⟩
    · intro cluster hmem
      rw [List.mem_singleton.mp hmem]
      exact hvalid
    · intro k cluster next _ hnext
      rw [List.getElem?_eq_none (by simp)] at hnext
      cases hnext
  · rw [hvisited, ← hcurrent]
    rfl
  · exact UInt32.toNat_inj.mp (hs.count.trans hs.seen.symm)
  · rw [UInt32.le_iff_toNat_le, hs.seen]
    decide
  · rw [hoffset, hcount, Nat.sub_self, Nat.zero_mul]
  · exact UInt32.le_refl _
  · exact Nat.zero_le _

end

/-- What holds after a file was opened and read any number of times. -/
structure ReadSafely (d : Disks) (device : BlockDevice) (fs : FatFs) (dirent : Dirent)
    (results : List ReadResult)
    (file : FatFile) : Prop where
  handle : HandleOk device fs dirent file
  /-- What was delivered is the beginning of the contents of the visited clusters, which are different. -/
  once : received results = (file.visited.flatMap (clusterBytes device fs)).take file.position.toNat
  /-- No chain can make a caller read more than 256 clusters. -/
  bounded : (received results).length ≤ 256 * clusterSize fs
  /-- The next read gets all it asked for, up to the end of the file, or reports a failure. -/
  progress : ∀ buffer bufferSize io, (fatReadFile d file buffer bufferSize io).status = .ok →
    (fatReadFile d file buffer bufferSize io).readBytes.toNat =
      min bufferSize.toNat (dirent.sizeBytes.toNat - file.position.toNat)

/-- **Handles on any disk.** After a non-empty file was opened on an accepted volume, whatever the
disk holds and whichever accesses fail, the fields of the handle agree after every sequence of
reads; no cluster is delivered twice, and the reading stops. -/
theorem handle_invariant {d : Disks} {deviceIndex bootLba : UInt32} {io₀ io₁ io₂ io₃ : Io} {fs : FatFs}
    {path : List UInt8} {outFile file : FatFile}
    (hmount : fatMount d deviceIndex bootLba io₀ = (some fs, io₁))
    (hopen : fatOpenFile d fs path outFile io₂ = (.ok, file, io₃)) (hne : file.dirent.sizeBytes ≠ 0)
    (io : Io) (requests : List (Buffer × UInt32)) :
    ∃ device, blockDeviceAt d deviceIndex = some device ∧
      ReadSafely d device fs file.dirent (readAll d file io requests).1
        (readAll d file io requests).2.1 := by
  obtain ⟨device, hm, hindex, _⟩ := fatMount_mounted hmount
  refine ⟨device, by rw [← hindex]; exact hm.found, ?_⟩
  obtain ⟨hopened, hzero, _⟩ := handleOk_opened hne (fatOpenFile_valid hopen hne)
  rw [← fatOpenFile_ok hopen] at hopened hzero
  have hspec := hopened.readAll_spec hm io requests
  rw [hzero] at hspec
  generalize readAll d file io requests = out at hspec ⊢
  have hposition : out.2.1.position.toNat = (received out.1).length := by
    rw [hspec.position]
    exact Nat.zero_add _
  have hhigh := hspec.handle.high
  refine ⟨hspec.handle, ?_, ?_, ?_⟩
  · rw [hspec.bytes, ← hposition, slice, fileBytes]
    change List.take _ (List.drop 0 _) = _
    rw [List.drop_zero, List.take_take, Nat.min_eq_left (by omega)]
  · have hcount := hspec.handle.count_le
    have hpos := hspec.handle.count_pos
    rw [← hposition]
    calc out.2.1.position.toNat
        ≤ (out.2.1.visitedCount.toNat - 1) * clusterSize fs + clusterSize fs := by
          rw [← hspec.handle.offset]
          omega
      _ = out.2.1.visitedCount.toNat * clusterSize fs := by
          rw [← Nat.add_one_mul]
          congr 1
          omega
      _ ≤ 256 * clusterSize fs := Nat.mul_le_mul_right _ hcount
  · intro buffer bufferSize io' hok
    exact (hspec.handle.fatReadFile_spec hm buffer bufferSize io').complete hok

/-- The sample file with the link from its second cluster back to the first one. -/
def cyclicSectors : List (UInt32 × List (Nat × UInt8)) :=
  [(0, floppyBoot), (1, [(3, 0x03), (4, 0x20), (5, 0x00)]),
    (19, [(0, 0x41), (1, 32), (2, 32), (3, 32), (4, 32), (5, 32), (6, 32), (7, 32), (8, 32),
      (9, 32), (10, 32), (11, 0x20), (26, 2), (29, 8)]),
    (33, [(0, 7)]), (34, [(511, 9)])]

/-- A file of four clusters on a chain of two that runs into itself. -/
theorem cyclic_file_read_safely :
    ∃ device, blockDeviceAt (sparseDisks cyclicSectors fun _ _ => false) 0 = some device ∧
      ReadSafely (sparseDisks cyclicSectors fun _ _ => false) device floppyVolume
        { twoClusterEntry with sizeBytes := 2048 }
        (readAll (sparseDisks cyclicSectors fun _ _ => false)
          (openedHandle floppyVolume { twoClusterEntry with sizeBytes := 2048 }) ⟨[0, 19], []⟩
          [(freshBuffer, 600), (freshBuffer, 600)]).1
        (readAll (sparseDisks cyclicSectors fun _ _ => false)
          (openedHandle floppyVolume { twoClusterEntry with sizeBytes := 2048 }) ⟨[0, 19], []⟩
          [(freshBuffer, 600), (freshBuffer, 600)]).2.1 := by
  have hmount : fatMount (sparseDisks cyclicSectors fun _ _ => false) 0 0 .start =
      (some floppyVolume, ⟨[0], []⟩) := by decide
  have hopen : fatOpenFile (sparseDisks cyclicSectors fun _ _ => false) floppyVolume [0x2F, 0x41]
      (openedHandle floppyVolume freshDirent) ⟨[0], []⟩ =
      (.ok, openedHandle floppyVolume { twoClusterEntry with sizeBytes := 2048 }, ⟨[0, 19], []⟩) := by
    decide +kernel
  exact handle_invariant hmount hopen (by decide) _ _

end TermobKernel.Fat

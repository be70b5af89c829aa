import TermobKernel.Fat.Sectors
import TermobKernel.Fat.Table
import Mathlib.Data.List.TakeWhile
import Mathlib.Data.List.Chain
import Mathlib.Data.Bool.AllAny

/-!
# Directories in cluster chains

`fat_list_cluster_chain` follows links that may lead anywhere. On a device whose reads succeed, and
with a callback that never stops it, the walk is determined by the table and the contents of the
clusters: it goes along the longest trail of different valid clusters that the links allow, up to an
end marker, and reports the entries on the way.
-/

namespace TermobKernel.Fat

variable {fs : FatFs}

/-! ### What is on the disk -/

def sectorEntries (fs : FatFs) (sector : Buffer) : List Buffer :=
  (List.range ((fs.bytesPerSector.toNat + 31) / 32)).map fun i => entryAt sector (i * fatDirEntrySize)

section disk
variable (device : BlockDevice) (fs : FatFs)

def clusterSectors (cluster : UInt32) : List Buffer :=
  (sectorRun (fatClusterFirstLba fs cluster) fs.sectorsPerCluster.toNat).map fun lba =>
    device.filled lba 1 freshBuffer

def clusterEntries (cluster : UInt32) : List Buffer :=
  (clusterSectors device fs cluster).flatMap (sectorEntries fs)

/-- A link value that leads to another cluster. -/
def LinksTo (cluster next : UInt32) : Prop :=
  fatEntryValue device fs cluster = some next ∧ fatEntryIsEnd fs.fatType next = false ∧
    fatEntryIsBad fs.fatType next = false ∧ fatEntryIsReserved fs.fatType next = false

/-- The chain from the start cluster, followed through at most 256 different valid clusters. -/
structure Followed (start : UInt32) (trail : List UInt32) : Prop where
  head : trail.head? = some start
  valid : ∀ cluster ∈ trail, fatClusterIsValid fs cluster = true
  nodup : trail.Nodup
  short : trail.length ≤ 256
  linked : trail.IsChain (LinksTo device fs)

/-- The last cluster of the trail has an end marker among its entries, or its link is the end of the
chain. -/
def ReachesEnd (trail : List UInt32) : Prop :=
  ∃ last, trail.getLast? = some last ∧ ((∃ raw ∈ clusterEntries device fs last, raw 0 = 0x00) ∨
    ∃ next, fatEntryValue device fs last = some next ∧ fatEntryIsEnd fs.fatType next = true)

def trailEntries (trail : List UInt32) : List Buffer :=
  (trail.flatMap (clusterEntries device fs)).takeWhile fun raw => decide (raw 0 ≠ 0x00)

end disk

theorem entriesBefore_append {entries more : List Buffer} {raw : Buffer} (hraw : raw ∈ entries)
    (hzero : raw 0 = 0x00) :
    (entries ++ more).takeWhile (fun raw => decide (raw 0 ≠ 0x00)) =
      entries.takeWhile fun raw => decide (raw 0 ≠ 0x00) := by
  have hshorter : (entries.takeWhile fun raw => decide (raw 0 ≠ 0x00)).length ≠ entries.length := by
    intro hlength
    have hself := (List.takeWhile_sublist _).eq_of_length hlength
    exact absurd hzero (of_decide_eq_true (List.takeWhile_eq_self_iff.mp hself raw hraw))
  rw [List.takeWhile_append, if_neg hshorter]

/-! ### Visiting with a callback that goes on -/

section visit
variable {σ : Type} {fs : FatFs} {callback : DirentCallback σ}

def told (fs : FatFs) (callback : DirentCallback σ) (user : σ) (reports : List Report) : σ :=
  reports.foldl (fun user report => (callback.call fs report.dirent user).2) user

theorem told_append (user : σ) (reports reports' : List Report) :
    told fs callback user (reports ++ reports') =
        told fs callback (told fs callback user reports) reports' :=
  List.foldl_append

theorem fedEntries_eq (sector : Buffer) (count base : Nat) :
    let all := (List.range count).map fun i => entryAt sector (base + i * fatDirEntrySize)
    ((∀ raw ∈ all, raw 0 ≠ 0x00) ∧ fedEntries sector count base = all) ∨
      ∃ marker, marker ∈ all ∧ marker 0 = 0x00 ∧
        fedEntries sector count base = all.takeWhile (fun raw => decide (raw 0 ≠ 0x00)) ++ [marker] := by
  induction count generalizing base with
  | zero => exact Or.inl ⟨fun _ h => absurd h List.not_mem_nil, rfl⟩
  | succ count ih =>
    have hall : (List.range (count + 1)).map (fun i => entryAt sector (base + i * fatDirEntrySize)) =
        entryAt sector base ::
          (List.range count).map fun i =>
          entryAt sector (base + fatDirEntrySize + i * fatDirEntrySize) := by
      rw [List.range_succ_eq_map, List.map_cons, List.map_map, Nat.zero_mul, Nat.add_zero]
      refine congrArg _ (List.map_congr_left fun i _ => ?_)
      dsimp only [Function.comp]
      rw [Nat.succ_mul]
      congr 1
      omega
    dsimp only
    rw [hall]
    by_cases hend : sector base = 0x00
    · right
      refine ⟨entryAt sector base, List.mem_cons_self .., hend, ?_⟩
      rw [fedEntries, if_pos hend, List.takeWhile_cons, if_neg (by simpa [entryAt] using hend)]
      rfl
    · rw [fedEntries_cons _ _ _ hend, List.takeWhile_cons, if_pos (by simpa [entryAt] using hend)]
      rcases ih (base + fatDirEntrySize) with ⟨hnone, heq⟩ | ⟨marker, hmem, hzero, heq⟩
      · left
        refine ⟨fun raw hraw => ?_, by rw [heq]⟩
        rcases List.mem_cons.mp hraw with rfl | hraw
        · exact hend
        · exact hnone raw hraw
      · right
        exact ⟨marker, List.mem_cons_of_mem _ hmem, hzero, by rw [heq]; rfl⟩

theorem sectorFed_spec (fs : FatFs) (sector : Buffer) :
    (Marked fs sector ↔ ∃ raw ∈ sectorEntries fs sector, raw 0 = 0x00) ∧
      (¬Marked fs sector → sectorFed fs sector = sectorEntries fs sector) ∧
      ∀ before, reportsAfter fs before (sectorFed fs sector) =
        reportsAfter fs before ((sectorEntries fs sector).takeWhile fun raw => decide (raw 0 ≠ 0x00)) := by
  have hall := fedEntries_eq sector ((fs.bytesPerSector.toNat + 31) / 32) 0
  simp only [Nat.zero_add] at hall
  change ((∀ raw ∈ sectorEntries fs sector, raw 0 ≠ 0x00) ∧ sectorFed fs sector = sectorEntries fs sector) ∨
    ∃ marker, marker ∈ sectorEntries fs sector ∧ marker 0 = 0x00 ∧ sectorFed fs sector =
      (sectorEntries fs sector).takeWhile (fun raw => decide (raw 0 ≠ 0x00)) ++ [marker] at hall
  rcases hall with ⟨hnone, heq⟩ | ⟨marker, hmem, hzero, heq⟩
  · have htake : (sectorEntries fs sector).takeWhile (fun raw => decide (raw 0 ≠ 0x00)) =
        sectorEntries fs sector :=
      List.takeWhile_eq_self_iff.mpr fun raw hraw => decide_eq_true (hnone raw hraw)
    rw [Marked, heq, htake]
    exact ⟨Iff.rfl, fun _ => rfl, fun _ => rfl⟩
  · have hmarked : Marked fs sector := ⟨marker, by rw [heq]; simp, hzero⟩
    refine ⟨iff_of_true hmarked ⟨marker, hmem, hzero⟩, fun h => absurd hmarked h, fun before => ?_⟩
    rw [heq, reportsAfter_append, reportsAfter, reportsAfter,
      (reportedFor_eq_none fs).mpr fun h => h.1 hzero]
    exact List.append_nil _

section always
variable (halways : ∀ e user, (callback.call fs e user).1 = true)
include halways

theorem visit_always (sector : Buffer) (count base : Nat) (lfnState : LfnState) (user : σ) :
    fatVisitEntries fs sector callback count base lfnState user =
      let all := fatVisitEntries fs sector collect count base lfnState []
      (all.1, all.2.1.foldl (fun user e => (callback.call fs e user).2) user, all.2.2) := by
  induction count generalizing base lfnState user with
  | zero => rfl
  | succ count ih =>
    have hpass : ∀ e : Dirent,
        (if (callback.call fs e user).1 then
          fatVisitEntries fs sector callback count (base + fatDirEntrySize) fatLfnReset
            (callback.call fs e user).2
        else (fatLfnReset, (callback.call fs e user).2, false)) =
          let all := fatVisitEntries fs sector collect count (base + fatDirEntrySize) fatLfnReset [e]
          (all.1, all.2.1.foldl (fun user e => (callback.call fs e user).2) user, all.2.2) := by
      intro e
      dsimp only
      rw [if_pos (halways e user), visit_collect, ih]
      rfl
    simp only [fatVisitEntries, collect_call, if_true, List.nil_append]
    split
    · rfl
    · split
      · exact hpass _
      · split
        · exact ih _ _ _
        · exact hpass _

theorem visitSector_always (sector : Buffer) (before : List Buffer) (user : σ) :
    fatVisitSectorEntries fs sector (lfnStateAfter before) callback user =
      (lfnStateAfter (before ++ sectorFed fs sector),
        told fs callback user (reportsAfter fs before (sectorFed fs sector)),
        decide (Marked fs sector)) := by
  have hall := visitSector_collect fs sector before
  rw [fatVisitSectorEntries] at hall ⊢
  rw [visit_always halways, hall, told]
  dsimp only
  rw [List.foldl_map]

theorem visitUntilEnd_always (sectors before : List Buffer) (user : σ) :
    let entries := sectors.flatMap (sectorEntries fs)
    (visitUntilEnd fs callback sectors (lfnStateAfter before) user).2.1 =
        told fs callback user
          (reportsAfter fs before (entries.takeWhile fun raw => decide (raw 0 ≠ 0x00))) ∧
      ((visitUntilEnd fs callback sectors (lfnStateAfter before) user).2.2 = true ↔
        ∃ raw ∈ entries, raw 0 = 0x00) := by
  induction sectors generalizing before user with
  | nil => exact ⟨rfl, by simp [visitUntilEnd]⟩
  | cons sector sectors ih =>
    obtain ⟨hmarker, hall, hreports⟩ := sectorFed_spec fs sector
    rw [visitUntilEnd, visitSector_always halways, List.flatMap_cons]
    dsimp only
    by_cases hmarked : Marked fs sector
    · obtain ⟨raw, hraw, hzero⟩ := hmarker.mp hmarked
      rw [if_pos (by simpa using hmarked), entriesBefore_append hraw hzero, hreports]
      exact ⟨rfl, iff_of_true (by simpa using hmarked) ⟨raw, List.mem_append_left _ hraw, hzero⟩⟩
    · have hnone : ∀ raw ∈ sectorEntries fs sector, raw 0 ≠ 0x00 := fun raw hraw hzero =>
        hmarked (hmarker.mpr ⟨raw, hraw, hzero⟩)
      obtain ⟨huser, hend⟩ := ih (before ++ sectorFed fs sector)
        (told fs callback user (reportsAfter fs before (sectorFed fs sector)))
      rw [if_neg (by simpa using hmarked),
        List.takeWhile_append_of_pos fun raw hraw => decide_eq_true (hnone raw hraw),
        reportsAfter_append, told_append, huser, hend, hall hmarked]
      refine ⟨rfl, ?_⟩
      constructor
      · rintro ⟨raw, hraw, hzero⟩
        exact ⟨raw, List.mem_append_right _ hraw, hzero⟩
      · rintro ⟨raw, hraw, hzero⟩
        rcases List.mem_append.mp hraw with hraw | hraw
        · exact absurd hzero (hnone raw hraw)
        · exact ⟨raw, hraw, hzero⟩

end always

end visit

/-! ### The trail of a walk -/

/-- The clusters that a walk goes through when no entry ends it, and why it goes no further. -/
def trailFrom (device : BlockDevice) (fs : FatFs) : Nat → List UInt32 → UInt32 → List UInt32 × WalkEnd
  | slots, visited, cluster =>
    if fatClusterIsValid fs cluster = false then ([], .invalid)
    else if cluster ∈ visited then ([], .looped)
    else
      match slots with
      | 0 => ([], .tooLong)
      | slots + 1 =>
        let rest : List UInt32 × WalkEnd :=
          match fatEntryValue device fs cluster with
          | none => ([], .nextFailed)
          | some next =>
            if fatEntryIsEnd fs.fatType next then ([], .exhausted)
            else if BadLink fs next then ([], .corrupted)
            else trailFrom device fs slots (visited ++ [cluster]) next
        (cluster :: rest.1, rest.2)

section reliable
variable {d : Disks} {fs : FatFs} {device : BlockDevice} (hdevice : OnDevice d fs device)
  (hreads : ∀ n lba, device.fails n lba = false)
include hdevice hreads

theorem sector_reliable (lba : UInt32) (io : Io) :
    fatBlockReadSector d fs lba io = (some (device.filled lba 1 freshBuffer),
        io.accessed (sectorRun lba 1)) := by
  rcases hdevice.fatBlockReadSector_spec lba io with ⟨_, h⟩ | ⟨h, _⟩
  · exact h
  · exact absurd (fun _ _ => hreads _ _) h

theorem entry_reliable (cluster : UInt32) (io : Io) :
    fatReadFatEntry d fs cluster io = (fatEntryValue device fs cluster,
      io.accessed (sectorRun (entryLba fs cluster) (entrySectors fs cluster))) := by
  rcases hdevice.fatReadFatEntry_spec cluster io with ⟨_, h⟩ | ⟨h, _⟩
  · exact h
  · exact absurd (fun _ _ => hreads _ _) h

theorem sectorsFrom_reliable (count : Nat) (lba : UInt32) (io : Io) :
    ∃ io', sectorsFrom d fs count lba io =
      ((sectorRun lba count).map fun lba => device.filled lba 1 freshBuffer, true, io') := by
  induction count generalizing lba io with
  | zero => exact ⟨io, rfl⟩
  | succ count ih =>
    obtain ⟨io', hrest⟩ := ih (lba + 1) (io.accessed (sectorRun lba 1))
    refine ⟨io', ?_⟩
    rw [sectorsFrom, sector_reliable hdevice hreads]
    dsimp only
    rw [hrest, sectorRun_cons]
    rfl

theorem chainSectors_reliable (slots : Nat) (visited : List UInt32) (cluster : UInt32) (io : Io) :
    chainSectors d fs slots visited cluster io =
      ((trailFrom device fs slots visited cluster).1.flatMap (clusterSectors device fs),
        (trailFrom device fs slots visited cluster).2) := by
  induction slots generalizing visited cluster io with
  | zero =>
    rw [chainSectors, trailFrom]
    split
    · rfl
    split
    · rfl
    · rfl
  | succ slots ih =>
    rw [chainSectors, trailFrom]
    split
    · rfl
    split
    · rfl
    · obtain ⟨io', hsectors⟩ :=
        sectorsFrom_reliable hdevice hreads fs.sectorsPerCluster.toNat (fatClusterFirstLba fs cluster) io
      rw [hsectors]
      dsimp only
      rw [if_neg (by decide), entry_reliable hdevice hreads]
      cases fatEntryValue device fs cluster with
      | none => simp [clusterSectors]
      | some next =>
        dsimp only
        split
        · simp [clusterSectors]
        split
        · simp [clusterSectors]
        · rw [ih]
          rfl

end reliable

/-- Different valid clusters outside those visited, at most as many as there are slots, each linked
to the next. -/
structure Fresh (device : BlockDevice) (fs : FatFs) (slots : Nat) (visited trail : List UInt32) : Prop where
  valid : ∀ cluster ∈ trail, fatClusterIsValid fs cluster = true
  nodup : trail.Nodup
  unvisited : ∀ cluster ∈ trail, cluster ∉ visited
  short : trail.length ≤ slots
  linked : trail.IsChain (LinksTo device fs)

section trail
variable {device : BlockDevice} {fs : FatFs}
variable {cluster : UInt32} {slots : Nat}

theorem fresh_nil (slots : Nat) (visited : List UInt32) : Fresh device fs slots visited [] :=
  ⟨by simp, List.nodup_nil, by simp, Nat.zero_le _, List.IsChain.nil⟩

theorem fresh_cons {visited rest : List UInt32} :
    Fresh device fs (slots + 1) visited (cluster :: rest) ↔
      fatClusterIsValid fs cluster = true ∧ cluster ∉ visited ∧
        (∀ next ∈ rest.head?, LinksTo device fs cluster next) ∧
        Fresh device fs slots (visited ++ [cluster]) rest := by
  constructor
  · rintro ⟨hvalid, hnodup, hunvisited, hshort, hlinked⟩
    rw [List.nodup_cons] at hnodup
    rw [List.isChain_cons] at hlinked
    refine ⟨hvalid _ (List.mem_cons_self ..), hunvisited _ (List.mem_cons_self ..), hlinked.1,
      fun c hc => hvalid c (List.mem_cons_of_mem _ hc), hnodup.2, fun c hc hvisited => ?_,
      Nat.le_of_succ_le_succ hshort, hlinked.2⟩
    rcases List.mem_append.mp hvisited with h | h
    · exact hunvisited c (List.mem_cons_of_mem _ hc) h
    · rw [List.mem_singleton.mp h] at hc
      exact hnodup.1 hc
  · rintro ⟨hcluster, hfirst, hlink, hvalid, hnodup, hunvisited, hshort, hlinked⟩
    refine ⟨List.forall_mem_cons.mpr ⟨hcluster, hvalid⟩, List.nodup_cons.mpr ⟨fun hmem => ?_, hnodup⟩,
      List.forall_mem_cons.mpr ⟨hfirst,
        fun c hc hvisited => hunvisited c hc (List.mem_append_left _ hvisited)⟩,
      Nat.succ_le_succ hshort, List.isChain_cons.mpr ⟨hlink, hlinked⟩⟩
    exact hunvisited cluster hmem (List.mem_append_right _ (List.mem_singleton_self _))

theorem followed_iff {start : UInt32} {trail : List UInt32} :
    Followed device fs start trail ↔ trail.head? = some start ∧ Fresh device fs 256 [] trail :=
  ⟨fun h => ⟨h.head, h.valid, h.nodup, fun _ _ => List.not_mem_nil, h.short, h.linked⟩,
    fun ⟨hhead, h⟩ => ⟨hhead, h.valid, h.nodup, h.short, h.linked⟩⟩

def LastLinkEnds (device : BlockDevice) (fs : FatFs) (trail : List UInt32) : Prop :=
  ∃ last, trail.getLast? = some last ∧
    ∃ next, fatEntryValue device fs last = some next ∧ fatEntryIsEnd fs.fatType next = true

theorem lastLinkEnds_cons {rest : List UInt32} (hrest : LastLinkEnds device fs rest) :
    LastLinkEnds device fs (cluster :: rest) := by
  obtain ⟨last, hlast, hend⟩ := hrest
  exact ⟨last, by rw [List.getLast?_cons, hlast]; rfl, hend⟩

theorem trailFrom_enter {visited : List UInt32}
    (hvalid : fatClusterIsValid fs cluster = true) (hunvisited : cluster ∉ visited) :
    trailFrom device fs (slots + 1) visited cluster =
      let rest : List UInt32 × WalkEnd :=
        match fatEntryValue device fs cluster with
        | none => ([], .nextFailed)
        | some next =>
          if fatEntryIsEnd fs.fatType next then ([], .exhausted)
          else if BadLink fs next then ([], .corrupted)
          else trailFrom device fs slots (visited ++ [cluster]) next
      (cluster :: rest.1, rest.2) := by
  rw [trailFrom, if_neg (by simp [hvalid]), if_neg hunvisited]

/-- The trail of a walk is fresh; it starts at the cluster if it is not empty, and a walk that is
exhausted has found the end of the chain. -/
theorem trailFrom_fresh (slots : Nat) (visited : List UInt32) (cluster : UInt32) :
    let trail := trailFrom device fs slots visited cluster
    Fresh device fs slots visited trail.1 ∧ (∀ first ∈ trail.1.head?, first = cluster) ∧
      (trail.2 = .exhausted → LastLinkEnds device fs trail.1) ∧ trail.2 ≠ .reachedEnd := by
  have hempty : ∀ (slots : Nat) (visited : List UInt32) (cluster : UInt32) (walkEnd : WalkEnd),
      walkEnd ≠ .exhausted → walkEnd ≠ .reachedEnd →
      let trail : List UInt32 × WalkEnd := ([], walkEnd)
      Fresh device fs slots visited trail.1 ∧ (∀ first ∈ trail.1.head?, first = cluster) ∧
        (trail.2 = .exhausted → LastLinkEnds device fs trail.1) ∧ trail.2 ≠ .reachedEnd :=
    fun _ _ _ _ hexhausted hend => ⟨fresh_nil _ _, by simp, fun h => absurd h hexhausted, hend⟩
  induction slots generalizing visited cluster with
  | zero =>
    rw [trailFrom]
    split
    · exact hempty _ _ _ _ (by decide) (by decide)
    split
    · exact hempty _ _ _ _ (by decide) (by decide)
    · exact hempty _ _ _ _ (by decide) (by decide)
  | succ slots ih =>
    by_cases hbad : fatClusterIsValid fs cluster = false
    · rw [trailFrom, if_pos hbad]
      exact hempty _ _ _ _ (by decide) (by decide)
    by_cases hloop : cluster ∈ visited
    · rw [trailFrom, if_neg hbad, if_pos hloop]
      exact hempty _ _ _ _ (by decide) (by decide)
    rw [Bool.not_eq_false] at hbad
    rw [trailFrom_enter hbad hloop]
    have halone : Fresh device fs (slots + 1) visited [cluster] :=
      fresh_cons.mpr ⟨hbad, hloop, by simp, fresh_nil _ _⟩
    cases hvalue : fatEntryValue device fs cluster with
    | none => exact ⟨halone, by simp, by simp, by simp⟩
    | some next =>
      dsimp only
      by_cases hend : fatEntryIsEnd fs.fatType next = true
      · rw [if_pos hend]
        exact ⟨halone, by simp, fun _ => ⟨cluster, rfl, next, hvalue, hend⟩, by simp⟩
      rw [if_neg hend]
      by_cases hlink : BadLink fs next
      · rw [if_pos hlink]
        exact ⟨halone, by simp, by simp, by simp⟩
      rw [if_neg hlink]
      obtain ⟨hfresh, hfirst, hexhausted, hreached⟩ := ih (visited ++ [cluster]) next
      refine ⟨fresh_cons.mpr ⟨hbad, hloop, fun first hmem => ?_, hfresh⟩, by simp,
        fun h => lastLinkEnds_cons (hexhausted h), hreached⟩
      rw [hfirst first hmem]
      simp only [BadLink, not_or, Bool.not_eq_true] at hlink hend
      exact ⟨hvalue, hend, hlink.2.1, hlink.2.2.1⟩

/-- No valid cluster has the number zero, so that a link to a valid cluster is bad or reserved if it
is refused. -/
theorem not_badLink {cluster next : UInt32} (hlink : LinksTo device fs cluster next)
    (hvalid : fatClusterIsValid fs next = true) : ¬BadLink fs next := by
  obtain ⟨_, _, hbad, hreserved⟩ := hlink
  rw [BadLink, hbad, hreserved, hvalid]
  rintro (rfl | h | h | h)
  · simp [fatClusterIsValid] at hvalid
  all_goals cases h

theorem trailFrom_longest {visited rest : List UInt32}
    (hfresh : Fresh device fs slots visited (cluster :: rest)) :
    (∃ more, (trailFrom device fs slots visited cluster).1 = cluster :: rest ++ more) ∧
      (LastLinkEnds device fs (cluster :: rest) →
        trailFrom device fs slots visited cluster = (cluster :: rest, .exhausted)) := by
  induction slots generalizing visited rest cluster with
  | zero => exact absurd hfresh.short (by simp)
  | succ slots ih =>
    obtain ⟨hvalid, hunvisited, hlink, hrest⟩ := fresh_cons.mp hfresh
    rw [trailFrom_enter hvalid hunvisited]
    cases rest with
    | nil =>
      refine ⟨⟨_, rfl⟩, ?_⟩
      rintro ⟨last, hlast, next, hvalue, hend⟩
      obtain rfl : cluster = last := Option.some.inj hlast
      rw [hvalue]
      dsimp only
      rw [if_pos hend]
    | cons next rest =>
      have hnext := hlink next rfl
      obtain ⟨⟨more, hmore⟩, hwhole⟩ := ih hrest
      rw [hnext.1]
      dsimp only
      rw [if_neg (by simp [hnext.2.1]), if_neg (not_badLink hnext (hrest.valid _ (List.mem_cons_self ..)))]
      refine ⟨⟨more, by rw [hmore]; rfl⟩, ?_⟩
      rintro ⟨last, hlast, hend⟩
      rw [hwhole ⟨last, by rwa [List.getLast?_cons_cons] at hlast, hend⟩]

end trail

/-! ### What a walk reads -/

/-- What a walk read of a cluster: the first of its sectors, and the first of those with its table entry. -/
structure ClusterVisit where
  cluster : UInt32
  sectors : Nat
  entrySectors : Nat

def ClusterVisit.accesses (fs : FatFs) (visit : ClusterVisit) : List UInt32 :=
  sectorRun (fatClusterFirstLba fs visit.cluster) visit.sectors ++
    sectorRun (entryLba fs visit.cluster) visit.entrySectors

/-- Visits of different valid clusters, none of which reads more than the cluster and its table entry. -/
structure OnceEach (fs : FatFs) (slots : Nat) (visited : List UInt32)
    (visits : List ClusterVisit) : Prop where
  nodup : (visits.map ClusterVisit.cluster).Nodup
  short : visits.length ≤ slots
  within : ∀ visit ∈ visits, fatClusterIsValid fs visit.cluster = true ∧ visit.cluster ∉ visited ∧
    visit.sectors ≤ fs.sectorsPerCluster.toNat ∧ visit.entrySectors ≤ entrySectors fs visit.cluster

theorem onceEach_nil (fs : FatFs) (slots : Nat) (visited : List UInt32) : OnceEach fs slots visited [] :=
  ⟨List.nodup_nil, Nat.zero_le _, by simp⟩

theorem OnceEach.cons {slots : Nat} {visited : List UInt32} {visits : List ClusterVisit}
    {visit : ClusterVisit} (hvalid : fatClusterIsValid fs visit.cluster = true)
    (hunvisited : visit.cluster ∉ visited) (hsectors : visit.sectors ≤ fs.sectorsPerCluster.toNat)
    (hentry : visit.entrySectors ≤ entrySectors fs visit.cluster)
    (hrest : OnceEach fs slots (visited ++ [visit.cluster]) visits) :
    OnceEach fs (slots + 1) visited (visit :: visits) := by
  refine ⟨?_, Nat.succ_le_succ hrest.short,
    List.forall_mem_cons.mpr ⟨⟨hvalid, hunvisited, hsectors, hentry⟩, ?_⟩⟩
  · rw [List.map_cons, List.nodup_cons]
    refine ⟨fun hmem => ?_, hrest.nodup⟩
    obtain ⟨other, hother, heq⟩ := List.mem_map.mp hmem
    exact (hrest.within other hother).2.1 (heq ▸ List.mem_append_right _ (List.mem_singleton_self _))
  · intro other hother
    obtain ⟨hother_valid, hother_unvisited, hbounds⟩ := hrest.within other hother
    exact ⟨hother_valid, fun h => hother_unvisited (List.mem_append_left _ h), hbounds⟩

section accesses
variable {d : Disks} {fs : FatFs} {device : BlockDevice} (hdevice : OnDevice d fs device)
  (hreads : ∀ n lba, device.fails n lba = false) {σ : Type} (callback : DirentCallback σ)
include hdevice hreads

theorem fatWalkSectors_accesses (message : String) (count : Nat) (lba : UInt32)
    (lfnState : LfnState) (user : σ) (io : Io) :
    ∃ k ≤ count, (fatWalkSectors d fs callback (fun _ => false) message count lba lfnState user
      io).2.2.2.accesses = io.accesses ++ sectorRun lba k := by
  induction count generalizing lba lfnState user io with
  | zero => exact ⟨0, Nat.le_refl _, (List.append_nil _).symm⟩
  | succ count ih =>
    cases hvisit : fatVisitSectorEntries fs (device.filled lba 1 freshBuffer) lfnState callback user with
    | mk lfnState' rest =>
      rw [fatWalkSectors_read (sector_reliable hdevice hreads lba io) hvisit, if_neg Bool.false_ne_true]
      split
      · exact ⟨1, Nat.succ_le_succ (Nat.zero_le _), rfl⟩
      · obtain ⟨k, hk, heq⟩ := ih (lba + 1) lfnState' rest.1 (io.accessed (sectorRun lba 1))
        refine ⟨k + 1, Nat.succ_le_succ hk, ?_⟩
        have hone : (io.accessed (sectorRun lba 1)).accesses = io.accesses ++ [lba] := by
          rw [sectorRun_cons]
          rfl
        rw [heq, hone, sectorRun_cons lba k, List.append_assoc, List.singleton_append]

theorem fatWalkChain_accesses (messages : ChainMessages) (slots : Nat) (visited : List UInt32)
    (cluster : UInt32) (lfnState : LfnState) (user : σ) (io : Io) :
    ∃ visits, OnceEach fs slots visited visits ∧
      (fatWalkChain d fs callback (fun _ => false) messages slots visited cluster lfnState user
        io).2.2.accesses = io.accesses ++ visits.flatMap (ClusterVisit.accesses fs) := by
  have hnone : ∀ (io : Io) slots visited, ∃ visits, OnceEach fs slots visited visits ∧
      io.accesses = io.accesses ++ visits.flatMap (ClusterVisit.accesses fs) :=
    fun _ _ _ => ⟨[], onceEach_nil .., (List.append_nil _).symm⟩
  induction slots, visited, cluster using chain_induction fs generalizing lfnState user io with
  | invalid slots visited cluster hbad =>
    rw [fatWalkChain_invalid hbad]
    exact hnone ..
  | looped slots visited cluster hvalid hloop =>
    rw [fatWalkChain_looped hvalid hloop]
    exact hnone ..
  | full visited cluster hvalid hloop =>
    rw [fatWalkChain_full hvalid hloop]
    exact hnone ..
  | enter slots visited cluster hvalid hloop ih =>
    rcases hsectors : fatWalkCluster d fs callback (fun _ => false) messages cluster lfnState user
      io with ⟨walkEnd, lfnState', user', io'⟩
    obtain ⟨k, hk, hio⟩ := fatWalkSectors_accesses hdevice hreads callback messages.readFail
      fs.sectorsPerCluster.toNat (fatClusterFirstLba fs cluster) lfnState user io
    rw [← fatWalkCluster, hsectors] at hio
    -- The visit of this cluster, with as much of its table entry as was read, and nothing behind it.
    have hlast : ∀ j ≤ entrySectors fs cluster, ∃ visits, OnceEach fs (slots + 1) visited visits ∧
        io'.accesses ++ sectorRun (entryLba fs cluster) j =
          io.accesses ++ visits.flatMap (ClusterVisit.accesses fs) := by
      intro j hj
      refine ⟨[⟨cluster, k, j⟩], OnceEach.cons hvalid hloop hk hj (onceEach_nil ..), ?_⟩
      rw [hio, List.flatMap_singleton, ClusterVisit.accesses, List.append_assoc]
    cases walkEnd with
    | some walkEnd =>
      rw [fatWalkChain_ended hvalid hloop hsectors]
      simpa [sectorRun] using hlast 0 (Nat.zero_le _)
    | none =>
      have hentry := entry_reliable hdevice hreads cluster io'
      cases hvalue : fatEntryValue device fs cluster with
      | none =>
        rw [hvalue] at hentry
        rw [fatWalkChain_unlinked hvalid hloop hsectors hentry]
        exact hlast _ (Nat.le_refl _)
      | some next =>
        rw [hvalue] at hentry
        rw [fatWalkChain_linked hvalid hloop hsectors hentry]
        split
        · exact hlast _ (Nat.le_refl _)
        split
        · exact hlast _ (Nat.le_refl _)
        · obtain ⟨visits, honce, heq⟩ := ih next lfnState' user'
            (io'.accessed (sectorRun (entryLba fs cluster) (entrySectors fs cluster)))
          refine ⟨⟨cluster, k, entrySectors fs cluster⟩ :: visits,
            OnceEach.cons hvalid hloop hk (Nat.le_refl _) honce, ?_⟩
          rw [heq, List.flatMap_cons, ClusterVisit.accesses]
          change io'.accesses ++ _ ++ _ = _
          rw [hio]
          simp only [List.append_assoc]

end accesses

/-! ### The whole walk -/

theorem Fresh.take {device : BlockDevice} {slots : Nat} {visited trail : List UInt32}
    (h : Fresh device fs slots visited trail) (n : Nat) : Fresh device fs slots visited (trail.take n) :=
  ⟨fun c hc => h.valid c (List.mem_of_mem_take hc), h.nodup.sublist (List.take_sublist ..),
    fun c hc => h.unvisited c (List.mem_of_mem_take hc), (List.length_take_le' ..).trans h.short,
    h.linked.take n⟩

theorem Followed.covers {device : BlockDevice} {start : UInt32} {trail : List UInt32}
    (hfollowed : Followed device fs start trail) (hends : ReachesEnd device fs trail) :
    let walk := trailFrom device fs 256 [] start
    ((∃ raw ∈ walk.1.flatMap (clusterEntries device fs), raw 0 = 0x00) ∨ walk.2 = .exhausted) ∧
      trailEntries device fs walk.1 = trailEntries device fs trail := by
  intro walk
  obtain ⟨hhead, hfresh⟩ := followed_iff.mp hfollowed
  obtain ⟨rest, rfl⟩ := List.head?_eq_some_iff.mp hhead
  obtain ⟨⟨more, hmore⟩, hwhole⟩ := trailFrom_longest hfresh
  obtain ⟨last, hlast, ⟨raw, hraw, hzero⟩ | hend⟩ := hends
  · have hentry : raw ∈ (start :: rest).flatMap (clusterEntries device fs) :=
      List.mem_flatMap.mpr ⟨last, List.mem_of_getLast? hlast, hraw⟩
    have hwalk : walk.1.flatMap (clusterEntries device fs) =
        (start :: rest).flatMap (clusterEntries device fs) ++ more.flatMap (clusterEntries device fs) := by
      rw [← List.flatMap_append, ← hmore]
    rw [trailEntries, hwalk]
    exact ⟨Or.inl ⟨raw, List.mem_append_left _ hentry, hzero⟩, entriesBefore_append hentry hzero⟩
  · have hwalk : walk = (start :: rest, .exhausted) := hwhole ⟨last, hlast, hend⟩
    rw [hwalk]
    exact ⟨Or.inr rfl, rfl⟩

section whole
variable {d : Disks} {fs : FatFs} {device : BlockDevice} (hdevice : OnDevice d fs device)
  (hreads : ∀ n lba, device.fails n lba = false) {σ : Type} {callback : DirentCallback σ}
  (halways : ∀ e user, (callback.call fs e user).1 = true)
include hdevice hreads halways

theorem fatListClusterChain_trail (messages : ChainMessages) (start : UInt32) (user : σ) (io : Io) :
    let trail := trailFrom device fs 256 [] start
    let result := fatListClusterChain d fs start callback messages user io
    (result.1 = true ↔ (∃ raw ∈ trail.1.flatMap (clusterEntries device fs), raw 0 = 0x00) ∨
      trail.2 = .exhausted) ∧
      result.2.1 = told fs callback user (reportsAfter fs [] (trailEntries device fs trail.1)) := by
  intro trail result
  obtain ⟨io', hwalk⟩ := fatWalkChain_visit d fs callback messages 256 [] start fatLfnReset user io
  rw [chainSectors_reliable hdevice hreads] at hwalk
  obtain ⟨huser, hend⟩ := visitUntilEnd_always halways (trail.1.flatMap (clusterSectors device fs)) [] user
  rw [List.flatMap_assoc] at huser hend
  have hresult : result = _ := congrArg (fun walk : WalkEnd × σ × Io =>
    (walk.1.listed, walk.2.1, walk.2.2)) hwalk
  have hreached : trail.2 ≠ .reachedEnd := (trailFrom_fresh 256 [] start).2.2.2
  rw [hresult]
  refine ⟨?_, huser⟩
  change (if (visitUntilEnd fs callback (trail.1.flatMap (clusterSectors device fs))
      (lfnStateAfter []) user).2.2 then
    WalkEnd.reachedEnd else trail.2).listed = true ↔ _
  by_cases hmarker : ∃ raw ∈ trail.1.flatMap (clusterEntries device fs), raw 0 = 0x00
  · rw [if_pos (hend.mpr hmarker)]
    exact iff_of_true rfl (Or.inl hmarker)
  · rw [if_neg (mt hend.mp hmarker), or_iff_right hmarker]
    generalize trail.2 = walkEnd at hreached
    cases walkEnd <;> simp_all [WalkEnd.listed]

/-- **Chain walk.** On a device whose reads succeed, for a callback that always returns one,
`fat_list_cluster_chain` reads each of at most 256 different valid clusters once. It succeeds if and
only if the chain comes within them to an end marker, in a directory or in the table; the callback
is then told of the entries on the way, in their order. -/
theorem chain_listing_exact (messages : ChainMessages) (start : UInt32) (user : σ) (io : Io) :
    let result := fatListClusterChain d fs start callback messages user io
    (∃ visits, OnceEach fs 256 [] visits ∧
        result.2.2.accesses = io.accesses ++ visits.flatMap (ClusterVisit.accesses fs)) ∧
      (result.1 = true ↔ ∃ trail, Followed device fs start trail ∧ ReachesEnd device fs trail) ∧
      ∀ trail, Followed device fs start trail → ReachesEnd device fs trail →
        let reports := reportsAfter fs [] (trailEntries device fs trail)
        result.2.1 = told fs callback user reports ∧
          reports.map Report.raw =
            (trailEntries device fs trail).filter fun raw =>
            decide (raw 0 = 0xE5 ∨ raw 11 ≠ fatAttrLfn) := by
  intro result
  obtain ⟨hlisted, htold⟩ := fatListClusterChain_trail hdevice hreads halways messages start user io
  obtain ⟨hfresh, hfirst, hexhausted, _⟩ := @trailFrom_fresh device fs 256 [] start
  refine ⟨fatWalkChain_accesses hdevice hreads callback messages 256 [] start fatLfnReset user io,
    hlisted.trans ⟨?_, ?_⟩, ?_⟩
  · rintro (⟨raw, hraw, hzero⟩ | hend)
    · -- The way to the cluster with the end marker is the first part of the trail.
      obtain ⟨cluster, hcluster, hentry⟩ := List.mem_flatMap.mp hraw
      obtain ⟨before, after, hsplit⟩ := List.append_of_mem hcluster
      have htake : (trailFrom device fs 256 [] start).1.take (before.length + 1) = before ++ [cluster] := by
        rw [hsplit, List.take_append, List.take_of_length_le (by omega)]
        simp
      refine ⟨before ++ [cluster], followed_iff.mpr ⟨?_, htake ▸ hfresh.take _⟩, cluster,
        List.getLast?_concat, Or.inl ⟨raw, hentry, hzero⟩⟩
      cases before with
      | nil => exact congrArg some (hfirst cluster (by rw [hsplit]; rfl))
      | cons first before => exact congrArg some (hfirst first (by rw [hsplit]; rfl))
    · obtain ⟨last, hlast, hend⟩ := hexhausted hend
      refine ⟨_, followed_iff.mpr ⟨?_, hfresh⟩, last, hlast, Or.inr hend⟩
      cases htrail : (trailFrom device fs 256 [] start).1 with
      | nil => rw [htrail] at hlast; cases hlast
      | cons first rest => exact congrArg some (hfirst first (by rw [htrail]; rfl))
  · rintro ⟨trail, hfollowed, hends⟩
    exact (hfollowed.covers hends).1
  · intro trail hfollowed hends
    rw [← (hfollowed.covers hends).2]
    refine ⟨htold, ?_⟩
    rw [reportsAfter_raw]
    refine List.filter_congr fun raw hraw => ?_
    rw [trailEntries] at hraw
    exact decide_eq_decide.mpr (and_iff_right (by simpa using List.mem_takeWhile_imp hraw))

end whole

/-- A directory of two clusters: sixteen entries in the first, one more and an end marker in the second. -/
def longDirectorySectors : List (UInt32 × List (Nat × UInt8)) :=
  [(1, [(3, 0x03), (4, 0xF0), (5, 0xFF)]),
    (33, (List.range 16).flatMap fun i => [(i * 32, 0x41), (i * 32 + 11, 0x20)]),
    (34, [(0, 0x42), (11, 0x20)])]

theorem long_directory_listing :
    let result := fatListClusterChain (sparseDisks longDirectorySectors fun _ _ => false) floppyVolume 2
      (some fun _ _ (seen : Nat) => (true, seen + 1)) ⟨"", "", "", "", "", ""⟩ 0 .start
    result.1 = true ∧ result.2.1 = 17 := by
  have hdevice : OnDevice (sparseDisks longDirectorySectors fun _ _ => false) floppyVolume
      (sparseDevice longDirectorySectors fun _ _ => false) := ⟨rfl, rfl, Or.inl rfl, rfl, by decide⟩
  obtain ⟨_, hlisted, hreports⟩ := @chain_listing_exact _ _ _ hdevice (fun _ _ => rfl) Nat
    (some fun _ _ seen => (true, seen + 1)) (fun _ _ => rfl) ⟨"", "", "", "", "", ""⟩ 2 0 .start
  have hfollowed : Followed (sparseDevice longDirectorySectors fun _ _ => false) floppyVolume 2 [2, 3] :=
    ⟨rfl, List.all_iff_forall_prop.mp (by decide), by decide, by decide,
      List.isChain_cons_cons.mpr ⟨⟨by decide +kernel, by decide, by decide, by decide⟩,
        List.isChain_singleton _⟩⟩
  have hends : ReachesEnd (sparseDevice longDirectorySectors fun _ _ => false) floppyVolume [2, 3] :=
    ⟨3, rfl, Or.inr ⟨0xFFF, by decide +kernel, by decide⟩⟩
  refine ⟨hlisted.mpr ⟨_, hfollowed, hends⟩, (hreports _ hfollowed hends).1.trans ?_⟩
  decide +kernel

end TermobKernel.Fat

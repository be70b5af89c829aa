import TermobKernel.Fat.Sectors
import TermobKernel.Fat.Geometry

/-!
# Stopping a listing

A callback returns zero to stop a listing. `fat_visit_sector_entries` leaves its sector then, but it
tells its caller the same as after a whole sector, so that the listing goes on with the next sector.
Even an end marker later in the first sector is not seen any more.
-/

namespace TermobKernel.Fat

/-! ### Answers of a callback -/

def logged {σ : Type} (callback : DirentCallback σ) : DirentCallback (σ × List Bool) :=
  some fun fs e state => ((callback.call fs e state.1).1,
    ((callback.call fs e state.1).2, state.2 ++ [(callback.call fs e state.1).1]))

def StopsWhenTold (answers : List Bool) : Prop := ∀ k, answers[k]? = some false → answers.length = k + 1

def asked {σ : Type} (fs : FatFs) (callback : DirentCallback σ) : List Dirent → σ → List Bool × σ
  | [], user => ([], user)
  | e :: es, user =>
    if (callback.call fs e user).1 then
      (true :: (asked fs callback es (callback.call fs e user).2).1,
        (asked fs callback es (callback.call fs e user).2).2)
    else ([false], (callback.call fs e user).2)

theorem stopsWhenTold_of_not_mem {answers : List Bool} (h : false ∉ answers) : StopsWhenTold answers :=
  fun _ hk => absurd (List.mem_of_getElem? hk) h

theorem stopsWhenTold_append {answers more : List Bool} (h : false ∉ answers) :
    StopsWhenTold (answers ++ false :: more) ↔ more = [] := by
  constructor
  · intro hstops
    have hlength := hstops answers.length (by simp)
    rw [List.length_append, List.length_cons] at hlength
    exact List.length_eq_zero_iff.mp (by omega)
  · rintro rfl k hk
    rcases Nat.lt_or_ge k answers.length with hlt | hge
    · rw [List.getElem?_append_left hlt] at hk
      exact absurd (List.mem_of_getElem? hk) h
    · have hbound := (List.getElem?_eq_some_iff.mp hk).1
      rw [List.length_append, List.length_singleton] at hbound ⊢
      omega

section answers
variable {σ : Type} {fs : FatFs} {callback : DirentCallback σ}

theorem asked_append (es es' : List Dirent) (user : σ) :
    asked fs callback (es ++ es') user =
      if false ∈ (asked fs callback es user).1 then asked fs callback es user
      else ((asked fs callback es user).1 ++ (asked fs callback es' (asked fs callback es user).2).1,
        (asked fs callback es' (asked fs callback es user).2).2) := by
  induction es generalizing user with
  | nil => rfl
  | cons e es ih =>
    rw [List.cons_append, asked, asked]
    cases (callback.call fs e user).1 with
    | false => simp
    | true =>
      simp only [if_true, ih]
      by_cases hmem : false ∈ (asked fs callback es (callback.call fs e user).2).1
      · simp [hmem]
      · simp [hmem]

theorem asked_eq_nil {es : List Dirent} {user : σ} : (asked fs callback es user).1 = [] ↔ es = [] := by
  cases es with
  | nil => simp [asked]
  | cons e es =>
    rw [asked]
    split <;> simp

theorem asked_stopped (es : List Dirent) (user : σ) (h : false ∈ (asked fs callback es user).1) :
    ∃ answers, (asked fs callback es user).1 = answers ++ [false] ∧ false ∉ answers := by
  induction es generalizing user with
  | nil => exact absurd h List.not_mem_nil
  | cons e es ih =>
    rw [asked] at h ⊢
    cases hanswer : (callback.call fs e user).1 with
    | false => exact ⟨[], rfl, List.not_mem_nil⟩
    | true =>
      rw [hanswer, if_pos rfl] at h
      obtain ⟨answers, heq, hnot⟩ := ih _ (by simpa using h)
      refine ⟨true :: answers, ?_, by simpa using hnot⟩
      rw [if_pos rfl, heq]
      rfl

theorem visit_logged (sector : Buffer) (count base : Nat) (lfnState : LfnState) (user : σ)
    (log : List Bool) :
    fatVisitEntries fs sector (logged callback) count base lfnState (user, log) =
      let all := fatVisitEntries fs sector collect count base lfnState []
      let answers := asked fs callback all.2.1 user
      if false ∈ answers.1 then (fatLfnReset, (answers.2, log ++ answers.1), false)
      else (all.1, (answers.2, log ++ answers.1), all.2.2) := by
  induction count generalizing base lfnState user log with
  | zero => simp [fatVisitEntries, asked]
  | succ count ih =>
    -- an entry is passed on: the callback stops, or the rest of the sector is visited
    have hpass : ∀ e : Dirent,
        (if ((logged callback).call fs e (user, log)).1 then
          fatVisitEntries fs sector (logged callback) count (base + fatDirEntrySize) fatLfnReset
            ((logged callback).call fs e (user, log)).2
        else (fatLfnReset, ((logged callback).call fs e (user, log)).2, false)) =
          let all := fatVisitEntries fs sector collect count (base + fatDirEntrySize) fatLfnReset [e]
          let answers := asked fs callback all.2.1 user
          if false ∈ answers.1 then (fatLfnReset, (answers.2, log ++ answers.1), false)
          else (all.1, (answers.2, log ++ answers.1), all.2.2) := by
      intro e
      dsimp only
      rw [visit_collect, List.singleton_append, asked]
      have hcall : (logged callback).call fs e (user, log) = ((callback.call fs e user).1,
          ((callback.call fs e user).2, log ++ [(callback.call fs e user).1])) := rfl
      rw [hcall]
      cases (callback.call fs e user).1 with
      | false => simp
      | true =>
        simp only [if_true, ih, List.append_assoc, List.singleton_append, List.mem_cons,
          Bool.false_eq_true, false_or]
    simp only [fatVisitEntries, collect_call, if_true, List.nil_append]
    split
    · simp [asked]
    · split
      · exact hpass _
      · split
        · exact ih _ _ _ _
        · exact hpass _

/-- The answers in one sector. If one of them is zero, the long-name state is empty behind the
sector and an end marker is not seen. -/
theorem visitSector_logged (sector : Buffer) (before : List Buffer) (user : σ) (log : List Bool) :
    fatVisitSectorEntries fs sector (lfnStateAfter before) (logged callback) (user, log) =
      let answers :=
      asked fs callback ((reportsAfter fs before (sectorFed fs sector)).map Report.dirent) user
      if false ∈ answers.1 then (lfnStateAfter [], (answers.2, log ++ answers.1), false)
      else (lfnStateAfter (before ++ sectorFed fs sector), (answers.2, log ++ answers.1),
          decide (Marked fs sector)) := by
  have hall := visitSector_collect fs sector before
  rw [fatVisitSectorEntries] at hall ⊢
  rw [visit_logged, hall]
  rfl

/-! ### After the answer zero -/

/-- Behind the sector in which the callback stopped there is another one with an entry to list, with
nothing but slots of long names in between. -/
def GoesOn (fs : FatFs) (sectors : List Buffer) : Prop :=
  ∃ mid sector rest, sectors = mid ++ sector :: rest ∧ (∀ s ∈ mid, ¬HasListed fs s ∧ ¬Marked fs s) ∧
    HasListed fs sector

theorem goesOn_cons {sector : Buffer} {sectors : List Buffer} :
    GoesOn fs (sector :: sectors) ↔
      HasListed fs sector ∨ (¬HasListed fs sector ∧ ¬Marked fs sector ∧ GoesOn fs sectors) := by
  constructor
  · rintro ⟨mid, s, rest, heq, hmid, hlisted⟩
    cases mid with
    | nil =>
      obtain ⟨rfl, rfl⟩ := List.cons.inj heq
      exact Or.inl hlisted
    | cons m mid =>
      obtain ⟨rfl, rfl⟩ := List.cons.inj heq
      obtain ⟨hnot, hmarked⟩ := hmid sector (List.mem_cons_self ..)
      exact Or.inr ⟨hnot, hmarked, mid, s, rest,
        rfl, fun x hx => hmid x (List.mem_cons_of_mem _ hx), hlisted⟩
  · rintro (hlisted | ⟨hnot, hmarked, mid, s, rest, rfl, hmid, hlisted⟩)
    · exact ⟨[], sector, sectors, rfl, fun _ h => absurd h List.not_mem_nil, hlisted⟩
    · refine ⟨sector :: mid, s, rest, rfl, fun x hx => ?_, hlisted⟩
      rcases List.mem_cons.mp hx with rfl | hx
      · exact ⟨hnot, hmarked⟩
      · exact hmid x hx

theorem visit_adds (sectors before : List Buffer) (user : σ) (log : List Bool) :
    ∃ more, (visitUntilEnd fs (logged callback) sectors (lfnStateAfter before) (user, log)).2.1.2 =
      log ++ more ∧ (more ≠ [] ↔ GoesOn fs sectors) := by
  induction sectors generalizing before user log with
  | nil =>
    refine ⟨[], by simp [visitUntilEnd], iff_of_false (fun h => h rfl) ?_⟩
    rintro ⟨mid, s, rest, heq, _⟩
    simp at heq
  | cons sector sectors ih =>
    rw [visitUntilEnd, visitSector_logged, goesOn_cons]
    dsimp only
    generalize hanswers : asked fs callback
      ((reportsAfter fs before (sectorFed fs sector)).map Report.dirent) user = answers
    have hnil : answers.1 = [] ↔ ¬HasListed fs sector := by
      rw [← hanswers, asked_eq_nil, reportsAfter_eq_nil, HasListed]
      simp
    by_cases hlisted : HasListed fs sector
    · -- at least one answer comes from this sector
      have hsome : answers.1 ≠ [] := fun h => hnil.mp h hlisted
      have hmore : ∀ more, (answers.1 ++ more ≠ [] ↔ HasListed fs sector ∨
          (¬HasListed fs sector ∧ ¬Marked fs sector ∧ GoesOn fs sectors)) := fun more =>
        iff_of_true (fun h => hsome (List.append_eq_nil_iff.mp h).1) (Or.inl hlisted)
      by_cases hstop : false ∈ answers.1
      · rw [if_pos hstop, if_neg Bool.false_ne_true]
        obtain ⟨more, hlog, _⟩ := ih [] answers.2 (log ++ answers.1)
        exact ⟨answers.1 ++ more, by rw [hlog, List.append_assoc], hmore more⟩
      · rw [if_neg hstop]
        by_cases hmarked : Marked fs sector
        · rw [if_pos (by simpa using hmarked)]
          exact ⟨answers.1, rfl, by simpa using hmore []⟩
        · rw [if_neg (by simpa using hmarked)]
          obtain ⟨more, hlog, _⟩ := ih (before ++ sectorFed fs sector) answers.2 (log ++ answers.1)
          exact ⟨answers.1 ++ more, by rw [hlog, List.append_assoc], hmore more⟩
    · have hempty := hnil.mpr hlisted
      have hgo : false ∉ answers.1 := by simp [hempty]
      rw [if_neg hgo, hempty, List.append_nil]
      by_cases hmarked : Marked fs sector
      · rw [if_pos (by simpa using hmarked)]
        refine ⟨[], (List.append_nil log).symm, iff_of_false (fun h => h rfl) ?_⟩
        rintro (h | ⟨_, h, _⟩)
        · exact hlisted h
        · exact h hmarked
      · rw [if_neg (by simpa using hmarked)]
        obtain ⟨more, hlog, hiff⟩ := ih (before ++ sectorFed fs sector) answers.2 log
        refine ⟨more, hlog, hiff.trans ⟨fun h => Or.inr ⟨hlisted, hmarked, h⟩, ?_⟩⟩
        rintro (h | ⟨_, _, h⟩)
        · exact absurd h hlisted
        · exact h

/-! ### The whole listing -/

/-- The callback stops in a sector of the directory, having gone on before it, and the listing goes
on behind it. -/
def StopIgnored (fs : FatFs) (callback : DirentCallback σ) (before : List Buffer) (user : σ)
    (sectors : List Buffer) : Prop :=
  ∃ pre sector rest, sectors = pre ++ sector :: rest ∧ (∀ s ∈ pre, ¬Marked fs s) ∧
    false ∉ (asked fs callback ((reportsAfter fs before (fed fs pre)).map Report.dirent) user).1 ∧
    false ∈ (asked fs callback
      ((reportsAfter fs before (fed fs (pre ++ [sector]))).map Report.dirent) user).1 ∧
    GoesOn fs rest

theorem reports_cons (before : List Buffer) (sector : Buffer) (sectors : List Buffer) :
    (reportsAfter fs before (fed fs (sector :: sectors))).map Report.dirent =
      (reportsAfter fs before (sectorFed fs sector)).map Report.dirent ++
        (reportsAfter fs (before ++ sectorFed fs sector) (fed fs sectors)).map Report.dirent := by
  rw [fed_cons, reportsAfter_append, List.map_append]

theorem fed_singleton (sector : Buffer) : fed fs [sector] = sectorFed fs sector := by
  rw [fed_cons]
  exact List.append_nil _

section
variable {before : List Buffer} {user : σ} {sector : Buffer} {sectors : List Buffer}

theorem stopIgnored_here
    (h : false ∈ (asked fs callback
      ((reportsAfter fs before (sectorFed fs sector)).map Report.dirent) user).1) :
    StopIgnored fs callback before user (sector :: sectors) ↔ GoesOn fs sectors := by
  constructor
  · rintro ⟨pre, s, rest, heq, _, hnot, _, hgoes⟩
    cases pre with
    | nil =>
      obtain ⟨_, rfl⟩ := List.cons.inj heq
      exact hgoes
    | cons p pre =>
      obtain ⟨rfl, _⟩ := List.cons.inj heq
      rw [reports_cons, asked_append, if_pos h] at hnot
      exact absurd h hnot
  · intro hgoes
    refine ⟨[], sector, sectors, rfl, fun _ hs => absurd hs List.not_mem_nil, List.not_mem_nil, ?_, hgoes⟩
    rwa [List.nil_append, fed_singleton]

theorem stopIgnored_later
    (h : false ∉ (asked fs callback
      ((reportsAfter fs before (sectorFed fs sector)).map Report.dirent) user).1) :
    StopIgnored fs callback before user (sector :: sectors) ↔
      ¬Marked fs sector ∧ StopIgnored fs callback (before ++ sectorFed fs sector)
        (asked fs callback ((reportsAfter fs before (sectorFed fs sector)).map Report.dirent)
            user).2 sectors := by
  have hrest : ∀ xs : List Buffer,
      (false ∈ (asked fs callback
        ((reportsAfter fs before (fed fs (sector :: xs))).map Report.dirent) user).1 ↔
        false ∈ (asked fs callback
          ((reportsAfter fs (before ++ sectorFed fs sector) (fed fs xs)).map Report.dirent)
          (asked fs callback ((reportsAfter fs before (sectorFed fs sector)).map Report.dirent)
            user).2).1) := by
    intro xs
    rw [reports_cons, asked_append, if_neg h, List.mem_append]
    exact or_iff_right h
  constructor
  · rintro ⟨pre, s, rest, heq, hmarked, hnot, hstop, hgoes⟩
    cases pre with
    | nil =>
      obtain ⟨rfl, _⟩ := List.cons.inj heq
      rw [List.nil_append, fed_singleton] at hstop
      exact absurd hstop h
    | cons p pre =>
      obtain ⟨rfl, rfl⟩ := List.cons.inj heq
      refine ⟨hmarked sector (List.mem_cons_self ..), pre, s, rest, rfl,
        fun x hx => hmarked x (List.mem_cons_of_mem _ hx), ?_, ?_, hgoes⟩
      · exact fun hmem => hnot ((hrest pre).mpr hmem)
      · exact (hrest (pre ++ [s])).mp hstop
  · rintro ⟨hmarked, pre, s, rest, rfl, hpre, hnot, hstop, hgoes⟩
    refine ⟨sector :: pre, s, rest, rfl, fun x hx => ?_, ?_, ?_, hgoes⟩
    · rcases List.mem_cons.mp hx with rfl | hx
      · exact hmarked
      · exact hpre x hx
    · exact fun hmem => hnot ((hrest pre).mp hmem)
    · exact (hrest (pre ++ [s])).mpr hstop

end

theorem visit_stops_iff (sectors before : List Buffer) (user : σ) {log : List Bool} (hlog : false ∉ log) :
    StopsWhenTold (visitUntilEnd fs (logged callback) sectors (lfnStateAfter before) (user, log)).2.1.2 ↔
      ¬StopIgnored fs callback before user sectors := by
  induction sectors generalizing before user log with
  | nil =>
    refine iff_of_true (stopsWhenTold_of_not_mem hlog) ?_
    rintro ⟨pre, s, rest, heq, _⟩
    simp at heq
  | cons sector sectors ih =>
    rw [visitUntilEnd, visitSector_logged]
    dsimp only
    by_cases hstop : false ∈
        (asked fs callback ((reportsAfter fs before (sectorFed fs sector)).map Report.dirent) user).1
    · obtain ⟨answers, heq, hnot⟩ := asked_stopped _ _ hstop
      rw [if_pos hstop, if_neg Bool.false_ne_true, stopIgnored_here hstop]
      obtain ⟨more, hmore, hiff⟩ := @visit_adds σ fs callback sectors []
        (asked fs callback ((reportsAfter fs before (sectorFed fs sector)).map Report.dirent) user).2
        (log ++ (asked fs callback
          ((reportsAfter fs before (sectorFed fs sector)).map Report.dirent) user).1)
      rw [hmore, heq, ← hiff, not_not, List.append_assoc, List.append_assoc, List.singleton_append,
        ← List.append_assoc, stopsWhenTold_append]
      simp [hlog, hnot]
    · have hlog' : false ∉
          log ++ (asked fs callback
              ((reportsAfter fs before (sectorFed fs sector)).map Report.dirent) user).1 := by
        simp [hlog, hstop]
      rw [if_neg hstop, stopIgnored_later hstop]
      by_cases hmarked : Marked fs sector
      · rw [if_pos (by simpa using hmarked)]
        exact iff_of_true (stopsWhenTold_of_not_mem hlog') fun h => h.1 hmarked
      · rw [if_neg (by simpa using hmarked), ih _ _ hlog']
        simp [hmarked]

end answers

/-- **Stopping.** On any disk, for every listing and every callback, the callback is not called
again once it has returned zero, if and only if it does not return zero in a sector behind which
another sector has an entry to list, with nothing but slots of long names in between. -/
theorem listing_stops_iff {σ : Type} (d : Disks) (fs : FatFs) (listing : Listing)
    (callback : DirentCallback σ) (user : σ) (io : Io) :
    StopsWhenTold (listing.run d fs (logged callback) (user, []) io).2 ↔
      ¬StopIgnored fs callback [] user (listing.sectors d fs io) := by
  rw [Listing.run_eq]
  exact visit_stops_iff _ [] user List.not_mem_nil

/-- A root directory with an entry at the start of each of its first two sectors. -/
def twoEntrySectors : List (UInt32 × List (Nat × UInt8)) :=
  [(0, floppyBoot), (19, [(0, 0x41), (11, 0x20)]), (20, [(0, 0x42), (11, 0x20)])]

/-- The callback that always stops is called for the entry in the second sector as well. -/
theorem stop_ignored_across_sectors :
    fatMount (sparseDisks twoEntrySectors fun _ _ => false) 0 0 .start = (some floppyVolume, ⟨[0], []⟩) ∧
      (Listing.root.run (sparseDisks twoEntrySectors fun _ _ => false) floppyVolume
        (logged (some fun _ _ (seen : Nat) => (false, seen + 1))) (0, []) ⟨[0], []⟩) = (2, [false, false]) ∧
      ¬StopsWhenTold (Listing.root.run (sparseDisks twoEntrySectors fun _ _ => false) floppyVolume
        (logged (some fun _ _ (seen : Nat) => (false, seen + 1))) (0, []) ⟨[0], []⟩).2 := by
  have hrun : (Listing.root.run (sparseDisks twoEntrySectors fun _ _ => false) floppyVolume
      (logged (some fun _ _ (seen : Nat) => (false, seen + 1))) (0, []) ⟨[0], []⟩) =
        (2, [false, false]) := by
    decide +kernel
  refine ⟨by decide +kernel, hrun, fun hstops => ?_⟩
  rw [hrun] at hstops
  exact absurd (hstops 0 rfl) (by decide)

end TermobKernel.Fat

import TermobKernel.Fat.Listing

/-!
# Paths

What `fat_lookup_path` computes, as a fold over the components of the path. The loop of the source
parses a component, searches the current directory and looks ahead whether more follow; the fold
knows only the list of non-empty components.
-/

namespace TermobKernel.Fat

/-! ### The reference -/

def pathComponents (path : List UInt8) : List (List UInt8) := (path.splitOn 0x2F).filter (· ≠ [])

def ValidComponent (component : List UInt8) : Prop :=
  component.length ≤ 12 ∧ ∀ c ∈ component, 32 ≤ c ∧ c ≤ 126

instance (component : List UInt8) : Decidable (ValidComponent component) :=
  @instDecidableAnd _ _ _ (List.decidableBAll _ _)

def searchIn (d : Disks) (fs : FatFs) (current : LookupResult) (component : List UInt8) (io : Io) :
    FatStatus × Option Dirent × Io :=
  if current.isRoot then fatFindRootEntry d fs component io
  else fatFindDirectoryEntry d fs current.dirent.firstCluster component io

def resolveStep (d : Disks) (fs : FatFs) :
    FatStatus × LookupResult × Io → List UInt8 → FatStatus × LookupResult × Io
  | (.ok, current, io), component =>
    if current.isRoot = false ∧ current.dirent.kind ≠ .directory then
      (.notDirectory, current, io.note "TERMOB: fat path used file as directory")
    else if ¬ValidComponent component then (.invalidPath, current,
        io.note "TERMOB: fat path component invalid")
    else
      match searchIn d fs current component io with
      | (.ok, some entry, io) => (.ok, ⟨entry, false⟩, io)
      | (status, _, io) => (status, current, io)
  | failed, _ => failed

def resolve (d : Disks) (fs : FatFs) (components : List (List UInt8)) (current : LookupResult) (io : Io) :
    FatStatus × LookupResult × Io :=
  components.foldl (resolveStep d fs) (.ok, current, io)

/-! ### Components -/

theorem pathComponents_append_sep (path path' : List UInt8) :
    pathComponents (path ++ 0x2F :: path') = pathComponents path ++ pathComponents path' := by
  rw [pathComponents, List.splitOn, List.splitOnP_append_cons _ _ (by decide), List.filter_append]
  rfl

@[simp] theorem pathComponents_nil : pathComponents [] = [] := rfl

@[simp] theorem pathComponents_sep (path : List UInt8) :
    pathComponents (0x2F :: path) = pathComponents path :=
  pathComponents_append_sep [] path

theorem pathComponents_single {component : List UInt8} (hne : component ≠ []) (hsep : 0x2F ∉ component) :
    pathComponents component = [component] := by
  rw [pathComponents, List.splitOn_eq_singleton hsep]
  simp [hne]

theorem pathComponents_skip (path : List UInt8) :
    pathComponents (fatSkipPathSeparators path) = pathComponents path := by
  induction path with
  | nil => rfl
  | cons c path ih =>
    by_cases hc : c = 0x2F
    · rw [hc, pathComponents_sep, ← ih]
      rfl
    · simp [fatSkipPathSeparators, hc]

theorem pathComponents_takeWhile {path : List UInt8} (hne : path ≠ []) (hsep : path.head? ≠ some 0x2F) :
    pathComponents path =
      path.takeWhile (· ≠ 0x2F) :: pathComponents (fatSkipPathSeparators (path.dropWhile (· ≠ 0x2F))) := by
  have hfirst : path.takeWhile (· ≠ 0x2F) ≠ [] := by
    cases path with
    | nil => exact absurd rfl hne
    | cons c path =>
      have hc : c ≠ 0x2F := by simpa using hsep
      simp [hc]
  have hno : 0x2F ∉ path.takeWhile (· ≠ 0x2F) := by
    intro hmem
    have := List.all_eq_true.mp List.all_takeWhile _ hmem
    simp at this
  rw [pathComponents_skip]
  nth_rewrite 1 [← List.takeWhile_append_dropWhile (p := (· ≠ 0x2F)) (l := path)]
  cases hrest : path.dropWhile (· ≠ 0x2F) with
  | nil => rw [List.append_nil, pathComponents_single hfirst hno, pathComponents_nil]
  | cons c rest =>
    have hc : c = 0x2F := by
      have := List.head?_dropWhile_not (p := (· ≠ 0x2F)) path
      rw [hrest] at this
      simpa using this
    rw [hc, pathComponents_append_sep, pathComponents_single hfirst hno, pathComponents_sep]
    rfl

theorem skip_head (path : List UInt8) : (fatSkipPathSeparators path).head? ≠ some 0x2F := by
  intro h
  have := List.head?_dropWhile_not (p := (· = 0x2F)) path
  rw [fatSkipPathSeparators] at h
  simp [h] at this

theorem skip_eq_nil_iff (path : List UInt8) :
    fatSkipPathSeparators path = [] ↔ pathComponents path = [] := by
  rw [← pathComponents_skip]
  constructor
  · intro h
    rw [h, pathComponents_nil]
  · intro h
    by_contra hne
    rw [pathComponents_takeWhile hne (skip_head path)] at h
    cases h

/-! ### The parser -/

theorem fatParseChars_eq (component path : List UInt8) :
    fatParseChars 13 component path =
      if component.length + (path.takeWhile (· ≠ 0x2F)).length ≤ 12 ∧
          (path.takeWhile (· ≠ 0x2F)).all fatIsValidPathChar = true ∨ path.takeWhile (· ≠ 0x2F) = [] then
        some (component ++ path.takeWhile (· ≠ 0x2F), path.dropWhile (· ≠ 0x2F))
      else none := by
  induction path generalizing component with
  | nil => simp [fatParseChars]
  | cons c path ih =>
    rw [fatParseChars]
    by_cases hc : c = 0x2F
    · simp [hc]
    · rw [if_neg hc]
      by_cases hbad : fatIsValidPathChar c = false ∨ component.length + 1 ≥ 13
      · rw [if_pos hbad, if_neg]
        simp only [ne_eq, hc, not_false_eq_true, decide_true, List.takeWhile_cons_of_pos, List.length_cons,
          List.all_cons, Bool.and_eq_true, reduceCtorEq, or_false]
        rcases hbad with hbad | hbad
        · simp [hbad]
        · intro ⟨h, _⟩
          omega
      · rw [if_neg hbad, ih]
        simp only [not_or, Bool.not_eq_false] at hbad
        simp only [ne_eq, hc, not_false_eq_true, decide_true, List.takeWhile_cons_of_pos, List.length_cons,
          List.all_cons, Bool.and_eq_true, List.length_append, List.length_nil, hbad.1, true_and,
          reduceCtorEq, or_false,
          List.dropWhile_cons_of_pos, List.append_assoc, List.singleton_append]
        congr 1
        rw [eq_iff_iff]
        constructor
        · rintro (⟨h1, h2⟩ | h)
          · exact ⟨by omega, h2⟩
          · rw [h]
            exact ⟨by simp; omega, rfl⟩
        · rintro ⟨h1, h2⟩
          exact Or.inl ⟨by omega, h2⟩

theorem fatParsePathComponent_eq {path : List UInt8} (hne : path ≠ []) (hsep : path.head? ≠ some 0x2F) :
    fatParsePathComponent 13 path =
      if ValidComponent (path.takeWhile (· ≠ 0x2F)) then
        some (path.takeWhile (· ≠ 0x2F), decide (fatSkipPathSeparators (path.dropWhile (· ≠ 0x2F)) ≠ []),
          fatSkipPathSeparators (path.dropWhile (· ≠ 0x2F)))
      else none := by
  obtain ⟨c, rest, rfl⟩ := List.exists_cons_of_ne_nil hne
  have hc : c ≠ 0x2F := by simpa using hsep
  have hskip : fatSkipPathSeparators (c :: rest) = c :: rest := by simp [fatSkipPathSeparators, hc]
  have hvalid : ValidComponent ((c :: rest).takeWhile (· ≠ 0x2F)) ↔
      (([] : List UInt8).length + ((c :: rest).takeWhile (· ≠ 0x2F)).length ≤ 12 ∧
        ((c :: rest).takeWhile (· ≠ 0x2F)).all fatIsValidPathChar = true ∨
        (c :: rest).takeWhile (· ≠ 0x2F) = []) := by
    have hne' : (c :: rest).takeWhile (· ≠ 0x2F) ≠ [] := by simp [hc]
    rw [ValidComponent, List.length_nil, Nat.zero_add, or_iff_left hne', List.all_eq_true]
    refine and_congr_right fun _ => forall₂_congr fun x hx => ?_
    have hx' := List.all_eq_true.mp List.all_takeWhile _ hx
    simp only [ne_eq, decide_not, Bool.not_eq_eq_eq_not, Bool.not_true, decide_eq_false_iff_not] at hx'
    simp [fatIsValidPathChar, hx']
  unfold fatParsePathComponent
  rw [hskip]
  dsimp only
  rw [fatParseChars_eq, List.nil_append]
  by_cases hv : ValidComponent ((c :: rest).takeWhile (· ≠ 0x2F))
  · rw [if_pos (hvalid.mp hv), if_pos hv]
  · rw [if_neg (mt hvalid.mpr hv), if_neg hv]

/-! ### The search -/

theorem fatFindStatus_ok {walkEnd : WalkEnd} {found : Option Dirent}
    (h : fatFindStatus walkEnd found = .ok) :
    ∃ e, found = some e ∧ e.suspicious = false := by
  cases walkEnd <;> cases found <;> simp_all [fatFindStatus]

theorem searchIn_ok {d : Disks} {fs : FatFs} {current : LookupResult} {component : List UInt8} {io io' : Io}
    {found : Option Dirent} (h : searchIn d fs current component io = (.ok, found, io')) :
    ∃ e, found = some e ∧ e.suspicious = false := by
  unfold searchIn fatFindRootEntry fatFindDirectoryEntry fatFindRootFixed fatFindDirectoryClusterChain at h
  dsimp only at h
  split_ifs at h
  · split at h
    · simp only [Prod.mk.injEq] at h
      exact h.2.1 ▸ fatFindStatus_ok h.1
    · simp only [Prod.mk.injEq] at h
      exact h.2.1 ▸ fatFindStatus_ok h.1
    · simp only [Prod.mk.injEq] at h
      exact h.2.1 ▸ fatFindStatus_ok h.1
    · cases h
  · cases h
  · simp only [Prod.mk.injEq] at h
    exact h.2.1 ▸ fatFindStatus_ok h.1

/-! ### The fold -/

section fold
variable {d : Disks} {fs : FatFs} {current : LookupResult} {component : List UInt8} {io io' : Io}
  {status : FatStatus}
  {components components' : List (List UInt8)}

theorem foldl_failed (hstatus : status ≠ .ok) :
    components.foldl (resolveStep d fs) (status, current, io) = (status, current, io) := by
  induction components with
  | nil => rfl
  | cons component components ih =>
    have hstep : resolveStep d fs (status, current, io) component = (status, current, io) := by
      cases status with
      | ok => exact absurd rfl hstatus
      | _ => rfl
    rw [List.foldl_cons, hstep, ih]

theorem resolve_notDirectory (h : current.isRoot = false ∧ current.dirent.kind ≠ .directory) :
    resolve d fs (component :: components) current io =
      (.notDirectory, current, io.note "TERMOB: fat path used file as directory") := by
  rw [resolve, List.foldl_cons, resolveStep, if_pos h, foldl_failed FatStatus.noConfusion]

theorem resolve_invalid (h : ¬(current.isRoot = false ∧ current.dirent.kind ≠ .directory))
    (hvalid : ¬ValidComponent component) :
    resolve d fs (component :: components) current io =
      (.invalidPath, current, io.note "TERMOB: fat path component invalid") := by
  rw [resolve, List.foldl_cons, resolveStep, if_neg h, if_pos hvalid, foldl_failed FatStatus.noConfusion]

theorem resolve_found (h : ¬(current.isRoot = false ∧ current.dirent.kind ≠ .directory))
    (hvalid : ValidComponent component) {e : Dirent}
    (hsearch : searchIn d fs current component io = (.ok, some e, io')) :
    resolve d fs (component :: components) current io = resolve d fs components ⟨e, false⟩ io' := by
  rw [resolve, List.foldl_cons, resolveStep, if_neg h, if_neg (not_not.mpr hvalid), hsearch]
  rfl

theorem resolve_failed (h : ¬(current.isRoot = false ∧ current.dirent.kind ≠ .directory))
    (hvalid : ValidComponent component) {found : Option Dirent}
    (hsearch : searchIn d fs current component io = (status, found, io')) (hstatus : status ≠ .ok) :
    resolve d fs (component :: components) current io = (status, current, io') := by
  rw [resolve, List.foldl_cons, resolveStep, if_neg h, if_neg (not_not.mpr hvalid), hsearch]
  cases status with
  | ok => exact absurd rfl hstatus
  | _ => exact foldl_failed FatStatus.noConfusion

theorem resolve_append {current' : LookupResult}
    (h : resolve d fs components current io = (.ok, current', io')) :
    resolve d fs (components ++ components') current io = resolve d fs components' current' io' := by
  rw [resolve, List.foldl_append, ← resolve, h]
  rfl

/-- The loop of `fat_lookup_path` computes the fold. Behind its look-ahead it is always at a
directory when there is a component left. -/
theorem fatLookupLoop_eq (rounds : Nat) {cursor : List UInt8} (hrounds : cursor.length ≤ rounds)
    (hsep : cursor.head? ≠ some 0x2F)
    (hdir : cursor ≠ [] → ¬(current.isRoot = false ∧ current.dirent.kind ≠ .directory)) :
    fatLookupLoop d fs rounds cursor current io = resolve d fs (pathComponents cursor) current io := by
  induction rounds generalizing cursor current io with
  | zero =>
    obtain rfl : cursor = [] := List.eq_nil_of_length_eq_zero (by omega)
    rfl
  | succ rounds ih =>
    rw [fatLookupLoop]
    by_cases hnil : cursor = []
    · rw [if_pos hnil, hnil]
      rfl
    rw [if_neg hnil, pathComponents_takeWhile hnil hsep, fatParsePathComponent_eq hnil hsep]
    have hfirst : cursor.takeWhile (· ≠ 0x2F) ≠ [] := by
      obtain ⟨c, rest, rfl⟩ := List.exists_cons_of_ne_nil hnil
      have hc : c ≠ 0x2F := by simpa using hsep
      simp [hc]
    have hshorter : (fatSkipPathSeparators (cursor.dropWhile (· ≠ 0x2F))).length ≤ rounds := by
      have h1 := (List.dropWhile_suffix (· = 0x2F) (l := cursor.dropWhile (· ≠ 0x2F))).length_le
      have h2 := congrArg List.length (List.takeWhile_append_dropWhile (p := (· ≠ 0x2F)) (l := cursor))
      have h3 := List.length_pos_iff.mpr hfirst
      rw [List.length_append] at h2
      rw [fatSkipPathSeparators]
      omega
    have hdir' := hdir hnil
    by_cases hvalid : ValidComponent (cursor.takeWhile (· ≠ 0x2F))
    · rw [if_pos hvalid]
      dsimp only
      rw [if_neg hfirst, if_neg hdir']
      generalize hrest : fatSkipPathSeparators (cursor.dropWhile (· ≠ 0x2F)) = rest at hshorter ⊢
      have hhead : rest.head? ≠ some 0x2F := hrest ▸ skip_head _
      obtain ⟨status, found, io', hsearch⟩ : ∃ status found io',
          searchIn d fs current (cursor.takeWhile (· ≠ 0x2F)) io = (status, found, io') := ⟨_, _, _, rfl⟩
      have hsame := hsearch
      rw [searchIn] at hsame
      rw [hsame]
      by_cases hok : status = .ok
      · subst hok
        obtain ⟨e, rfl, hclean⟩ := searchIn_ok hsearch
        rw [resolve_found hdir' hvalid hsearch]
        dsimp only
        rw [if_neg (by simp [hclean])]
        by_cases hfile : decide (rest ≠ []) = true ∧ e.kind ≠ .directory
        · -- the look-ahead refuses what the next component would be refused for
          have hmore : pathComponents rest ≠ [] := by
            intro h
            rw [← hrest, pathComponents_skip, ← skip_eq_nil_iff, hrest] at h
            simp [h] at hfile
          obtain ⟨component, components, hcons⟩ := List.exists_cons_of_ne_nil hmore
          rw [if_pos hfile, hcons, resolve_notDirectory ⟨rfl, hfile.2⟩]
        · rw [if_neg hfile]
          refine ih hshorter hhead fun hne h => hfile ⟨by simpa using hne, h.2⟩
      · rw [resolve_failed hdir' hvalid hsearch hok]
        cases status with
        | ok => exact absurd rfl hok
        | _ => rfl
    · rw [if_neg hvalid, resolve_invalid hdir' hvalid]

end fold

theorem fatLookupPath_abs (d : Disks) (fs : FatFs) (path : List UInt8) (out : LookupResult) (io : Io) :
    fatLookupPath d fs (0x2F :: path) out io =
      resolve d fs (pathComponents (0x2F :: path)) { out with isRoot := true } io := by
  rw [fatLookupPath, if_neg (by simp)]
  dsimp only
  rw [fatLookupLoop_eq _ (le_refl _) (skip_head _) (fun _ h => by cases h.1), pathComponents_skip]

/-- On every disk the lookup of an absolute path is the fold over its components, from the root
directory on. So two paths with the same components, however many separators they have, are resolved
alike. -/
theorem lookup_eq_resolve (d : Disks) (fs : FatFs) (out : LookupResult) (io : Io) :
    (∀ path, fatLookupPath d fs (0x2F :: path) out io =
        resolve d fs (pathComponents (0x2F :: path)) { out with isRoot := true } io) ∧
      ∀ path path', pathComponents path = pathComponents path' →
        fatLookupPath d fs (0x2F :: path) out io = fatLookupPath d fs (0x2F :: path') out io := by
  have hfold : ∀ path, fatLookupPath d fs (0x2F :: path) out io =
      resolve d fs (pathComponents (0x2F :: path)) { out with isRoot := true } io :=
    fun path => fatLookupPath_abs d fs path out io
  refine ⟨hfold, fun path path' h => ?_⟩
  rw [hfold, hfold, pathComponents_sep, pathComponents_sep, h]

end TermobKernel.Fat

import TermobKernel.Terminal.Log

/-!
# Looking back in the history

The four calls that scroll back and forth draw the region from the history and change nothing in it;
when the view is live again the region shows what it showed before. The cursor is not brought back:
every call that moves the view puts it at the start of the last row of the region
(`terminal_scrollback_sync_view_after_scroll`), and going back to the live view leaves it there.
-/

namespace TermobKernel.Terminal

variable {s : State} {a : Log}

inductive Nav where
  | lineUp
  | lineDown
  | pageUp
  | pageDown
  deriving DecidableEq, Repr

def Nav.op : Nav → Op
  | .lineUp => .lineUp
  | .lineDown => .lineDown
  | .pageUp => .pageUp
  | .pageDown => .pageDown

def Nav.isUp : Nav → Bool
  | .lineUp => true
  | .lineDown => false
  | .pageUp => true
  | .pageDown => false

def navigate (s : State) (nav : List Nav) : State := (nav.map Nav.op).foldl step s

/-- The states in which a look back can end: the view is live again, or is made so. -/
def EndsIn (s : State) (nav : List Nav) (t : State) : Prop :=
  (t = navigate s nav ∧ t.viewOffset = 0) ∨ t = terminalScrollbackFollow (navigate s nav)

/-- The history, the screen and the cursor are as they were. -/
structure Undisturbed (s t : State) : Prop where
  history : t.history = s.history ∧ t.head = s.head ∧ t.count = s.count
  screen : t.screen = s.screen
  cursor : t.terminalRow = s.terminalRow ∧ t.terminalColumn = s.terminalColumn

/-! ### What stays -/

/-- Only the view, the cursor and the rows of the region differ. -/
structure SameBehind (s t : State) : Prop where
  history : t.history = s.history ∧ t.head = s.head ∧ t.count = s.count
  region : t.regionTop = s.regionTop ∧ t.regionBottom = s.regionBottom
  outside : ∀ y, y < s.regionTop ∨ s.regionBottom < y → t.screen y = s.screen y

theorem SameBehind.trans {s t u : State} (h : SameBehind s t) (h' : SameBehind t u) : SameBehind s u := by
  obtain ⟨hhistory, hhead, hcount⟩ := h'.history
  obtain ⟨htop, hbottom⟩ := h'.region
  refine ⟨⟨hhistory.trans h.history.1, hhead.trans h.history.2.1, hcount.trans h.history.2.2⟩,
    ⟨htop.trans h.region.1, hbottom.trans h.region.2⟩, fun y hy => ?_⟩
  rw [h'.outside y (by rw [h.region.1, h.region.2]; exact hy), h.outside y hy]

theorem visibleTop_state (s : State) :
    ∃ viewOffset, (scrollbackVisibleTopLogical s).2 = { s with viewOffset } := by
  unfold scrollbackVisibleTopLogical
  split
  · exact ⟨s.viewOffset, rfl⟩
  · dsimp only
    split
    · exact ⟨_, rfl⟩
    · exact ⟨s.viewOffset, rfl⟩

theorem sameBehind_sync (hregion : s.regionTop ≤ s.regionBottom) :
    SameBehind s (scrollbackSyncRegionFromHistory s) := by
  obtain ⟨viewOffset, hstate⟩ := visibleTop_state s
  unfold scrollbackSyncRegionFromHistory
  dsimp only
  rw [hstate, scrollbackSyncRows_eq]
  refine ⟨⟨rfl, rfl, rfl⟩, ⟨rfl, rfl⟩, fun y hy => ?_⟩
  exact if_neg (by dsimp only; unfold terminalRegionHeight; omega)

theorem sameBehind_view (hregion : s.regionTop ≤ s.regionBottom) (viewOffset : Nat) :
    SameBehind s (scrollbackSyncRegionFromHistory { s with viewOffset }) ∧
      SameBehind s (scrollbackSyncViewAfterScroll { s with viewOffset }) := by
  have hsync := sameBehind_sync (s := { s with viewOffset }) hregion
  exact ⟨⟨hsync.history, hsync.region, hsync.outside⟩, ⟨hsync.history, hsync.region, hsync.outside⟩⟩

theorem SameBehind.refl (s : State) : SameBehind s s := ⟨⟨rfl, rfl, rfl⟩, ⟨rfl, rfl⟩, fun _ _ => rfl⟩

theorem sameBehind_follow (hregion : s.regionTop ≤ s.regionBottom) :
    SameBehind s (terminalScrollbackFollow s) := by
  unfold terminalScrollbackFollow
  split
  · exact SameBehind.refl s
  · exact (sameBehind_view hregion 0).1

theorem nav_state_cases (s : State) (n : Nav) :
    step s n.op = s ∨ ∃ viewOffset, step s n.op = scrollbackSyncViewAfterScroll { s with viewOffset } := by
  cases n with
  | lineUp => exact (ite_eq_or_eq _ _ _).imp_right fun h => ⟨_, h⟩
  | lineDown => exact (ite_eq_or_eq _ _ _).imp_right fun h => ⟨_, h⟩
  | pageUp => exact (ite_eq_or_eq _ _ _).imp_right fun h => ⟨_, h⟩
  | pageDown => exact (ite_eq_or_eq _ _ _).imp_right fun h => ⟨_, h⟩

theorem sameBehind_nav (hregion : s.regionTop ≤ s.regionBottom) (n : Nav) : SameBehind s (step s n.op) := by
  rcases nav_state_cases s n with h | ⟨viewOffset, h⟩
  · rw [h]
    exact SameBehind.refl s
  · rw [h]
    exact (sameBehind_view hregion viewOffset).2

theorem sameBehind_navigate (nav : List Nav) : ∀ {s : State}, s.regionTop ≤ s.regionBottom →
    SameBehind s (navigate s nav) := by
  induction nav with
  | nil => exact fun _ => SameBehind.refl _
  | cons n nav ih =>
    intro s hregion
    have hfirst := sameBehind_nav hregion n
    exact hfirst.trans (ih (by rw [hfirst.region.1, hfirst.region.2]; exact hregion))

/-! ### The log -/

/-- The same lines in view of the same region, at some offset and with the cursor somewhere. -/
structure SameLines (a b : Log) : Prop where
  lines : b.lines = a.lines
  top : b.top = a.top
  bottom : b.bottom = a.bottom

def AtEnd (a : Log) : Prop := a.row = a.bottom ∧ a.column = 0

theorem sameLines_look (a : Log) (offset : Nat) : SameLines a (a.look offset) := ⟨rfl, rfl, rfl⟩

theorem atEnd_look (a : Log) (offset : Nat) : AtEnd (a.look offset) := ⟨rfl, rfl⟩

theorem nav_log_cases (a : Log) (n : Nav) : a.step n.op = a ∨ ∃ offset, a.step n.op = a.look offset := by
  cases n with
  | lineUp => exact (ite_eq_or_eq _ _ _).symm.imp_right fun h => ⟨_, h⟩
  | lineDown => exact (ite_eq_or_eq _ _ _).imp_right fun h => ⟨_, h⟩
  | pageUp => exact (ite_eq_or_eq _ _ _).symm.imp_right fun h => ⟨_, h⟩
  | pageDown => exact (ite_eq_or_eq _ _ _).imp_right fun h => ⟨_, h⟩

theorem nav_log_quiet (hlive : a.offset = 0) {n : Nav} (hquiet : a.depth = 0 ∨ n.isUp = false) :
    a.step n.op = a := by
  have hdepth : n.isUp = true → ¬a.offset < a.depth := by
    intro hup
    rcases hquiet with h0 | hdown
    · omega
    · rw [hup] at hdown
      cases hdown
  cases n with
  | lineUp => exact if_neg (hdepth rfl)
  | lineDown => exact if_pos hlive
  | pageUp => exact if_neg (hdepth rfl)
  | pageDown => exact if_pos hlive

theorem nav_log_up (hlive : a.offset = 0) (hdepth : a.depth ≠ 0) {n : Nav} (hup : n.isUp = true) :
    AtEnd (a.step n.op) := by
  have hlt : a.offset < a.depth := by omega
  cases n with
  | lineUp =>
    change AtEnd (if _ then _ else _)
    rw [if_pos hlt]
    exact atEnd_look a _
  | lineDown => cases hup
  | pageUp =>
    change AtEnd (if _ then _ else _)
    rw [if_pos hlt]
    exact atEnd_look a _
  | pageDown => cases hup

section runs
variable (nav : List Nav)

theorem sameLines_run : ∀ a : Log, SameLines a ((nav.map Nav.op).foldl Log.step a) := by
  induction nav with
  | nil => exact fun a => ⟨rfl, rfl, rfl⟩
  | cons n nav ih =>
    intro a
    have hrest := ih (a.step n.op)
    rcases nav_log_cases a n with h | ⟨offset, h⟩
    · rw [h] at hrest
      rw [List.map_cons, List.foldl_cons, h]
      exact hrest
    · rw [h] at hrest
      rw [List.map_cons, List.foldl_cons, h]
      exact ⟨hrest.lines, hrest.top, hrest.bottom⟩

theorem atEnd_run : ∀ {a : Log}, AtEnd a → AtEnd ((nav.map Nav.op).foldl Log.step a) := by
  induction nav with
  | nil => exact fun h => h
  | cons n nav ih =>
    intro a ha
    apply ih
    rcases nav_log_cases a n with h | ⟨offset, h⟩
    · rw [h]
      exact ha
    · rw [h]
      exact atEnd_look a offset

variable {nav}

theorem quiet_run {a : Log} (hlive : a.offset = 0) (hquiet : a.depth = 0 ∨ ∀ n ∈ nav, n.isUp = false) :
    (nav.map Nav.op).foldl Log.step a = a := by
  induction nav with
  | nil => rfl
  | cons n nav ih =>
    rw [List.map_cons, List.foldl_cons, nav_log_quiet hlive (hquiet.imp_right fun h => h n (by simp))]
    exact ih (hquiet.imp_right fun h m hm => h m (by simp [hm]))

theorem moved_run {a : Log} (hlive : a.offset = 0) (hdepth : a.depth ≠ 0) (hup : ∃ n ∈ nav, n.isUp = true) :
    AtEnd ((nav.map Nav.op).foldl Log.step a) := by
  induction nav with
  | nil => simp at hup
  | cons n nav ih =>
    rw [List.map_cons, List.foldl_cons]
    cases hn : n.isUp with
    | true => exact atEnd_run nav (nav_log_up hlive hdepth hn)
    | false =>
      rw [nav_log_quiet hlive (Or.inr hn)]
      obtain ⟨m, hm, hmup⟩ := hup
      rcases List.mem_cons.mp hm with rfl | hm
      · rw [hn] at hmup
        cases hmup
      · exact ih ⟨m, hm, hmup⟩

end runs

/-! ### The result -/

theorem live_screen_eq {s t : State} {a b : Log} (hs : Refines s a) (ht : Refines t b)
    (hlines : SameLines a b) (hbehind : SameBehind s t) (hlive : a.offset = 0)
    (hlive' : b.offset = 0) : t.screen = s.screen := by
  funext y
  by_cases hy : y < s.regionTop ∨ s.regionBottom < y
  · exact hbehind.outside y hy
  · have htop := hs.kept.top
    have hbottom := hs.kept.bottom
    have hheight : b.height = a.height := by rw [Log.height, Log.height, hlines.top, hlines.bottom]
    have hrow : y - a.top < a.height := by
      unfold Log.height
      omega
    have hshown := hs.shown_live hlive hrow
    have hshown' := ht.shown_live hlive' (show y - a.top < b.height by omega)
    rw [hlines.lines, hheight, hshown, hlines.top, Nat.add_sub_cancel' (by omega)] at hshown'
    exact (Option.some.inj hshown').symm

theorem EndsIn.refines {s t : State} {nav : List Nav} (hend : EndsIn s nav t) (hs : Refines s a) :
    ∃ b, Refines t b ∧ SameLines a b ∧ b.offset = 0 ∧ SameBehind s t ∧
      b.row = ((nav.map Nav.op).foldl Log.step a).row ∧
      b.column = ((nav.map Nav.op).foldl Log.step a).column := by
  have hregion : s.regionTop ≤ s.regionBottom := by
    rw [hs.kept.top, hs.kept.bottom]
    exact hs.kept.region.1
  have hnav : Refines (navigate s nav) ((nav.map Nav.op).foldl Log.step a) := hs.run _
  have hlines := sameLines_run nav a
  have hbehind := sameBehind_navigate nav hregion
  rcases hend with ⟨rfl, hlive⟩ | rfl
  · exact ⟨_, hnav, hlines, hnav.kept.offset.symm.trans hlive, hbehind, rfl, rfl⟩
  · have hfollow := sameBehind_follow (s := navigate s nav)
      (by rw [hbehind.region.1, hbehind.region.2]; exact hregion)
    exact ⟨_, hnav.step .follow, ⟨hlines.lines, hlines.top, hlines.bottom⟩, rfl,
      hbehind.trans hfollow, rfl, rfl⟩

/-- **Looking back.** In every reachable state with the live view, after every sequence of calls
that ends in the live view, the history, the screen and the cursor are as before if and only if
there is nothing to look back to, or no call looks back, or the cursor was at the start of the last
row. -/
theorem navigation_undisturbed_iff (s₀ : State) (start : Start) (ops : List Op) (nav : List Nav) {t : State}
    (hlive : (ops.foldl step (s₀.start start)).viewOffset = 0)
    (hend : EndsIn (ops.foldl step (s₀.start start)) nav t) :
    let s := ops.foldl step (s₀.start start)
    Undisturbed s t ↔ scrollbackMaxOffset s = 0 ∨ (∀ n ∈ nav, n.isUp = false) ∨
      (s.terminalRow = s.regionBottom ∧ s.terminalColumn = 0) := by
  intro s
  obtain ⟨a, hs⟩ : ∃ a, Refines s a := ⟨_, (refines_start s₀ start).run ops⟩
  have hoffset : a.offset = 0 := hs.kept.offset.symm.trans hlive
  obtain ⟨b, ht, hlines, hboffset, hbehind, hrow, hcolumn⟩ := hend.refines hs
  rw [hs.kept.maxOffset, hs.kept.row, hs.kept.column, hs.kept.bottom]
  constructor
  · intro h
    by_contra hcond
    simp only [not_or, not_forall, Bool.not_eq_false] at hcond
    obtain ⟨hdepth, ⟨n, hn, hup⟩, hcursor⟩ := hcond
    obtain ⟨hendrow, hendcolumn⟩ := moved_run hoffset hdepth ⟨n, hn, hup⟩
    have hsame := h.cursor
    rw [ht.kept.row, ht.kept.column, hs.kept.row, hs.kept.column, hrow, hcolumn, hendrow, hendcolumn,
      (sameLines_run nav a).bottom] at hsame
    exact hcursor ⟨hsame.1.symm, hsame.2.symm⟩
  · intro hcond
    refine ⟨hbehind.history, live_screen_eq hs ht hlines hbehind hoffset hboffset, ?_⟩
    rw [ht.kept.row, ht.kept.column, hs.kept.row, hs.kept.column, hrow, hcolumn]
    rcases hcond with hdepth | hdown | hcursor
    · rw [quiet_run hoffset (Or.inl hdepth)]
      exact ⟨rfl, rfl⟩
    · rw [quiet_run hoffset (Or.inr hdown)]
      exact ⟨rfl, rfl⟩
    · obtain ⟨hendrow, hendcolumn⟩ := atEnd_run nav (show AtEnd a from hcursor)
      rw [hendrow, hendcolumn, (sameLines_run nav a).bottom, hcursor.1, hcursor.2]
      exact ⟨rfl, rfl⟩

def blankScreen : State :=
  ⟨0, 0, 7, fun _ => blankLine 7, 0, 24, fun _ => blankLine 7, 0, 0, 0, false⟩

/-- A region of one row, after a newline: the cursor is at its start, and a look back leaves it there. -/
theorem navigation_undisturbed_newline :
    Undisturbed ([Op.putchar 0x0A].foldl step (blankScreen.start (.setRegion 24 24)))
      (navigate ([Op.putchar 0x0A].foldl step (blankScreen.start (.setRegion 24 24))) [.lineUp,
          .lineDown]) :=
  (navigation_undisturbed_iff blankScreen (.setRegion 24 24) [.putchar 0x0A] [.lineUp,
    .lineDown] (by decide +kernel)
    (Or.inl ⟨rfl, by decide +kernel⟩)).mpr (Or.inr (Or.inr (by decide +kernel)))

/-- The same region after a newline and a character: a look back takes the cursor from column 1 to
column 0. -/
theorem navigation_moves_cursor :
    let s := [Op.putchar 0x0A, Op.putchar 0x78].foldl step (blankScreen.start (.setRegion 24 24))
    s.viewOffset = 0 ∧ s.terminalColumn = 1 ∧
      (navigate s [.lineUp, .lineDown]).viewOffset = 0 ∧
      (navigate s [.lineUp, .lineDown]).terminalColumn = 0 := by
  decide +kernel

end TermobKernel.Terminal

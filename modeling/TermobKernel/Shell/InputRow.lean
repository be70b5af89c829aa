import TermobKernel.Shell.Screen
import TermobKernel.Terminal.Navigation

/-!
# The input row

The row of the prompt shows the line that is edited. `keyboard_shell_redraw_input` blanks the row
from the prompt to the last column but one, and leaves the last column to the text: the line is at
most as long as the blanked part, so that the last column stays as blank as the prompt has found it.
A prompt finds it blank because the kernel only writes at the cursor, ahead of which all is blank
(`Ahead`).

The length of the line is compared with the room behind the prompt when a character is inserted, and
not when Ctrl+L draws the prompt anew. The prompt of `kernel_draw_ui` ends one column further to the
right than the one behind a command.
-/

namespace TermobKernel.Shell
open Terminal Zipper Runs

/-! ### Drawing the line -/

/-- A prompt in the region, with the last column of its row and the rows below it blank. -/
structure Anchored (t : Terminal.State) (row column : Nat) (a : Log) : Prop where
  refines : Terminal.Refines t a
  bottom : a.bottom < 24
  inRegion : a.top ≤ row ∧ row ≤ a.bottom
  onScreen : column < vgaWidth
  last : ∀ x : Fin vgaWidth, x.val = 79 → a.charAt row x = blank
  below : ∀ y, row < y → y ≤ a.bottom → ∀ x, a.charAt y x = blank

/-- The draft stands behind the prompt, with blanks up to the end of the row. -/
structure Shows (t : Terminal.State) (row column : Nat) (draft : Zipper UInt8) (a : Log) : Prop extends
    Anchored t row column a where
  fits : column + draft.text.length < vgaWidth
  cells : ∀ x : Fin vgaWidth, column ≤ x.val → a.charAt row x = draft.text.getD (x.val - column) blank

def AtCursor (row column : Nat) (draft : Zipper UInt8) (a : Log) : Prop :=
  a.row = row ∧ a.column = column + draft.cursor

section drawing
variable {t t' : Terminal.State} {row column : Nat} {draft : Zipper UInt8} {a b : Log}

theorem charAt_sameLines (h : SameLines a b) (y : Nat) (x : Fin vgaWidth) :
    b.charAt y x = a.charAt y x := by
  rw [Log.charAt, Log.charAt, Log.height, Log.height, h.lines, h.top, h.bottom]

theorem Anchored.look (h : Anchored t row column a) (hrefines : Terminal.Refines t' b)
    (hlines : SameLines a b) :
    Anchored t' row column b := by
  refine ⟨hrefines, ?_, ?_, h.onScreen, fun x hx => ?_, fun y hy hle x => ?_⟩
  · rw [hlines.bottom]
    exact h.bottom
  · rw [hlines.top, hlines.bottom]
    exact h.inRegion
  · rw [charAt_sameLines hlines]
    exact h.last x hx
  · rw [charAt_sameLines hlines]
    exact h.below y hy (hlines.bottom ▸ hle) x

theorem Shows.look (h : Shows t row column draft a) (hrefines : Terminal.Refines t' b)
    (hlines : SameLines a b) :
    Shows t' row column draft b :=
  ⟨h.toAnchored.look hrefines hlines,
    h.fits, fun x hx => (charAt_sameLines hlines row x).trans (h.cells x hx)⟩

theorem shows_of_ahead (h : Ahead a) (hrefines : Terminal.Refines t a) (hbottom : a.bottom < 24) :
    Shows t t.terminalRow t.terminalColumn .empty a ∧ AtCursor t.terminalRow t.terminalColumn .empty a := by
  have hlt := h.column
  rw [hrefines.kept.row, hrefines.kept.column]
  refine ⟨⟨⟨hrefines, hbottom, h.row, hlt, fun x hx => h.rest x ?_, h.below⟩,
    hlt, fun x hx => h.rest x hx⟩, rfl, rfl⟩
  rw [hx]
  exact Nat.le_of_lt_succ hlt

theorem charAt_drawn (ha : a.Sized) (row : Nat) {n : Nat} (hn : column + n = 79)
    (color color' : UInt8) (text : List UInt8) {y : Nat} (hy : a.top ≤ y ∧ y ≤ a.bottom)
    (x : Fin vgaWidth) :
    ((a.putText color (List.replicate n blank) column row).putText color' text column row).charAt y x =
      if y = row ∧ column ≤ x.val ∧ x.val < column + text.length then text.getD (x.val - column) blank
      else if y = row ∧ column ≤ x.val ∧ x.val < 79 then blank else a.charAt y x := by
  have hframe := putText_frame a color (List.replicate n blank) column row
  rw [charAt_putText (hframe.sized ha) color' text column row (by rw [hframe.top, hframe.bottom]; exact hy),
    charAt_putText ha color _ column row hy, List.length_replicate, hn]
  by_cases hin : y = row ∧ column ≤ x.val ∧ x.val < 79
  · rw [if_pos hin, if_pos hin, List.getD_replicate _ (by omega)]
  · rw [if_neg hin, if_neg hin]

theorem inputCapacity_eq {column : Nat} (h : column < vgaWidth) :
    column + keyboardShellInputCapacity column = 79 := by
  have hwidth : vgaWidth = 80 := rfl
  unfold keyboardShellInputCapacity
  split
  · omega
  · omega

/-- **Drawing the line.** A draft that ends before the last column is drawn as a whole, and the rest
of the row is blank. -/
theorem Anchored.draw (h : Anchored t row column a) (hplain : 0 ∉ draft.text)
    (hfits : column + draft.text.length < vgaWidth) :
    ∃ b, Shows (drawInput row column draft.text draft.cursor t) row column draft b ∧
        AtCursor row column draft b := by
  have hwidth : vgaWidth = 80 := rfl
  have hheight : vgaHeight = 25 := rfl
  have hbottom := h.bottom
  have hin := h.inRegion
  have hcapacity := inputCapacity_eq h.onScreen
  have hcursor := draft.cursor_le
  have hcolor := h.refines.step (.setcolor .lightGrey .black)
  have hfilled := hcolor.fillRow (terminalMakeColor .lightGrey .black) (x := column) (y := row)
    (n := keyboardShellInputCapacity column) (by omega) (by omega)
  have hdrawn := (hfilled.writeat hplain column row).step (.setCursor (column + draft.cursor) row)
  have hchar := fun {y : Nat} hy x => charAt_drawn hcolor.kept.sized row hcapacity
    (terminalMakeColor .lightGrey .black) (terminalMakeColor .lightGrey .black) draft.text (y := y) hy x
  have hframe := (putText_frame (a.step (.setcolor .lightGrey .black)) (terminalMakeColor .lightGrey .black)
    (List.replicate (keyboardShellInputCapacity column) blank) column row)
  have hframe' := hframe.trans (putText_frame _ (terminalMakeColor .lightGrey .black) draft.text column row)
  rw [hframe.color] at hdrawn
  have hsame : a.step (.setcolor .lightGrey .black) =
    { a with color := terminalMakeColor .lightGrey .black } := rfl
  rw [hsame] at hdrawn hchar hframe'
  dsimp only at hdrawn
  generalize Log.putText (Log.putText _ _ _ _ _) _ _ _ _ = b at hdrawn hchar hframe'
  refine ⟨_, ⟨⟨hdrawn, ?_, ?_, h.onScreen, fun x hx => ?_, fun y hy hle x => ?_⟩,
    hfits, fun x hx => ?_⟩, ?_, ?_⟩
  · exact hframe'.bottom.trans_lt hbottom
  · exact ⟨hframe'.top.trans_le hin.1, hin.2.trans hframe'.bottom.ge⟩
  · change b.charAt row x = blank
    rw [hchar hin x, if_neg (by omega), if_neg (by omega)]
    exact h.last x hx
  · change b.charAt y x = blank
    have hle' : y ≤ a.bottom := hle.trans hframe'.bottom.le
    have htop : a.top ≤ y := by omega
    rw [hchar ⟨htop, hle'⟩ x, if_neg (by omega), if_neg (by omega)]
    exact h.below y hy hle' x
  · change b.charAt row x = _
    rw [hchar hin x]
    by_cases htext : x.val < column + draft.text.length
    · rw [if_pos ⟨rfl, hx, htext⟩]
    · rw [if_neg (fun hin => htext hin.2.2), List.getD_eq_default _ _ (by omega)]
      split
      · rfl
      · next hend => exact h.last x (by omega)
  · exact if_pos (by omega)
  · exact if_pos (by omega)

/-! ### Commands -/

variable {κ : Type} (machine : Machine κ)

/-- **A command.** It leaves a prompt ahead of which all is blank, if the rows below the cursor were. -/
theorem processCommand_ahead {cmd : List UInt8} {rest rest' : Monitored κ}
    (hrefines : Terminal.Refines t a) (hbelow : Below a) (hbottom : a.bottom < 24)
    (h : machine.processCommand cmd rest t = some (rest', t')) :
    ∃ b, Terminal.Refines t' b ∧ Ahead b ∧ b.bottom < 24 := by
  have hline := hrefines.putchar 0x0A
  have hahead : Ahead (a.putchar 0x0A) := hbelow.nextRow
  have hbounds := putchar_bounds a 0x0A
  have hbottom' : (a.putchar 0x0A).bottom < 24 := (congrArg Prod.snd hbounds).trans_lt hbottom
  unfold Machine.processCommand at h
  dsimp only at h
  generalize terminalPutchar t 0x0A = u at hline h
  generalize a.putchar 0x0A = b at hline hahead hbottom'
  have hout : ∀ outputs : List Output, ∃ b, Terminal.Refines (terminalOutput u outputs) b ∧
      Ahead b ∧ b.bottom < 24 :=
    fun outputs => ⟨_, hline.output outputs, hahead.output outputs,
      (congrArg Prod.snd (output_bounds b outputs)).trans_lt hbottom'⟩
  split at h
  · obtain ⟨-, rfl⟩ := Prod.mk.inj (Option.some.inj h)
    exact hout promptOutput
  split at h
  · obtain ⟨-, rfl⟩ := Prod.mk.inj (Option.some.inj h)
    obtain ⟨c, hc, hcahead, hcbounds, _⟩ := kernelDrawUi_spec (machine.vitals rest.kernel)
      (machine.vitals (machine.later rest.kernel)) u
    exact ⟨c, hc, hcahead, (congrArg Prod.snd hcbounds).trans_lt (by decide)⟩
  split at h
  · cases h
  · next outputs _ =>
    obtain ⟨-, rfl⟩ := Prod.mk.inj (Option.some.inj h)
    have hall := hout (outputs ++ promptOutput)
    rw [terminalOutput, List.map_append, List.foldl_append] at hall
    exact hall

end drawing

/-! ### The editor on the screen -/

section editor
variable {κ : Type} {m m' : Session κ}

/-- The row of the prompt shows the draft. In the live view the cursor stands in it. -/
structure Session.Shown (m : Session κ) : Prop where
  plain : 0 ∉ m.draft.text
  copied : 0 ∉ m.clipboard
  shows : ∃ a, Shows m.terminal m.promptRow m.promptColumn m.draft a ∧
    (a.offset = 0 → AtCursor m.promptRow m.promptColumn m.draft a)

/-- The cursor stands in the draft. -/
structure Session.Ready (m : Session κ) : Prop where
  plain : 0 ∉ m.draft.text
  copied : 0 ∉ m.clipboard
  shows : ∃ a, Shows m.terminal m.promptRow m.promptColumn m.draft a ∧
    AtCursor m.promptRow m.promptColumn m.draft a

theorem Session.Ready.shown (h : m.Ready) : m.Shown := by
  obtain ⟨a, hshows, hcursor⟩ := h.shows
  exact ⟨h.plain, h.copied, a, hshows, fun _ => hcursor⟩

theorem Session.ready_redraw {a : Log} (h : Anchored m.terminal m.promptRow m.promptColumn a)
    (hplain : 0 ∉ m.draft.text) (hcopied : 0 ∉ m.clipboard)
    (hfits : m.promptColumn + m.draft.text.length < vgaWidth) : m.redraw.Ready :=
  ⟨hplain, hcopied, h.draw hplain hfits⟩

theorem Session.Shown.put (h : m.Shown) {draft : Zipper UInt8} (hplain : 0 ∉ draft.text)
    (hfits : m.promptColumn + draft.text.length < vgaWidth) : (m.put draft).Shown := by
  obtain ⟨a, hshows, _⟩ := h.shows
  unfold Session.put
  split
  · exact h
  · exact (ready_redraw (m := { m with draft }) hshows.toAnchored hplain h.copied hfits).shown

theorem Session.Shown.shorten (h : m.Shown) {draft : Zipper UInt8}
    (hsub : ∀ c ∈ draft.text, c ∈ m.draft.text)
    (hlength : draft.text.length ≤ m.draft.text.length) : (m.put draft).Shown := by
  obtain ⟨a, hshows, _⟩ := h.shows
  have hfits := hshows.fits
  exact h.put (fun hzero => h.plain (hsub 0 hzero)) (by omega)

theorem Session.Shown.insert (h : m.Shown) {c : UInt8} (hc : c ≠ 0) : (m.insert c).Shown := by
  unfold Session.insert
  split
  · next hroom =>
    refine h.put (fun hzero => ?_) ?_
    · rcases mem_text_insert.mp hzero with h0 | hmem
      · exact hc h0.symm
      · exact h.plain hmem
    · have hwidth : vgaWidth = 80 := rfl
      have hlength : (m.draft.insert c).text.length = m.draft.text.length + 1 := by
        simp only [length_text, Zipper.insert, List.length_cons]
        omega
      unfold lineLimit at hroom
      omega
  · exact h

theorem Session.Shown.paste (h : m.Shown) {text : List UInt8} (hplain : 0 ∉ text) :
    (text.foldl Session.insert m).Shown := by
  induction text generalizing m with
  | nil => exact h
  | cons c text ih =>
    rw [List.mem_cons, not_or] at hplain
    exact ih (h.insert (Ne.symm hplain.1)) hplain.2

theorem Session.Shown.follow (h : m.Shown) : m.follow.Ready := by
  obtain ⟨a, hshows, hcursor⟩ := h.shows
  unfold Session.follow
  split
  · have hfollowed : Terminal.Refines (terminalScrollbackFollow m.terminal) { a with offset := 0 } :=
      hshows.refines.step .follow
    exact ready_redraw (m := { m with terminal := terminalScrollbackFollow m.terminal })
      (hshows.toAnchored.look hfollowed ⟨rfl, rfl, rfl⟩) h.plain h.copied hshows.fits
  · next hlive =>
    have hoffset : a.offset = 0 := by
      rw [terminalScrollbackIsActive, decide_eq_true_eq, not_not] at hlive
      exact hshows.refines.kept.offset.symm.trans hlive
    exact ⟨h.plain, h.copied, a, hshows, hcursor hoffset⟩

theorem Session.Shown.pageUp (h : m.Shown) :
    Session.Shown { m with terminal := terminalScrollbackPageUp m.terminal } := by
  obtain ⟨a, hshows, hcursor⟩ := h.shows
  have hpaged : Terminal.Refines (terminalScrollbackPageUp m.terminal) (a.step .pageUp) :=
    hshows.refines.step .pageUp
  have hstep : a.step .pageUp = if a.offset <
      a.depth then a.look (min (a.offset + scrollbackPage a.height) a.depth) else a :=
    rfl
  rw [hstep] at hpaged
  split at hpaged
  · next hmore =>
    refine ⟨h.plain, h.copied, _, hshows.look hpaged (sameLines_look a _), fun hlive => ?_⟩
    -- A page has at least one line, so that the view is not live.
    have hpage : 0 < scrollbackPage a.height := by
      unfold scrollbackPage Log.height
      split
      · omega
      · omega
    have hzero : min (a.offset + scrollbackPage a.height) a.depth = 0 := hlive
    omega
  · exact ⟨h.plain, h.copied, a, hshows.look hpaged ⟨rfl, rfl, rfl⟩, hcursor⟩

theorem Session.Shown.pageDown (h : m.Shown) (host : Host κ) :
    ∃ m', m.perform host .pageDown = some m' ∧ m'.Shown := by
  obtain ⟨a, hshows, _⟩ := h.shows
  have hpaged : Terminal.Refines (terminalScrollbackPageDown m.terminal) (a.step .pageDown) :=
    hshows.refines.step .pageDown
  have hlines : SameLines a (a.step .pageDown) := sameLines_run [.pageDown] a
  have hshown := hshows.look hpaged hlines
  refine ⟨_, rfl, ?_⟩
  split
  · exact (ready_redraw (m := { m with terminal := terminalScrollbackPageDown m.terminal })
      hshown.toAnchored h.plain h.copied hshows.fits).shown
  · next hactive =>
    refine ⟨h.plain, h.copied, _, hshown, fun hlive => absurd ?_ hactive⟩
    rw [terminalScrollbackIsActive, hpaged.kept.offset, hlive]
    rfl

end editor

section gestures
variable {κ : Type} {machine : Machine κ} {m m' : Session (Monitored κ)}

/-- **Ctrl+L.** The prompt is at column 13 of an empty screen, which leaves room for 66 characters. -/
theorem Session.anchored_drawUi (machine : Machine κ) (m : Session (Monitored κ)) :
    let drawn := machine.drawUi m.rest m.terminal
    (m.anchored drawn.1 drawn.2).promptColumn = 13 ∧
      ∃ a, Anchored (m.anchored drawn.1 drawn.2).terminal (m.anchored drawn.1 drawn.2).promptRow
        (m.anchored drawn.1 drawn.2).promptColumn a := by
  obtain ⟨a, hrefines, hahead, hbounds, _, hcolumn⟩ := kernelDrawUi_spec (machine.vitals m.rest.kernel)
    (machine.vitals (machine.later m.rest.kernel)) m.terminal
  have hbottom : a.bottom < 24 := (congrArg Prod.snd hbounds).trans_lt (by decide)
  exact ⟨hrefines.kept.column.trans hcolumn, a, (shows_of_ahead hahead hrefines hbottom).1.toAnchored⟩

theorem Session.Shown.edit (h : m.Shown) {edit : Edit} (hstay : edit ≠ .enter)
    (hinsert : ∀ c, edit = .insert c → c ≠ 0) (hroom : edit = .redraw → m.draft.text.length ≤ 66)
    (hm' : m.edit machine.host edit = some m') : m'.Shown := by
  obtain ⟨a, hshows, hcursor⟩ := h.shows
  cases edit with
  | insert c =>
    obtain rfl := Option.some.inj hm'
    exact h.insert (hinsert c rfl)
  | deleteBefore =>
    obtain rfl := Option.some.inj hm'
    refine h.shorten (fun c => mem_text_of_deleteBefore) ?_
    simp only [length_text, Zipper.deleteBefore, List.length_tail]
    omega
  | deleteAt =>
    obtain rfl := Option.some.inj hm'
    refine h.shorten (fun c => mem_text_of_deleteAt) ?_
    simp only [length_text, Zipper.deleteAt, List.length_tail]
    omega
  | moveLeft =>
    obtain rfl := Option.some.inj hm'
    refine h.shorten (fun c hc => ?_) ?_
    · rwa [text_moveLeft] at hc
    · rw [text_moveLeft]
  | moveRight =>
    obtain rfl := Option.some.inj hm'
    refine h.shorten (fun c hc => ?_) ?_
    · rwa [text_moveRight] at hc
    · rw [text_moveRight]
  | clear =>
    obtain rfl := Option.some.inj hm'
    exact (ready_redraw (m := { m with draft := .empty }) hshows.toAnchored List.not_mem_nil h.copied
      hshows.onScreen).shown
  | copy =>
    obtain rfl := Option.some.inj hm'
    exact ⟨h.plain, h.plain, a, hshows, hcursor⟩
  | paste =>
    obtain rfl := Option.some.inj hm'
    exact h.paste h.copied
  | redraw =>
    obtain rfl := Option.some.inj hm'
    obtain ⟨hcolumn, b, hanchored⟩ := m.anchored_drawUi machine
    have hfits := hroom rfl
    have hwidth : vgaWidth = 80 := rfl
    exact (ready_redraw hanchored h.plain h.copied
      (by rw [hcolumn]; change 13 + m.draft.text.length < _; omega)).shown
  | enter => exact absurd rfl hstay

/-- **Enter.** The command writes behind the line that was entered. -/
theorem Session.Ready.enter (h : m.Ready) (hm' : m.edit machine.host .enter = some m') : m'.Shown := by
  obtain ⟨a, hshows, hrow, _⟩ := h.shows
  have hbelow : Below a := by
    refine ⟨hshows.refines.kept.sized, ?_, ?_⟩
    · rw [hrow]
      exact hshows.inRegion
    · rw [hrow]
      exact hshows.below
  rw [Session.edit] at hm'
  split at hm'
  · cases hm'
  · next rest terminal hcommand =>
    obtain rfl := Option.some.inj hm'
    obtain ⟨b, hrefines, hahead, hbottom⟩ :=
      processCommand_ahead machine hshows.refines hbelow hshows.bottom hcommand
    obtain ⟨hempty, hcursor⟩ := shows_of_ahead hahead hrefines hbottom
    exact ⟨List.not_mem_nil, h.copied, b, hempty, fun _ => hcursor⟩

/-- What a scancode can ask for: behind the extended prefix there are only the arrows and Delete,
and no key inserts a zero. -/
def Gesture.Regular : Gesture → Prop
  | .extended edit => edit = .moveLeft ∨ edit = .moveRight ∨ edit = .deleteAt
  | .key edit => edit ≠ some (.insert 0)
  | _ => True

theorem edit_ne_zero (k : Keys) (scancode : UInt8) : k.edit scancode ≠ some (.insert 0) := by
  unfold Keys.edit
  dsimp only
  split
  · simp
  next hchar =>
    split
    · simp
    split
    · simp
    split
    · simp
    split
    · simp
    split
    · simp
    split
    · simp
    · simpa using hchar

theorem extendedGesture_regular (scancode : UInt8) : (extendedGesture scancode).Regular := by
  unfold extendedGesture
  split
  · trivial
  split
  · trivial
  split
  · trivial
  split
  · exact Or.inl rfl
  split
  · exact Or.inr (Or.inl rfl)
  split
  · exact Or.inr (Or.inr rfl)
  · trivial

theorem decode_regular (k : Keys) (scancode : UInt8) : (k.decode scancode).2.Regular := by
  unfold Keys.decode
  split
  · trivial
  split
  · exact extendedGesture_regular scancode
  split
  · trivial
  split
  · trivial
  split
  · trivial
  split
  · trivial
  split
  · trivial
  dsimp only
  split
  · trivial
  · exact edit_ne_zero _ scancode

theorem Session.follow_draft (m : Session (Monitored κ)) : m.follow.draft = m.draft := by
  rw [follow]
  split
  · rfl
  · rfl

theorem Session.Shown.perform (h : m.Shown) {g : Gesture} (hregular : g.Regular)
    (hroom : g = .key (some .redraw) → m.draft.text.length ≤ 66)
    (hm' : m.perform machine.host g = some m') :
    m'.Shown := by
  cases g with
  | nothing =>
    obtain rfl := Option.some.inj hm'
    exact h
  | pageUp =>
    obtain rfl := Option.some.inj hm'
    exact h.pageUp
  | pageDown =>
    obtain ⟨n, hn, hshown⟩ := h.pageDown machine.host
    obtain rfl := Option.some.inj (hn.symm.trans hm')
    exact hshown
  | extended edit =>
    have hedit : m.edit machine.host edit = some m' := hm'
    rcases hregular with rfl | rfl | rfl
    · exact h.edit (by simp) (by simp) (by simp) hedit
    · exact h.edit (by simp) (by simp) (by simp) hedit
    · exact h.edit (by simp) (by simp) (by simp) hedit
  | key edit =>
    have hready := h.follow
    cases edit with
    | none =>
      obtain rfl := Option.some.inj hm'
      exact hready.shown
    | some edit =>
      by_cases henter : edit = .enter
      · subst henter
        exact hready.enter hm'
      · refine hready.shown.edit henter (fun c hc h0 => ?_) (fun hredraw => ?_) hm'
        · rw [hc, h0] at hregular
          exact hregular rfl
        · rw [m.follow_draft]
          exact hroom (by rw [hredraw])

end gestures

/-! ### The shell -/

/-- The characters of a row of the screen, from a column on. -/
def rowText (t : Terminal.State) (row column : Nat) : List UInt8 :=
  ((List.finRange vgaWidth).drop column).map fun x => glyph (t.screen row x)

/-- The input row shows the line that is edited: in the live view the cells from the prompt to the
last column hold the characters of the buffer and blanks behind them, and the cursor is as far
behind the prompt as the cursor of the line, on the screen. -/
structure RowShown {κ : Type} (s : Console κ) : Prop where
  onScreen : s.promptColumn + s.cursorIndex < 80
  cursor : s.terminal.viewOffset = 0 →
    s.terminal.terminalRow = s.promptRow ∧ s.terminal.terminalColumn = s.promptColumn + s.cursorIndex
  cells : s.terminal.viewOffset = 0 → rowText s.terminal s.promptRow s.promptColumn =
    segment s.inputBuffer 0 s.bufferIndex ++ List.replicate (80 - s.promptColumn - s.bufferIndex) blank

/-- The scancode is that of Ctrl+L: the key L, pressed anew while Ctrl is down. -/
def CtrlL (k : Keys) (scancode : UInt8) : Prop :=
  scancode = keyboardLScancode ∧ k.controlDown = true ∧ k.extendedPrefixPending = false ∧
    k.lastPressedScancode ≠ keyboardLScancode

/-- A line that Ctrl+L finds has at most 66 characters. -/
def RoomBehindPrompt {κ : Type} (s : Console (Monitored κ)) : Event κ → Prop
  | .scancode scancode => CtrlL s.toKeys scancode → s.bufferIndex ≤ 66
  | .idle _ => True

def idleKeys : Keys := ⟨0, false, false, false, false, false⟩

def rightArrows : Nat → List UInt8
  | 0 => []
  | n + 1 => keyboardExtendedScancodePrefix :: keyboardRightArrowScancode :: rightArrows n

theorem rowText_eq {t : Terminal.State} {row column : Nat} {text : List UInt8}
    (hfits : column + text.length < vgaWidth)
    (hcells : ∀ x : Fin vgaWidth, column ≤ x.val →
      glyph (t.screen row x) = text.getD (x.val - column) blank) :
    rowText t row column = text ++ List.replicate (80 - column - text.length) blank := by
  have hwidth : vgaWidth = 80 := rfl
  refine List.ext_getElem ?_ fun i hi hi' => ?_
  · simp only [rowText, List.length_map, List.length_drop, List.length_finRange, List.length_append,
      List.length_replicate]
    omega
  · simp only [rowText, List.length_map, List.length_drop, List.length_finRange] at hi
    simp only [rowText, List.getElem_map, List.getElem_drop, List.getElem_finRange]
    refine (hcells _ (by simp)).trans ?_
    simp only [Fin.val_cast, Nat.add_sub_cancel_left]
    by_cases htext : i < text.length
    · rw [List.getElem_append_left htext, List.getD_eq_getElem _ _ htext]
    · rw [List.getElem_append_right (not_lt.mp htext), List.getElem_replicate,
        List.getD_eq_default _ _ (not_lt.mp htext)]

section shell
variable {κ : Type} {machine : Machine κ} {s s' : Console (Monitored κ)} {m : Session (Monitored κ)}
variable {scancode : UInt8} {k : Keys}

/-- The shell stands where an editor does whose row shows its draft. -/
def Stands (s : Console (Monitored κ)) : Prop := ∃ m, Refines s m ∧ m.Shown

theorem Stands.rowShown (h : Stands s) : RowShown s := by
  obtain ⟨m, hrefines, hshown⟩ := h
  obtain ⟨a, hshows, hcursor⟩ := hshown.shows
  have hlength := hrefines.text_length
  have hindex := hrefines.line.holds.index_eq
  have hle := m.draft.cursor_le
  have hfits : m.promptColumn + m.draft.text.length < 80 := hshows.fits
  have hkept := hshows.refines.kept
  rw [← hrefines.terminal] at hkept
  refine ⟨?_, fun hlive => ?_, fun hlive => ?_⟩
  · rw [hrefines.promptColumn, hindex]
    omega
  · obtain ⟨hrow, hcolumn⟩ := hcursor (hkept.offset.symm.trans hlive)
    rw [hkept.row, hkept.column, hrefines.promptRow, hrefines.promptColumn, hindex]
    exact ⟨hrow, hcolumn⟩
  · rw [hrefines.line.holds.line, ← hlength, hrefines.promptRow, hrefines.promptColumn, hrefines.terminal]
    refine rowText_eq hshows.fits fun x hx => ?_
    rw [← hshows.refines.charAt (hkept.offset.symm.trans hlive) hshows.inRegion]
    exact hshows.cells x hx

theorem translate_l (k : Keys) : keyboardTranslateScancode k keyboardLScancode ≠ 0 := by
  unfold keyboardTranslateScancode
  cases keyboardShiftIsActive k with
  | false =>
    cases k.capsLockOn with
    | false => decide
    | true => decide
  | true =>
    cases k.capsLockOn with
    | false => decide
    | true => decide

theorem redraw_of_ctrlL (h : CtrlL k scancode) :
    (k.decode scancode).2 = .key (some .redraw) := by
  obtain ⟨rfl, hcontrol, hpending, hlast⟩ := h
  rw [Keys.decode, if_neg (by decide), if_neg (by rw [hpending]; decide), if_neg (by decide),
    if_neg (by decide), if_neg (by decide), if_neg (by decide), if_neg (Ne.symm hlast)]
  dsimp only
  rw [if_neg (by decide), Keys.edit]
  dsimp only
  rw [if_neg (translate_l _), if_neg (fun hkey => absurd hkey.2 (by decide)),
    if_neg (fun hkey => absurd hkey.2 (by decide)), if_neg (fun hkey => absurd hkey.2 (by decide)),
    if_pos ⟨hcontrol, rfl⟩]

theorem extendedGesture_ne_key (scancode : UInt8) (edit : Option Edit) :
    extendedGesture scancode ≠ .key edit := by
  unfold extendedGesture
  split_ifs <;> simp

theorem control_of_redraw (h : k.edit scancode = some .redraw) :
    k.controlDown = true ∧ scancode = keyboardLScancode := by
  unfold Keys.edit at h
  dsimp only at h
  split at h
  · cases h
  split at h
  · cases h
  split at h
  · cases h
  split at h
  · cases h
  split at h
  · next hl => exact hl
  split at h
  · cases h
  split at h
  · cases h
  · cases h

theorem ctrlL_of_redraw (h : (k.decode scancode).2 = .key (some .redraw)) :
    CtrlL k scancode := by
  unfold Keys.decode at h
  split at h
  · cases h
  split at h
  · exact absurd h (extendedGesture_ne_key scancode _)
  next hpending =>
    split at h
    · cases h
    split at h
    · cases h
    split at h
    · cases h
    split at h
    · cases h
    split at h
    · cases h
    next hlast =>
      dsimp only at h
      split at h
      · cases h
      · obtain ⟨hcontrol, rfl⟩ := control_of_redraw (Gesture.key.inj h)
        exact ⟨rfl, hcontrol, Bool.eq_false_iff.mpr hpending, Ne.symm hlast⟩

/-- **One step.** An admissible step leads to a row that shows the line. -/
theorem Stands.step (h : Stands s) {event : Event κ} (hroom : RoomBehindPrompt s event)
    (hstep : machine.step s event = some s') : Stands s' := by
  obtain ⟨m, hrefines, hshown⟩ := h
  cases event with
  | scancode scancode =>
    have hrel := hrefines.step machine.host (.scancode scancode)
    have hstep' : Shell.step machine.host s (.scancode scancode) = some s' := hstep
    rw [hstep'] at hrel
    obtain ⟨m', hm', hrefines'⟩ := rel_some_left hrel
    have hkeyed : Session.Shown { m with keys := (m.keys.decode scancode).1 } :=
      ⟨hshown.plain, hshown.copied, hshown.shows⟩
    refine ⟨m', hrefines', hkeyed.perform (decode_regular m.keys scancode) (fun hredraw => ?_) hm'⟩
    have hctrl := ctrlL_of_redraw hredraw
    rw [← hrefines.keys] at hctrl
    exact hrefines.text_length.trans_le (hroom hctrl)
  | idle kernel =>
    obtain ⟨a, hshows, hcursor⟩ := hshown.shows
    obtain rfl := Option.some.inj hstep
    obtain ⟨color, hrefreshed⟩ := kernelUiRefreshFooter_refines hshows.refines hshows.bottom
      (machine.vitals kernel)
      s.rest.lastMonitorSlot
    rw [← hrefines.terminal] at hrefreshed
    generalize kernelUiRefreshFooterIfNeeded (machine.vitals kernel) s.rest.lastMonitorSlot
      s.terminal = refreshed at *
    exact ⟨{ m with rest := ⟨kernel, refreshed.1⟩, terminal := refreshed.2 },
      { hrefines with rest := rfl, terminal := rfl }, hshown.plain, hshown.copied, { a with color },
      hshows.look hrefreshed ⟨rfl, rfl, rfl⟩, hcursor⟩

theorem boot_refines (machine : Machine κ) (s : Console (Monitored κ)) :
    ∃ m, Refines (machine.boot s) m ∧ m.Shown ∧ m.keys = idleKeys ∧ m.draft = .empty := by
  obtain ⟨a, hrefines, hahead, hbounds, _, _⟩ := kernelDrawUi_spec (machine.vitals s.rest.kernel)
    (machine.vitals (machine.later s.rest.kernel)) s.terminal
  obtain ⟨hshows, hcursor⟩ :=
    shows_of_ahead hahead hrefines ((congrArg Prod.snd hbounds).trans_lt (by decide))
  exact ⟨_, keyboardInit_refines _, ⟨List.not_mem_nil, List.not_mem_nil, a,
    hshows, fun _ => hcursor⟩, rfl, rfl⟩

theorem stands_boot (machine : Machine κ) (s : Console (Monitored κ)) : Stands (machine.boot s) := by
  obtain ⟨m, hrefines, hshown, _⟩ := boot_refines machine s
  exact ⟨m, hrefines, hshown⟩

/-! ### A line that is too long -/

theorem Refines.scancodes (h : Refines s m) (machine : Machine κ) (codes : List UInt8) :
    Option.Rel Refines (run machine.step s (codes.map .scancode))
      (run (Session.step machine.host) m (codes.map .scancode)) := by
  have hsame : ∀ (codes : List UInt8) (s : Console (Monitored κ)),
      run machine.step s (codes.map .scancode) = run (Shell.step machine.host) s (codes.map .scancode) := by
    intro codes
    induction codes with
    | nil => exact fun s => rfl
    | cons c codes ih =>
      intro s
      rw [List.map_cons, List.map_cons, run, run]
      exact congrArg _ (funext ih)
  rw [hsame]
  exact run_rel (fun _ _ input h => h.step machine.host input) h _

theorem Session.put_draft (m : Session (Monitored κ)) (draft : Zipper UInt8) :
    (m.put draft).draft = draft ∧ (m.put draft).promptColumn = m.promptColumn ∧
        (m.put draft).keys = m.keys := by
  unfold Session.put
  split
  · next heq => exact ⟨heq.symm, rfl, rfl⟩
  · exact ⟨rfl, rfl, rfl⟩

theorem Session.follow_place (m : Session (Monitored κ)) :
    m.follow.promptColumn = m.promptColumn := by
  rw [follow]
  split
  · rfl
  · rfl

theorem Session.step_ctrlL (machine : Machine κ) (h : CtrlL m.keys scancode) :
    ∃ m', m.step machine.host (.scancode scancode) = some m' ∧ m'.promptColumn = 13 ∧
        m'.draft = m.draft := by
  rw [Session.step, redraw_of_ctrlL h]
  obtain ⟨hcolumn, _⟩ :=
    ({ m with keys := (m.keys.decode scancode).1 } : Session _).follow.anchored_drawUi machine
  refine ⟨_, rfl, hcolumn, ?_⟩
  exact Session.follow_draft { m with keys := (m.keys.decode scancode).1 }

theorem Session.run_rightArrows (machine : Machine κ) (n : Nat) : ∀ m : Session (Monitored κ),
    ∃ m', run (Session.step machine.host) m ((rightArrows n).map .scancode) = some m' ∧
      m'.promptColumn = m.promptColumn ∧ m'.draft = Zipper.moveRight^[n] m.draft := by
  induction n with
  | zero => exact fun m => ⟨m, rfl, rfl, rfl⟩
  | succ n ih =>
    intro m
    obtain ⟨hdraft, hcolumn, _⟩ := Session.put_draft
      { m with keys := { m.keys with extendedPrefixPending := false } } m.draft.moveRight
    obtain ⟨m', hrun, hcolumn', hdraft'⟩ := ih
      (Session.put { m with keys := { m.keys with extendedPrefixPending := false } } m.draft.moveRight)
    refine ⟨m', hrun, hcolumn'.trans hcolumn, ?_⟩
    rw [hdraft', hdraft, Function.iterate_succ_apply]

theorem allowed_of_not_mem (machine : Machine κ) {codes : List UInt8} (h : keyboardLScancode ∉ codes)
    (s : Console (Monitored κ)) : Allowed machine.step RoomBehindPrompt s (codes.map .scancode) := by
  induction codes generalizing s with
  | nil => trivial
  | cons code codes ih =>
    rw [List.mem_cons, not_or] at h
    exact ⟨fun hctrl => absurd hctrl.1.symm h.1, fun s' _ => ih h.2 s'⟩

theorem not_mem_rightArrows (n : Nat) : keyboardLScancode ∉ rightArrows n := by
  induction n with
  | zero => exact List.not_mem_nil
  | succ n ih =>
    rw [rightArrows, List.mem_cons, List.mem_cons, not_or, not_or]
    exact ⟨by decide, by decide, ih⟩

/-- With more than 66 characters in the line Ctrl+L and the right arrow take the cursor off the screen. -/
theorem cursor_leaves_screen (hrefines : Refines s m) (machine : Machine κ)
    (hctrl : CtrlL s.toKeys scancode) (hlong : 66 < s.bufferIndex) :
    ∃ n s', run machine.step s ((scancode :: rightArrows n).map .scancode) = some s' ∧
      80 ≤ s'.promptColumn + s'.cursorIndex := by
  have hlength := hrefines.text_length
  obtain ⟨m₁, hm₁, hcolumn, hdraft⟩ := Session.step_ctrlL machine (m := m) (hrefines.keys ▸ hctrl)
  obtain ⟨m₂, hm₂, hcolumn', hdraft'⟩ := Session.run_rightArrows machine s.bufferIndex m₁
  have hrun : run (Session.step machine.host) m
      ((scancode :: rightArrows s.bufferIndex).map .scancode) = some m₂ := by
    rw [List.map_cons, run, hm₁, Option.bind_some, hm₂]
  have hrel := hrefines.scancodes machine (scancode :: rightArrows s.bufferIndex)
  rw [hrun] at hrel
  obtain ⟨s', hs', hrefines'⟩ := rel_some_right hrel
  refine ⟨s.bufferIndex, s', hs', ?_⟩
  rw [hrefines'.promptColumn, hrefines'.line.holds.index_eq, hcolumn', hcolumn, hdraft', hdraft,
    cursor_moveRight_iterate, hlength]
  omega

end shell

/-! ### Filling the row -/

section filling
variable {κ : Type} {m : Session (Monitored κ)}
variable {n : Nat}

def typeH : Nat → List UInt8
  | 0 => []
  | n + 1 => 0x23 :: 0xA3 :: typeH n

theorem Session.run_type_one (machine : Machine κ) (hkeys : m.keys = idleKeys) (hafter : m.draft.after = [])
    (hroom : m.draft.before.length < lineLimit m.promptColumn) :
    ∃ m', run (Session.step machine.host) m ([0x23, 0xA3].map .scancode) = some m' ∧ m'.keys = idleKeys ∧
      m'.promptColumn = m.promptColumn ∧ m'.draft = m.draft.insert 0x68 := by
  have hpress : m.keys.decode 0x23 = ({ idleKeys with lastPressedScancode := 0x23 },
      .key (some (.insert 0x68))) := by
    rw [hkeys]
    decide
  have hrelease : Keys.decode { idleKeys with lastPressedScancode := 0x23 } 0xA3 =
    (idleKeys, .nothing) := by decide
  obtain ⟨n, hn⟩ : ∃ n : Session (Monitored κ),
      Session.follow { m with keys := { idleKeys with lastPressedScancode := 0x23 } } = n := ⟨_, rfl⟩
  have hnkeys : n.keys = { idleKeys with lastPressedScancode := 0x23 } := by
    rw [← hn, Session.follow_keys]
  have hncolumn : n.promptColumn = m.promptColumn := by
    rw [← hn, Session.follow_place]
  have hndraft : n.draft = m.draft := by
    rw [← hn, Session.follow_draft]
  have hlength : n.draft.text.length < lineLimit n.promptColumn := by
    rw [hndraft, hncolumn, length_text, hafter]
    exact hroom
  obtain ⟨hdraft, hcolumn, hkeys'⟩ := n.put_draft (n.draft.insert 0x68)
  have hfirst : m.step machine.host (.scancode 0x23) = some (n.put (n.draft.insert 0x68)) := by
    rw [Session.step, hpress]
    change some ((Session.follow _).insert 0x68) = _
    rw [hn, Session.insert, if_pos hlength]
  refine ⟨{ n.put (n.draft.insert 0x68) with keys := idleKeys }, ?_, rfl, hcolumn.trans hncolumn, ?_⟩
  · rw [List.map_cons, run, hfirst, Option.bind_some, List.map_cons, run, Session.step, hkeys',
      hnkeys, hrelease]
    rfl
  · exact hdraft.trans (congrArg (·.insert 0x68) hndraft)

theorem Session.run_typeH (machine : Machine κ) (n : Nat) :
    ∀ {m : Session (Monitored κ)}, m.keys = idleKeys →
    m.draft.after = [] → m.draft.before.length + n ≤ lineLimit m.promptColumn →
    ∃ m', run (Session.step machine.host) m ((typeH n).map .scancode) = some m' ∧ m'.keys = idleKeys ∧
      m'.draft.text.length = m.draft.before.length + n ∧ m'.draft.cursor = m.draft.before.length + n := by
  induction n with
  | zero =>
    intro m hkeys hafter _
    exact ⟨m, rfl, hkeys, by rw [length_text, hafter]; rfl, rfl⟩
  | succ n ih =>
    intro m hkeys hafter hroom
    obtain ⟨m₁, hm₁, hkeys₁, hcolumn₁, hdraft₁⟩ := Session.run_type_one machine hkeys hafter (by omega)
    have hbefore : m₁.draft.before.length = m.draft.before.length + 1 := by
      rw [hdraft₁]
      rfl
    obtain ⟨m₂, hm₂, hkeys₂, hlength, hcursor⟩ := ih hkeys₁ (by rw [hdraft₁]; exact hafter)
      (by rw [hbefore, hcolumn₁]; omega)
    refine ⟨m₂, ?_, hkeys₂, by omega, by omega⟩
    rw [show typeH (n + 1) = [0x23, 0xA3] ++ typeH n from rfl, List.map_append, run_append, hm₁,
      Option.bind_some, hm₂]

theorem Session.run_enter (machine : Machine κ) (hshown : m.Shown) (hkeys : m.keys = idleKeys)
    (hempty : m.draft = .empty) :
    ∃ m', run (Session.step machine.host) m ([0x1C, 0x9C].map .scancode) = some m' ∧ m'.keys = idleKeys ∧
      m'.promptColumn = 12 ∧ m'.draft = .empty := by
  have hpress : m.keys.decode 0x1C = ({ idleKeys with lastPressedScancode := 0x1C },
      .key (some .enter)) := by
    rw [hkeys]
    decide
  have hrelease : Keys.decode { idleKeys with lastPressedScancode := 0x1C } 0x9C =
    (idleKeys, .nothing) := by decide
  have hkeyed : Session.Shown { m with keys := { idleKeys with lastPressedScancode := 0x1C } } :=
    ⟨hshown.plain, hshown.copied, hshown.shows⟩
  have hready := hkeyed.follow
  obtain ⟨n, hn⟩ : ∃ n : Session (Monitored κ),
      Session.follow { m with keys := { idleKeys with lastPressedScancode := 0x1C } } = n := ⟨_, rfl⟩
  have hnkeys : n.keys = { idleKeys with lastPressedScancode := 0x1C } := by
    rw [← hn, Session.follow_keys]
  have hntext : n.draft.text = [] := by
    rw [← hn, Session.follow_draft]
    change m.draft.text = []
    rw [hempty]
    rfl
  rw [hn] at hready
  obtain ⟨a, hshows, _⟩ := hready.shows
  have hcommand : machine.host.processCommand n.draft.text n.rest n.terminal =
      some (n.rest, terminalOutput (terminalPutchar n.terminal 0x0A) promptOutput) := by
    rw [hntext]
    rfl
  have hprompt := (hshows.refines.putchar 0x0A).output promptOutput
  have hstart : (a.putchar 0x0A).column = 0 := by
    change a.nextRow.column = 0
    unfold Log.nextRow
    split
    · rfl
    · rfl
  have hcolumn := (prompt_cursor (a := a.putchar 0x0A) (by rw [hstart]; decide)).2
  rw [hstart] at hcolumn
  have hplace := hprompt.kept.column.trans hcolumn
  generalize terminalOutput (terminalPutchar n.terminal 0x0A) promptOutput = t at hcommand hplace
  have hfirst : m.step machine.host (.scancode 0x1C) =
      some (Session.anchored { n with draft := .empty, commands := n.commands ++ [n.draft.text] }
        n.rest t) := by
    rw [Session.step, hpress]
    change Session.edit machine.host (Session.follow _) .enter = _
    rw [hn, Session.edit, hcommand]
  refine ⟨{ Session.anchored { n with
      draft := .empty, commands := n.commands ++ [n.draft.text] } n.rest t with
    keys := idleKeys }, ?_, rfl, hplace, rfl⟩
  have hkeys' : (Session.anchored { n with
      draft := .empty, commands := n.commands ++ [n.draft.text] } n.rest t).keys =
        { idleKeys with lastPressedScancode := 0x1C } := hnkeys
  rw [List.map_cons, run, hfirst, Option.bind_some, List.map_cons, run, Session.step, hkeys', hrelease]
  rfl

def controlKeys : Keys := { idleKeys with controlDown := true, lastPressedScancode := keyboardCtrlScancode }

/-- Enter, and then `n` characters and the key Ctrl. -/
def fill (n : Nat) : List UInt8 := [0x1C, 0x9C] ++ typeH n ++ [keyboardCtrlScancode]

/-- Up to 67 characters fit behind the prompt of a command; Ctrl+L then keeps the line. -/
theorem Session.run_fill (machine : Machine κ) (hshown : m.Shown) (hkeys : m.keys = idleKeys)
    (hempty : m.draft = .empty) (hn : n ≤ 67) :
    ∃ m₁ m₂, run (Session.step machine.host) m ((fill n).map .scancode) = some m₁ ∧
      CtrlL m₁.keys keyboardLScancode ∧ m₁.draft.text.length = n ∧
      m₁.step machine.host (.scancode keyboardLScancode) = some m₂ ∧
      m₂.promptColumn = 13 ∧ m₂.draft.text.length = n ∧ m₂.draft.cursor = n := by
  obtain ⟨m₁, hm₁, hkeys₁, hcolumn₁, hdraft₁⟩ := Session.run_enter machine hshown hkeys hempty
  have hbefore : m₁.draft.before.length = 0 := by
    rw [hdraft₁]
    rfl
  have hlimit : lineLimit m₁.promptColumn = 67 := by
    rw [hcolumn₁]
    rfl
  obtain ⟨m₂, hm₂, hkeys₂, hlength, hcursor⟩ := Session.run_typeH machine n hkeys₁ (by rw [hdraft₁]; rfl)
    (by rw [hbefore, hlimit]; omega)
  have hdown : m₂.keys.decode keyboardCtrlScancode = (controlKeys, .nothing) := by
    rw [hkeys₂]
    decide
  have hcontrol : m₂.step machine.host (.scancode keyboardCtrlScancode) =
      some { m₂ with keys := controlKeys } := by
    rw [Session.step, hdown]
    rfl
  have hctrl : CtrlL controlKeys keyboardLScancode := ⟨rfl, rfl, rfl, by decide⟩
  obtain ⟨m₃, hm₃, hcolumn₃, hdraft₃⟩ :=
    Session.step_ctrlL machine (m := { m₂ with keys := controlKeys }) hctrl
  rw [hbefore, Nat.zero_add] at hlength hcursor
  refine ⟨{ m₂ with keys := controlKeys }, m₃, ?_, hctrl, hlength, hm₃, hcolumn₃, ?_, ?_⟩
  · rw [fill, List.map_append, List.map_append, run_append, run_append, hm₁, Option.bind_some, hm₂,
      Option.bind_some, List.map_cons, run, hcontrol]
    rfl
  · rw [hdraft₃]
    exact hlength
  · rw [hdraft₃]
    exact hcursor

/-- The same from the start of the shell: the line has `n` characters when Ctrl+L is pressed and
afterwards, and the new prompt ends in column 13. -/
theorem run_fill_boot (machine : Machine κ) (s₀ : Console (Monitored κ)) (hn : n ≤ 67) :
    ∃ s₁ s₂, run machine.step (machine.boot s₀) ((fill n).map .scancode) = some s₁ ∧
      CtrlL s₁.toKeys keyboardLScancode ∧ s₁.bufferIndex = n ∧
      machine.step s₁ (.scancode keyboardLScancode) = some s₂ ∧
      s₂.promptColumn = 13 ∧ s₂.bufferIndex = n ∧ s₂.cursorIndex = n := by
  obtain ⟨m, hrefines, hshown, hkeys, hempty⟩ := boot_refines machine s₀
  obtain ⟨m₁, m₂, hm₁, hctrl, hlength₁, hm₂, hcolumn, hlength, hcursor⟩ :=
    Session.run_fill machine hshown hkeys hempty hn
  have hrel₁ := hrefines.scancodes machine (fill n)
  rw [hm₁] at hrel₁
  obtain ⟨s₁, hs₁, hrefines₁⟩ := rel_some_right hrel₁
  have hrel₂ := hrefines₁.step machine.host (.scancode keyboardLScancode)
  rw [hm₂] at hrel₂
  obtain ⟨s₂, hs₂, hrefines₂⟩ := rel_some_right hrel₂
  exact ⟨s₁, s₂, hs₁, hrefines₁.keys ▸ hctrl, hrefines₁.text_length.symm.trans hlength₁, hs₂,
    hrefines₂.promptColumn.trans hcolumn, hrefines₂.text_length.symm.trans hlength,
    hrefines₂.line.holds.index_eq.trans hcursor⟩

theorem run_fill_redraw {machine : Machine κ} {s s₁ s₂ : Console (Monitored κ)}
    (h₁ : run machine.step s ((fill n).map .scancode) = some s₁)
    (h₂ : machine.step s₁ (.scancode keyboardLScancode) = some s₂) :
    run machine.step s ((fill n ++ [keyboardLScancode]).map .scancode) = some s₂ := by
  rw [List.map_append, run_append, h₁, Option.bind_some, List.map_singleton, run, h₂]
  rfl

end filling

/-! ### The result -/

/-- **The input row.** In every state of a run in which Ctrl+L is only pressed with at most 66
characters in the line, the input row shows the line. Where Ctrl+L is pressed next, the row still
shows the line, however far the cursor then moves to the right, if and only if the line has at most
66 characters. -/
theorem input_row_shown_iff {κ : Type} (machine : Machine κ) (s₀ : Console (Monitored κ))
    (events : List (Event κ)) {s : Console (Monitored κ)}
    (hallowed : Allowed machine.step RoomBehindPrompt (machine.boot s₀) events)
    (hrun : run machine.step (machine.boot s₀) events = some s) :
    RowShown s ∧ ∀ scancode, CtrlL s.toKeys scancode →
      ((∀ n s', run machine.step s ((scancode :: rightArrows n).map .scancode) = some s' → RowShown s') ↔
        s.bufferIndex ≤ 66) := by
  have hstep : ∀ (s : Console (Monitored κ)) event s', Stands s → RoomBehindPrompt s event →
      machine.step s event = some s' → Stands s' := fun s event s' h hroom hs' => h.step hroom hs'
  have hstands := run_keeps hstep (stands_boot machine s₀) hallowed hrun
  refine ⟨hstands.rowShown, fun scancode hctrl => ⟨fun hall => ?_, fun hroom n s' hs' => ?_⟩⟩
  · by_contra hlong
    obtain ⟨m, hrefines, _⟩ := hstands
    obtain ⟨n, s', hs', hoff⟩ := cursor_leaves_screen hrefines machine hctrl (not_le.mp hlong)
    exact absurd (hall n s' hs').onScreen (not_lt.mpr hoff)
  · refine (run_keeps hstep hstands ?_ hs').rowShown
    exact ⟨fun _ => hroom, fun s'' _ => allowed_of_not_mem machine (not_mem_rightArrows n) s''⟩

def quietMachine : Machine Unit where
  vitals _ := ⟨0, 0, 0, 0, 0, false, false, 0⟩
  later := id
  execute _ _ := some ((), [])

def bareConsole : Console (Monitored Unit) where
  toKeyboard := ⟨idleKeys, fun _ => 0, fun _ => 0, 0, 0, 0, 0, 0⟩
  terminal := blankScreen
  rest := ⟨(), 0⟩
  commands := []

/-- Enter, 66 characters behind the prompt in column 12, and Ctrl+L: the row shows the 66 characters
behind the prompt in column 13, also when the cursor is moved to the right. -/
theorem input_row_shown_at_boot :
    ∃ s₁ s₂, run quietMachine.step (quietMachine.boot bareConsole) ((fill 66).map .scancode) = some s₁ ∧
      (∀ n s', run quietMachine.step s₁ ((keyboardLScancode :: rightArrows n).map .scancode) =
        some s' → RowShown s') ∧
      run quietMachine.step (quietMachine.boot bareConsole)
      ((fill 66 ++ [keyboardLScancode]).map .scancode) = some s₂ ∧
      s₂.promptColumn = 13 ∧ s₂.bufferIndex = 66 ∧ s₂.cursorIndex = 66 ∧ RowShown s₂ := by
  obtain ⟨s₁, s₂, hs₁, hctrl, hlength₁, hs₂, hcolumn, hlength, hcursor⟩ :=
    run_fill_boot quietMachine bareConsole (n := 66) (by decide)
  have hfill : Allowed quietMachine.step RoomBehindPrompt (quietMachine.boot bareConsole)
      ((fill 66).map .scancode) := allowed_of_not_mem quietMachine (by decide) _
  have hredraw : Allowed quietMachine.step RoomBehindPrompt (quietMachine.boot bareConsole)
      ((fill 66 ++ [keyboardLScancode]).map .scancode) := by
    rw [List.map_append]
    refine hfill.append fun s hs => ⟨fun _ => ?_, fun _ _ => trivial⟩
    obtain rfl := Option.some.inj (hs₁.symm.trans hs)
    exact hlength₁.le
  have hrun := run_fill_redraw hs₁ hs₂
  have hright := (input_row_shown_iff quietMachine bareConsole _ hfill hs₁).2 _ hctrl
  exact ⟨s₁, s₂, hs₁, hright.mpr hlength₁.le, hrun, hcolumn, hlength, hcursor,
    (input_row_shown_iff quietMachine bareConsole _ hredraw hrun).1⟩

/-- With one character more the cursor belongs to column 80, which the screen does not have. -/
theorem ctrl_l_cursor_off_screen :
    ∃ s, run quietMachine.step (quietMachine.boot bareConsole)
      ((fill 67 ++ [keyboardLScancode]).map .scancode) = some s ∧
      s.promptColumn = 13 ∧ s.bufferIndex = 67 ∧ s.cursorIndex = 67 ∧ ¬RowShown s := by
  obtain ⟨s₁, s₂, hs₁, -, -, hs₂, hcolumn, hlength, hcursor⟩ :=
    run_fill_boot quietMachine bareConsole (n := 67) le_rfl
  refine ⟨s₂, run_fill_redraw hs₁ hs₂, hcolumn, hlength, hcursor, fun hrow => ?_⟩
  have honScreen := hrow.onScreen
  omega

end TermobKernel.Shell

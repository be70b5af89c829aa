import TermobKernel.Terminal.Model
import TermobKernel.Library.Ring

/-!
# The terminal is a view of an unbounded log

The log is a list of lines that only grows: a cell that is written changes one of the last lines, as many as
the region has rows, and a scroll appends a blank line. The history keeps the last 1024 lines of it, and the
region of the screen shows a part of them. Every call either changes the log, the history and the screen in
the same way, or draws the region again from the history; the second repairs whatever the screen showed
before (`Kept.sync`), so that the invariant splits into the history and the screen.
-/

namespace TermobKernel.Terminal
open TermobKernel.Ring

variable {s : State}

/-! ### The log -/

/-- An unbounded log with a cursor, of which a region shows the lines that end `offset` lines before
the end. -/
structure Log where
  lines : List Line
  top : Nat
  bottom : Nat
  row : Nat
  column : Nat
  color : UInt8
  offset : Nat

namespace Log

def height (a : Log) : Nat := a.bottom - a.top + 1

def depth (a : Log) : Nat := min a.lines.length terminalScrollbackLines - a.height

def write (a : Log) (c color : UInt8) (x y : Nat) : Log :=
  if hx : x < vgaWidth ∧ y < vgaHeight ∧ a.top ≤ y ∧ y ≤ a.bottom then
    { a with
      lines := a.lines.modify (a.lines.length - a.height + (y - a.top))
        (Function.update · ⟨x, hx.1⟩ (vgaEntry c color))
      offset := 0 }
  else a

def scroll (a : Log) : Log :=
  { a with lines := a.lines ++ [blankLine a.color], offset := 0, row := a.bottom, column := 0 }

def nextRow (a : Log) : Log :=
  if a.row + 1 > a.bottom then scroll a else { a with row := a.row + 1, column := 0 }

def putchar (a : Log) (c : UInt8) : Log :=
  if c = 0x0A then nextRow a
  else
    let a' := a.write c a.color a.column a.row
    if a.column + 1 ≥ vgaWidth then nextRow a' else { a' with column := a.column + 1 }

def writeText (a : Log) (data : List UInt8) : Log := (data.takeWhile (· ≠ 0)).foldl putchar a

def rectangle (x y w h : UInt32) : List (Nat × Nat) :=
  (List.range' y.toNat (min (y + h).toNat vgaHeight - y.toNat)).flatMap fun yy =>
    (List.range' x.toNat (min (x + w).toNat vgaWidth - x.toNat)).map fun xx => (xx, yy)

def look (a : Log) (offset : Nat) : Log := { a with offset, row := a.bottom, column := 0 }

def step (a : Log) : Op → Log
  | .setcolor fg bg => { a with color := terminalMakeColor fg bg }
  | .putchar c => a.putchar c
  | .write data => a.writeText data
  | .putentryat c color x y => a.write c color x y
  | .fillRect x y w h color => (rectangle x y w h).foldl (fun a p => a.write 0x20 color p.1 p.2) a
  | .setCursor x y =>
    { a with column := if x < vgaWidth then x else a.column, row := if y < vgaHeight then y else a.row }
  | .follow => { a with offset := 0 }
  | .lineUp => if a.offset < a.depth then a.look (a.offset + 1) else a
  | .lineDown => if a.offset = 0 then a else a.look (a.offset - 1)
  | .pageUp => if a.offset < a.depth then a.look (min (a.offset + scrollbackPage a.height) a.depth) else a
  | .pageDown => if a.offset = 0 then a else a.look (a.offset - scrollbackPage a.height)

/-- The log that starts with what the region of the screen shows. -/
def ofScreen (s : State) : Log where
  lines := (List.range (terminalRegionHeight s)).map fun y => s.screen (s.regionTop + y)
  top := s.regionTop
  bottom := s.regionBottom
  row := s.terminalRow
  column := s.terminalColumn
  color := s.terminalColor
  offset := 0

end Log

/-! ### The invariant -/

/-- The history is the end of the log. -/
structure Kept (s : State) (a : Log) : Prop where
  top : s.regionTop = a.top
  bottom : s.regionBottom = a.bottom
  row : s.terminalRow = a.row
  column : s.terminalColumn = a.column
  color : s.terminalColor = a.color
  offset : s.viewOffset = a.offset
  region : a.top ≤ a.bottom ∧ a.bottom < vgaHeight
  full : a.height ≤ a.lines.length
  reach : a.offset ≤ a.depth
  head : s.head < terminalScrollbackLines
  count : s.count = min a.lines.length terminalScrollbackLines
  ring : contents s.history terminalScrollbackLines s.head s.count = last terminalScrollbackLines a.lines
  live : s.syncing = false

/-- The region of the screen is the part of the log in view. -/
def Shown (s : State) (a : Log) : Prop :=
  ∀ y < a.height, a.lines[a.lines.length - a.height - a.offset + y]? = some (s.screen (a.top + y))

structure Refines (s : State) (a : Log) : Prop where
  kept : Kept s a
  shown : Shown s a

section kept
variable {s : State} {a : Log}

theorem Kept.height (h : Kept s a) : terminalRegionHeight s = a.height := by
  rw [terminalRegionHeight, Log.height, h.top, h.bottom]

theorem Kept.sizes (h : Kept s a) :
    a.height ≤ s.count ∧ s.count ≤ a.lines.length ∧ s.count ≤ 1024 ∧ a.offset ≤ s.count - a.height ∧
      a.lines.length - 1024 = a.lines.length - s.count := by
  have hcount := h.count
  have hreach := h.reach
  have hfull := h.full
  obtain ⟨hle, hlt⟩ := h.region
  unfold Log.depth at hreach
  unfold Log.height at *
  unfold terminalScrollbackLines at hcount hreach
  unfold vgaHeight at hlt
  omega

theorem Kept.line (h : Kept s a) {i : Nat} (hi : i < s.count) :
    a.lines[a.lines.length - s.count + i]? = some (scrollbackLineSlot s i) := by
  have hslot : (contents s.history terminalScrollbackLines s.head s.count)[i]? =
      some (scrollbackLineSlot s i) :=
    contents_getElem? s.history hi
  rw [h.ring, last_getElem?, ← h.count] at hslot
  exact hslot

theorem Kept.maxOffset (h : Kept s a) : scrollbackMaxOffset s = a.depth := by
  obtain ⟨hheight, _⟩ := h.sizes
  rw [scrollbackMaxOffset, Log.depth, h.height, ← h.count]
  split
  · omega
  · rfl

theorem Kept.visibleTop (h : Kept s a) :
    scrollbackVisibleTopLogical s = (s.count - a.height - a.offset, s) := by
  obtain ⟨hheight, _, _, hoffset, _⟩ := h.sizes
  have hreach := h.reach
  unfold scrollbackVisibleTopLogical
  rw [h.height]
  split
  · rw [show s.count - a.height - a.offset = 0 by omega]
  · rw [if_neg (by rw [h.maxOffset, h.offset]; omega)]
    dsimp only
    rw [h.height, h.offset]

theorem Kept.draw (h : Kept s a) (screen : Nat → Line) : Kept { s with screen } a := { h with }

theorem Refines.move (h : Refines s a) (row column : Nat) :
    Refines { s with terminalRow := row, terminalColumn := column } { a with row, column } :=
  ⟨{ h.kept with row := rfl, column := rfl }, h.shown⟩

theorem Refines.column (h : Refines s a) (column : Nat) :
    Refines { s with terminalColumn := column } { a with column } :=
      ⟨{ h.kept with column := rfl }, h.shown⟩

theorem Refines.shown_live (h : Refines s a) (hlive : a.offset = 0) {y : Nat} (hy : y < a.height) :
    a.lines[a.lines.length - a.height + y]? = some (s.screen (a.top + y)) := by
  have hline := h.shown y hy
  rwa [hlive, Nat.sub_zero] at hline

end kept

/-! ### Drawing from the history -/

def drawnLine (s : State) (topLogical y : Nat) : Line :=
  if topLogical + y < s.count then scrollbackLineSlot s (topLogical + y) else blankLine s.terminalColor

def drawn (s : State) (topLogical rounds y : Nat) : Nat → Line := fun r =>
  if s.regionTop + y ≤ r ∧
      r < s.regionTop + y + rounds then drawnLine s topLogical (r - s.regionTop) else s.screen r

theorem scrollbackSyncRows_eq (topLogical : Nat) : ∀ (rounds y : Nat) (s : State),
    scrollbackSyncRows topLogical rounds y s = { s with screen := drawn s topLogical rounds y } := by
  intro rounds
  induction rounds with
  | zero =>
    intro y s
    have hsame : drawn s topLogical 0 y = s.screen := by
      funext r
      rw [drawn, if_neg (by omega)]
    rw [hsame, scrollbackSyncRows]
  | succ rounds ih =>
    intro y s
    rw [scrollbackSyncRows, ih]
    congr 1
    funext r
    -- row `y` is drawn in this round, the rows behind it in the later ones
    change (if s.regionTop + (y + 1) ≤ r ∧ r < s.regionTop + (y + 1) + rounds then
        drawnLine s topLogical (r - s.regionTop)
      else Function.update s.screen (s.regionTop + y) (drawnLine s topLogical y) r) =
        drawn s topLogical (rounds + 1) y r
    rw [drawn, Function.update_apply]
    by_cases hrow : r = s.regionTop + y
    · rw [if_neg (by omega), if_pos hrow, if_pos (by omega), hrow, Nat.add_sub_cancel_left]
    · rw [if_neg hrow]
      by_cases hlater : s.regionTop + (y + 1) ≤ r ∧ r < s.regionTop + (y + 1) + rounds
      · rw [if_pos hlater, if_pos (by omega)]
      · rw [if_neg hlater, if_neg (by omega)]

section drawing
variable {s : State} {a : Log}

/-- Drawing the region from the history makes the screen right, whatever it showed before. -/
theorem Kept.sync (h : Kept s a) : Refines (scrollbackSyncRegionFromHistory s) a := by
  obtain ⟨hheight, hcount, _, hoffset, _⟩ := h.sizes
  have hdrawn : scrollbackSyncRegionFromHistory s =
      { s with screen := drawn s (s.count - a.height - a.offset) a.height 0 } := by
    unfold scrollbackSyncRegionFromHistory
    rw [h.visibleTop, h.height]
    dsimp only
    rw [scrollbackSyncRows_eq]
    dsimp only
    rw [← h.live]
    rfl
  rw [hdrawn]
  refine ⟨h.draw _, fun y hy => ?_⟩
  have hline := h.line (i := s.count - a.height - a.offset + y) (by omega)
  rw [show a.lines.length - s.count + (s.count - a.height - a.offset + y) =
    a.lines.length - a.height - a.offset + y by omega] at hline
  rw [hline]
  change _ = some (drawn s (s.count - a.height - a.offset) a.height 0 (a.top + y))
  rw [drawn, h.top, if_pos (by omega), drawnLine, Nat.add_sub_cancel_left, if_pos (by omega)]

theorem Kept.syncView (h : Kept s a) :
    Refines (scrollbackSyncViewAfterScroll s) { a with row := a.bottom, column := 0 } := by
  have hsync := h.sync
  exact ⟨{ hsync.kept with row := hsync.kept.bottom, column := rfl }, hsync.shown⟩

theorem Kept.view (h : Kept s a) {offset : Nat} (hreach : offset ≤ a.depth) :
    Kept { s with viewOffset := offset } { a with offset } := { h with offset := rfl, reach := hreach }

theorem Refines.look (h : Refines s a) {offset : Nat} (hreach : offset ≤ a.depth) :
    Refines (scrollbackSyncViewAfterScroll { s with viewOffset := offset }) (a.look offset) :=
  (h.kept.view hreach).syncView

theorem Kept.append (h : Kept s a) (hlive : a.offset = 0) (line : Line) :
    Kept (setHistory (scrollbackAppendBlankLine s).2 (scrollbackAppendBlankLine s).1 line)
      { a with lines := a.lines ++ [line] } := by
  have hring := h.ring
  have hcount := h.count
  have hhead := h.head
  have hfull := h.full
  have hlength : (a.lines ++ [line]).length = a.lines.length + 1 := List.length_append
  have hfits : a.height ≤ (a.lines ++ [line]).length := by omega
  have hreach : a.offset ≤ Log.depth { a with lines := a.lines ++ [line] } := by omega
  have hsize : 0 < terminalScrollbackLines := by decide
  unfold scrollbackAppendBlankLine
  by_cases hroom : s.count < terminalScrollbackLines
  · rw [if_pos hroom]
    have hall : s.count = a.lines.length := by omega
    rw [hall] at hring
    have hnew := contents_concat_room (by omega) hring line
    refine { h with full := hfits, reach := hreach, count := ?_, ring := ?_ }
    · change s.count + 1 = min (a.lines ++ [line]).length terminalScrollbackLines
      omega
    · change contents (Function.update (Function.update s.history _ _) _ line) _ s.head (s.count + 1) = _
      rw [Function.update_idem, scrollbackLogicalToPhysical, hall]
      exact hnew
  · rw [if_neg hroom]
    have hall : s.count = terminalScrollbackLines := by omega
    rw [hall] at hring
    have hnew := contents_concat_full hsize hhead (by omega) hring line
    refine { h with full := hfits, reach := hreach, head := Nat.mod_lt _ hsize, count := ?_, ring := ?_ }
    · change s.count = min (a.lines ++ [line]).length terminalScrollbackLines
      omega
    · change contents (Function.update (Function.update s.history _ _) _ line) _ _ s.count = _
      rw [Function.update_idem, scrollbackLogicalToPhysical, hall]
      exact hnew

theorem append_blank {line : Line} (hline : line = blankLine s.terminalColor) :
    setHistory (scrollbackAppendBlankLine s).2 (scrollbackAppendBlankLine s).1 line =
      (scrollbackAppendBlankLine s).2 := by
  subst hline
  unfold scrollbackAppendBlankLine
  split
  · dsimp only [setHistory]
    rw [Function.update_idem]
  · dsimp only [setHistory]
    rw [Function.update_idem]

theorem Refines.scroll (h : Refines s a) : Refines (terminalScroll s) a.scroll := by
  have hlive : Kept { s with viewOffset := 0 } { a with offset := 0 } := h.kept.view (Nat.zero_le _)
  have happend := hlive.append rfl (blankLine a.color)
  rw [append_blank (congrArg blankLine hlive.color.symm)] at happend
  exact happend.syncView

end drawing

/-! ### Writing a cell -/

section writing
variable {s : State} {a : Log}

theorem Refines.leaveView (h : Refines s a) {y : Nat} (hy : a.top ≤ y ∧ y ≤ a.bottom) :
    Refines (terminalLeaveView s y) { a with offset := 0 } := by
  have htop := h.kept.top
  have hbottom := h.kept.bottom
  have hoffset := h.kept.offset
  unfold terminalLeaveView
  split
  · exact (h.kept.view (Nat.zero_le _)).sync
  · next hstay =>
    have hzero : a.offset = 0 := by
      by_contra hne
      exact hstay ⟨h.kept.live, by omega, by omega, by omega⟩
    have hsame : ({ a with offset := 0 } : Log) = a := by rw [← hzero]
    rw [hsame]
    exact h

theorem Kept.cell (h : Kept s a) (hlive : a.offset = 0) {x : Fin vgaWidth} {y : Nat} (entry : UInt16)
    (hy : a.top ≤ y ∧ y ≤ a.bottom) :
    Kept (scrollbackUpdateCell s x y entry)
      { a with
        lines := a.lines.modify (a.lines.length - a.height + (y - a.top)) (Function.update · x entry) } ∧
      (scrollbackUpdateCell s x y entry).screen = s.screen := by
  obtain ⟨hheight, hcount, hmax, _, hdrop⟩ := h.sizes
  have hrow : y - a.top < a.height := by
    unfold Log.height
    omega
  have hlines : terminalScrollbackLines = 1024 := rfl
  have hslot := h.line (i := s.count - a.height + (y - a.top)) (by omega)
  rw [show a.lines.length - s.count + (s.count - a.height + (y - a.top)) =
    a.lines.length - a.height + (y - a.top) by omega] at hslot
  have hupdate : scrollbackUpdateCell s x y entry =
      setHistory s (scrollbackLogicalToPhysical s (s.count - a.height + (y - a.top)))
        (Function.update (scrollbackLineSlot s (s.count - a.height + (y - a.top))) x entry) := by
    unfold scrollbackUpdateCell
    rw [if_neg (by rw [h.top, h.bottom]; omega), h.visibleTop]
    dsimp only
    rw [h.top, hlive, Nat.sub_zero, if_neg (by omega)]
  rw [hupdate]
  refine ⟨{ h with full := ?_, reach := ?_, count := ?_, ring := ?_ }, rfl⟩
  · rw [List.length_modify]
    exact h.full
  · have hreach := h.reach
    unfold Log.depth Log.height at hreach ⊢
    rwa [List.length_modify]
  · rw [List.length_modify]
    exact h.count
  · rw [List.modify_eq_set_getElem?, hslot]
    simp only [Option.map_eq_map, Option.map_some, Option.getD_some]
    change contents (Function.update s.history _ _) _ s.head s.count = _
    rw [last_set (by omega), ← h.ring, scrollbackLogicalToPhysical,
      contents_update _ (by omega) (by omega), hlines,
      show a.lines.length - a.height + (y - a.top) - (a.lines.length - 1024) = s.count - a.height +
        (y - a.top) by omega]

theorem Refines.write (h : Refines s a) (c color : UInt8) (x y : Nat) :
    Refines (terminalPutentryat s c color x y) (a.write c color x y) := by
  unfold terminalPutentryat Log.write
  by_cases hx : x < vgaWidth ∧ y < vgaHeight
  · rw [dif_pos hx]
    dsimp only
    by_cases hy : a.top ≤ y ∧ y ≤ a.bottom
    · rw [dif_pos ⟨hx.1, hx.2, hy⟩]
      have hleft := h.leaveView hy
      generalize terminalLeaveView s y = t at hleft
      have hdrawn := hleft.kept.draw
        (Function.update t.screen y (Function.update (t.screen y) ⟨x, hx.1⟩ (vgaEntry c color)))
      rw [if_pos hdrawn.live]
      obtain ⟨hkept, hscreen⟩ := hdrawn.cell rfl (x := ⟨x, hx.1⟩) (vgaEntry c color) hy
      refine ⟨hkept, fun y' hy' => ?_⟩
      have hline : a.lines[a.lines.length - a.height + y']? = some (t.screen (a.top + y')) :=
        hleft.shown_live rfl hy'
      change (a.lines.modify (a.lines.length - a.height +
        (y - a.top)) _)[(a.lines.modify _ _).length - a.height - 0 + y']? =
          some ((scrollbackUpdateCell _ _ _ _).screen (a.top + y'))
      rw [hscreen, List.length_modify, Nat.sub_zero, List.getElem?_modify, hline]
      dsimp only
      rw [Function.update_apply]
      by_cases hsame : a.top + y' = y
      · rw [if_pos hsame, hsame, show y' = y - a.top by omega]
        simp
      · rw [if_neg hsame]
        simp only [Option.map_eq_map, Option.map_some]
        rw [if_neg (by omega)]
    · rw [dif_neg (fun hin => hy hin.2.2)]
      have htop := h.kept.top
      have hbottom := h.kept.bottom
      have hstay : terminalLeaveView s y = s := if_neg (fun hin => hy ⟨htop ▸ hin.2.1, hbottom ▸ hin.2.2.1⟩)
      rw [hstay, if_pos h.kept.live, scrollbackUpdateCell, if_pos (by dsimp only; omega)]
      refine ⟨h.kept.draw _, fun y' hy' => ?_⟩
      have hne : a.top + y' ≠ y := by
        have hle := h.kept.region.1
        unfold Log.height at hy'
        omega
      change _ = some (Function.update s.screen y _ (a.top + y'))
      rw [Function.update_of_ne hne]
      exact h.shown y' hy'
  · rw [dif_neg hx, dif_neg (fun hin => hx ⟨hin.1, hin.2.1⟩)]
    exact h

end writing

/-! ### The calls -/

section calls
variable {s : State} {a : Log}

theorem Refines.nextRow (h : Refines s a) : Refines (terminalNextRow s) a.nextRow := by
  have hrow := h.kept.row
  have hbottom := h.kept.bottom
  have hmoved := h.move (s.terminalRow + 1) 0
  unfold terminalNextRow Log.nextRow
  dsimp only
  by_cases hover : a.row + 1 > a.bottom
  · rw [if_pos hover, if_pos (by omega)]
    exact hmoved.scroll
  · rw [if_neg hover, if_neg (by omega), ← hrow]
    exact hmoved

theorem write_column (a : Log) (c color : UInt8) (x y : Nat) : (a.write c color x y).column = a.column := by
  unfold Log.write
  split
  · rfl
  · rfl

theorem nextRow_column (a : Log) (column : Nat) : Log.nextRow { a with column } = a.nextRow := rfl

theorem Refines.putchar (h : Refines s a) (c : UInt8) : Refines (terminalPutchar s c) (a.putchar c) := by
  unfold terminalPutchar Log.putchar
  split
  · exact h.nextRow
  have hwrite := h.write c s.terminalColor s.terminalColumn s.terminalRow
  rw [h.kept.color, h.kept.column, h.kept.row] at hwrite ⊢
  have hat := hwrite.kept.column.trans (write_column a c a.color a.column a.row)
  have hmoved := hwrite.column (a.column + 1)
  dsimp only
  rw [hat]
  by_cases hend : a.column + 1 ≥ vgaWidth
  · rw [if_pos hend, if_pos hend, ← nextRow_column _ (a.column + 1)]
    exact hmoved.nextRow
  · rw [if_neg hend, if_neg hend]
    exact hmoved

theorem Refines.writeText (h : Refines s a) (data : List UInt8) :
    Refines (terminalWrite s data) (a.writeText data) := by
  induction data generalizing s a with
  | nil => exact h
  | cons c data ih =>
    rw [terminalWrite, Log.writeText]
    by_cases hend : c = 0
    · rw [if_pos hend, List.takeWhile_cons_of_neg (by simpa using hend)]
      exact h
    · rw [if_neg hend, List.takeWhile_cons_of_pos (by simpa using hend), List.foldl_cons]
      exact ih (h.putchar c)

theorem terminalFillCells_eq (color : UInt8) (yy : Nat) : ∀ (rounds xx : Nat) (s : State),
    terminalFillCells color yy rounds xx s =
      ((List.range' xx rounds).map fun xx => (xx, yy)).foldl
        (fun s p => terminalPutentryat s 0x20 color p.1 p.2) s := by
  intro rounds
  induction rounds with
  | zero =>
    intro xx s
    rfl
  | succ rounds ih =>
    intro xx s
    rw [terminalFillCells, ih, List.range'_succ, List.map_cons, List.foldl_cons]

theorem terminalFillRows_eq (color : UInt8) (x cells : Nat) : ∀ (rounds yy : Nat) (s : State),
    terminalFillRows color x cells rounds yy s =
      ((List.range' yy rounds).flatMap fun yy => (List.range' x cells).map fun xx => (xx, yy)).foldl
        (fun s p => terminalPutentryat s 0x20 color p.1 p.2) s := by
  intro rounds
  induction rounds with
  | zero =>
    intro yy s
    rfl
  | succ rounds ih =>
    intro yy s
    rw [terminalFillRows, ih, terminalFillCells_eq, List.range'_succ, List.flatMap_cons, List.foldl_append]

theorem Refines.fillRect (h : Refines s a) (x y w h' : UInt32) (color : UInt8) :
    Refines (terminalFillRect s x y w h' color)
      ((Log.rectangle x y w h').foldl (fun a p => a.write 0x20 color p.1 p.2) a) := by
  rw [terminalFillRect, terminalFillRows_eq]
  change Refines ((Log.rectangle x y w h').foldl _ s) _
  induction Log.rectangle x y w h' generalizing s a with
  | nil => exact h
  | cons p cells ih => exact ih (h.write 0x20 color p.1 p.2)

theorem Refines.step (h : Refines s a) (op : Op) : Refines (Terminal.step s op) (a.step op) := by
  have hoffset := h.kept.offset
  have hdepth := h.kept.maxOffset
  have hreach := h.kept.reach
  cases op with
  | setcolor fg bg => exact ⟨{ h.kept with color := rfl }, h.shown⟩
  | putchar c => exact h.putchar c
  | write data => exact h.writeText data
  | putentryat c color x y => exact h.write c color x y
  | fillRect x y w h' color => exact h.fillRect x y w h' color
  | setCursor x y =>
    have hmoved := h.move (if y < vgaHeight then y else s.terminalRow)
      (if x < vgaWidth then x else s.terminalColumn)
    rw [h.kept.row, h.kept.column] at hmoved
    change Refines (terminalSetCursor s x y) _
    rw [terminalSetCursor, h.kept.row, h.kept.column]
    exact hmoved
  | follow =>
    change Refines (terminalScrollbackFollow s) { a with offset := 0 }
    unfold terminalScrollbackFollow
    by_cases hlive : a.offset = 0
    · rw [if_pos (by omega)]
      have hsame : ({ a with offset := 0 } : Log) = a := by rw [← hlive]
      rw [hsame]
      exact h
    · rw [if_neg (by omega)]
      exact (h.kept.view (Nat.zero_le _)).sync
  | lineUp =>
    change Refines (terminalScrollbackLineUp s) (if a.offset < a.depth then a.look (a.offset + 1) else a)
    unfold terminalScrollbackLineUp
    rw [hdepth]
    by_cases hmore : a.offset < a.depth
    · rw [if_pos hmore, if_neg (by omega), hoffset]
      exact h.look (by omega)
    · rw [if_neg hmore, if_pos (by omega)]
      exact h
  | lineDown =>
    change Refines (terminalScrollbackLineDown s) (if a.offset = 0 then a else a.look (a.offset - 1))
    unfold terminalScrollbackLineDown
    rw [hoffset]
    split
    · exact h
    · exact h.look (by omega)
  | pageUp =>
    change Refines (terminalScrollbackPageUp s)
      (if a.offset < a.depth then a.look (min (a.offset + scrollbackPage a.height) a.depth) else a)
    unfold terminalScrollbackPageUp
    rw [hdepth, h.kept.height]
    by_cases hmore : a.offset < a.depth
    · rw [if_pos hmore, if_neg (by omega)]
      dsimp only
      rw [hoffset, show (if a.offset + scrollbackPage a.height > a.depth then a.depth
        else a.offset + scrollbackPage a.height) = min (a.offset + scrollbackPage a.height) a.depth by
          split <;> omega]
      exact h.look (by omega)
    · rw [if_neg hmore, if_pos (by omega)]
      exact h
  | pageDown =>
    change Refines (terminalScrollbackPageDown s)
      (if a.offset = 0 then a else a.look (a.offset - scrollbackPage a.height))
    unfold terminalScrollbackPageDown
    rw [hoffset, h.kept.height]
    split
    · exact h
    · dsimp only
      rw [show (if a.offset > scrollbackPage a.height then a.offset - scrollbackPage a.height else 0) =
        a.offset - scrollbackPage a.height by split <;> omega]
      exact h.look (by omega)

end calls

/-! ### The start -/

def regionRows (s : State) (n : Nat) : List Line := (List.range n).map fun y => s.screen (s.regionTop + y)

theorem regionRows_length (s : State) (n : Nat) : (regionRows s n).length = n := by
  rw [regionRows, List.length_map, List.length_range]

theorem scrollbackResetRows_spec : ∀ (rounds y : Nat) (s : State), s.head = 0 → s.count = y →
    y + rounds ≤ terminalScrollbackLines →
    contents s.history terminalScrollbackLines 0 y = last terminalScrollbackLines (regionRows s y) →
    ∃ history, scrollbackResetRows rounds y s = { s with count := y + rounds, history } ∧
      contents history terminalScrollbackLines 0 (y + rounds) =
        last terminalScrollbackLines (regionRows s (y + rounds)) := by
  intro rounds
  induction rounds with
  | zero =>
    intro y s _ hcount _ hring
    exact ⟨s.history, by rw [scrollbackResetRows, Nat.add_zero, ← hcount], hring⟩
  | succ rounds ih =>
    intro y s hhead hcount hroom hring
    have hlength := regionRows_length s y
    have hlt : s.count < terminalScrollbackLines := by omega
    have hrows : regionRows s (y + 1) = regionRows s y ++ [s.screen (s.regionTop + y)] := by
      rw [regionRows, List.range_succ, List.map_append]
      rfl
    have hfirst : contents s.history terminalScrollbackLines 0 (regionRows s y).length =
        last terminalScrollbackLines (regionRows s y) := by
      rw [hlength]
      exact hring
    have hnew := contents_concat_room (by omega) hfirst (s.screen (s.regionTop + y))
    rw [hlength, ← hrows, Nat.zero_add] at hnew
    have happend : scrollbackAppendBlankLine s =
        (y % terminalScrollbackLines, setHistory { s with count := y + 1 } (y % terminalScrollbackLines)
          (blankLine s.terminalColor)) := by
      rw [scrollbackAppendBlankLine, if_pos hlt, scrollbackLogicalToPhysical, hhead, hcount, Nat.zero_add]
    rw [scrollbackResetRows, happend]
    dsimp only [setHistory]
    rw [Function.update_idem]
    obtain ⟨history, heq, hring'⟩ := ih (y + 1)
      { s with
        count := y + 1
        history := Function.update s.history (y % terminalScrollbackLines) (s.screen (s.regionTop + y)) }
      hhead rfl (by omega) hnew
    refine ⟨history, ?_, ?_⟩
    · rw [heq, show y + 1 + rounds = y + (rounds + 1) by omega]
    · rw [show y + (rounds + 1) = y + 1 + rounds by omega]
      exact hring'

theorem refines_reset (s : State) (hregion : s.regionTop ≤ s.regionBottom ∧ s.regionBottom < vgaHeight) :
    Refines (scrollbackResetHistory s) (Log.ofScreen (scrollbackResetHistory s)) := by
  have hsmall : terminalRegionHeight s ≤ terminalScrollbackLines := by
    have hlines : terminalScrollbackLines = 1024 := rfl
    have hlt := hregion.2
    unfold terminalRegionHeight
    unfold vgaHeight at hlt
    omega
  have hempty : ∀ t : State, contents t.history terminalScrollbackLines 0 0 =
      last terminalScrollbackLines (regionRows t 0) := by
    intro t
    rw [contents, last, regionRows, List.range_zero, List.map_nil, List.map_nil, List.drop_nil]
  obtain ⟨history, heq, hring⟩ := scrollbackResetRows_spec (terminalRegionHeight s) 0
    { s with head := 0, count := 0, viewOffset := 0, syncing := false } rfl rfl (by omega) (hempty _)
  rw [Nat.zero_add] at heq hring
  have hreset : scrollbackResetHistory s =
      { s with
        head := 0, count := terminalRegionHeight s, viewOffset := 0, syncing := false, history } := heq
  rw [hreset]
  have hlength := regionRows_length s (terminalRegionHeight s)
  refine ⟨⟨rfl, rfl, rfl, rfl, rfl, rfl, hregion, ?_, Nat.zero_le _, Nat.succ_pos _, ?_, hring,
    rfl⟩, fun y hy => ?_⟩
  · exact hlength.ge
  · change terminalRegionHeight s =
      min (regionRows s (terminalRegionHeight s)).length terminalScrollbackLines
    omega
  · change (regionRows s (terminalRegionHeight s))[(regionRows s (terminalRegionHeight s)).length -
      terminalRegionHeight s - 0 + y]? = some (s.screen (s.regionTop + y))
    have hrow : y < terminalRegionHeight s := hy
    rw [hlength, Nat.sub_self, Nat.zero_sub, Nat.zero_add, regionRows, List.getElem?_map,
      List.getElem?_range hrow]
    rfl

def SameRegion (s s' : State) : Prop := s'.regionTop = s.regionTop ∧ s'.regionBottom = s.regionBottom

theorem sameRegion_visibleTop (s : State) : SameRegion s (scrollbackVisibleTopLogical s).2 := by
  unfold scrollbackVisibleTopLogical
  split
  · exact ⟨rfl, rfl⟩
  · dsimp only
    split
    · exact ⟨rfl, rfl⟩
    · exact ⟨rfl, rfl⟩

theorem sameRegion_putentryat (s : State) (c color : UInt8) (x y : Nat) :
    SameRegion s (terminalPutentryat s c color x y) := by
  have hleave : SameRegion s (terminalLeaveView s y) := by
    unfold terminalLeaveView
    split
    · unfold scrollbackSyncRegionFromHistory
      dsimp only
      rw [scrollbackSyncRows_eq]
      exact sameRegion_visibleTop _
    · exact ⟨rfl, rfl⟩
  have hcell : ∀ (t : State) (x : Fin vgaWidth) (entry : UInt16),
      SameRegion t (scrollbackUpdateCell t x y entry) := by
    intro t x entry
    unfold scrollbackUpdateCell
    split
    · exact ⟨rfl, rfl⟩
    · dsimp only
      split
      · exact sameRegion_visibleTop t
      · exact sameRegion_visibleTop t
  unfold terminalPutentryat
  split
  · dsimp only
    split
    · obtain ⟨htop, hbottom⟩ := hcell _ _ _
      exact ⟨htop.trans hleave.1, hbottom.trans hleave.2⟩
    · exact hleave
  · exact ⟨rfl, rfl⟩

theorem sameRegion_fillRect (s : State) (x y w h : UInt32) (color : UInt8) :
    SameRegion s (terminalFillRect s x y w h color) := by
  rw [terminalFillRect, terminalFillRows_eq]
  change SameRegion s ((Log.rectangle x y w h).foldl _ s)
  induction Log.rectangle x y w h generalizing s with
  | nil => exact ⟨rfl, rfl⟩
  | cons p cells ih =>
    obtain ⟨htop, hbottom⟩ := sameRegion_putentryat s 0x20 color p.1 p.2
    obtain ⟨htop', hbottom'⟩ := ih (terminalPutentryat s 0x20 color p.1 p.2)
    exact ⟨htop'.trans htop, hbottom'.trans hbottom⟩

theorem refines_reset_home (hregion : s.regionTop ≤ s.regionBottom ∧ s.regionBottom < vgaHeight) :
    Refines (scrollbackResetHistory { s with terminalRow := 0, terminalColumn := 0 })
      (Log.ofScreen (scrollbackResetHistory { s with terminalRow := 0, terminalColumn := 0 })) :=
  refines_reset _ hregion

theorem refines_clear (s : State) (hregion : s.regionTop ≤ s.regionBottom ∧ s.regionBottom < vgaHeight) :
    Refines (terminalClear s) (Log.ofScreen (terminalClear s)) := by
  apply refines_reset_home
  obtain ⟨htop, hbottom⟩ := sameRegion_fillRect s 0 0 80 25 s.terminalColor
  rw [htop, hbottom]
  exact hregion

theorem refines_init (s : State) (fg bg : VgaColor) :
    Refines (terminalInitialize s fg bg) (Log.ofScreen (terminalInitialize s fg bg)) := by
  have hheight : vgaHeight = 25 := rfl
  unfold terminalInitialize
  apply refines_clear
  dsimp only
  omega

theorem refines_setRegion (s : State) (top bottom : Nat) :
    Refines (terminalSetRegion s top bottom) (Log.ofScreen (terminalSetRegion s top bottom)) := by
  have hheight : vgaHeight = 25 := rfl
  unfold terminalSetRegion
  apply refines_reset
  split_ifs <;> dsimp only <;> omega

theorem refines_start (s : State) (start : Start) :
    Refines (s.start start) (Log.ofScreen (s.start start)) := by
  cases start with
  | init fg bg => exact refines_init s fg bg
  | setRegion top bottom => exact refines_setRegion s top bottom

/-! ### Runs -/

/-- The screen and the history of the terminal, compared with the log: the history is its last
lines, at most 1024 of them, the view stays inside the history, and the region shows the lines in
view. -/
structure ViewOfLog (s : State) (a : Log) : Prop where
  region : s.regionTop = a.top ∧ s.regionBottom = a.bottom
  count : s.count = min a.lines.length terminalScrollbackLines
  history : ∀ i < s.count, a.lines[a.lines.length - s.count + i]? = some (scrollbackLineSlot s i)
  full : terminalRegionHeight s ≤ s.count
  view : s.viewOffset ≤ s.count - terminalRegionHeight s
  screen : ∀ y < terminalRegionHeight s, s.screen (s.regionTop + y) =
    scrollbackLineSlot s (s.count - terminalRegionHeight s - s.viewOffset + y)

theorem Refines.viewOfLog {a : Log} (h : Refines s a) : ViewOfLog s a := by
  obtain ⟨hheight, hcount, _, hoffset, _⟩ := h.kept.sizes
  have hview := h.kept.offset
  have hsize := h.kept.height
  refine ⟨⟨h.kept.top, h.kept.bottom⟩, h.kept.count, fun i hi => h.kept.line hi, by omega,
    by omega, fun y hy => ?_⟩
  rw [hsize] at hy ⊢
  have hshown := h.shown y hy
  have hline := h.kept.line (i := s.count - a.height - a.offset + y) (by omega)
  rw [show a.lines.length - s.count + (s.count - a.height - a.offset + y) =
    a.lines.length - a.height - a.offset + y by omega, hshown] at hline
  rw [h.kept.top, hview]
  exact Option.some.inj hline

theorem Refines.run {a : Log} (h : Refines s a) (ops : List Op) :
    Refines (ops.foldl Terminal.step s) (ops.foldl Log.step a) := by
  induction ops generalizing s a with
  | nil => exact h
  | cons op ops ih => exact ih (h.step op)

/-- After a start of the history, in any state of the terminal, and any calls that keep the region, the
terminal is a view of the log that began with the rows of the region and went through the same calls. -/
theorem terminal_refines_log (s : State) (start : Start) (ops : List Op) :
    ViewOfLog (ops.foldl step (s.start start)) (ops.foldl Log.step (Log.ofScreen (s.start start))) :=
  ((refines_start s start).run ops).viewOfLog

end TermobKernel.Terminal

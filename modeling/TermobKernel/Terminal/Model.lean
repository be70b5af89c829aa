import Mathlib.Tactic
import TermobKernel.Library.Text

/-!
# The terminal

`drivers/terminal.c`: the screen with its scrolling region, and the scrollback history behind it. The screen
and the history are kept by lines of 80 cells, so that an inner loop over the cells of a line is one
assignment; `size_t` counters are natural numbers, and only the arguments of a caller can make a sum wrap. A
counting loop is a recursion on the number of rounds that are left, or a fold over its range.
-/

namespace TermobKernel.Terminal
open Text

def vgaWidth : Nat := 80
def vgaHeight : Nat := 25
def terminalScrollbackLines : Nat := 1024

inductive VgaColor where
  | black
  | blue
  | green
  | cyan
  | red
  | magenta
  | brown
  | lightGrey
  | darkGrey
  | lightBlue
  | lightGreen
  | lightCyan
  | lightRed
  | lightMagenta
  | yellow
  | white
  deriving DecidableEq, Repr

def VgaColor.value : VgaColor → UInt8
  | .black => 0
  | .blue => 1
  | .green => 2
  | .cyan => 3
  | .red => 4
  | .magenta => 5
  | .brown => 6
  | .lightGrey => 7
  | .darkGrey => 8
  | .lightBlue => 9
  | .lightGreen => 10
  | .lightCyan => 11
  | .lightRed => 12
  | .lightMagenta => 13
  | .yellow => 14
  | .white => 15

abbrev Line := Fin vgaWidth → UInt16

/-- The static variables of the file. `screen` is `terminal_buffer` by rows. -/
structure State where
  terminalRow : Nat
  terminalColumn : Nat
  terminalColor : UInt8
  screen : Nat → Line
  regionTop : Nat
  regionBottom : Nat
  history : Nat → Line
  head : Nat
  count : Nat
  viewOffset : Nat
  syncing : Bool

def vgaEntry (c color : UInt8) : UInt16 := c.toUInt16 ||| (color.toUInt16 <<< 8)

def blankLine (color : UInt8) : Line := fun _ => vgaEntry 0x20 color

def terminalRegionHeight (s : State) : Nat := s.regionBottom - s.regionTop + 1

/-! ## The history -/

def scrollbackLogicalToPhysical (s : State) (logicalIndex : Nat) : Nat :=
  (s.head + logicalIndex) % terminalScrollbackLines

def scrollbackMaxOffset (s : State) : Nat :=
  if s.count ≤ terminalRegionHeight s then 0 else s.count - terminalRegionHeight s

/-- The line at the top of the region. The view is clamped on the way. -/
def scrollbackVisibleTopLogical (s : State) : Nat × State :=
  if s.count ≤ terminalRegionHeight s then (0, s)
  else
    let s := if s.viewOffset > scrollbackMaxOffset s then { s with
      viewOffset := scrollbackMaxOffset s } else s
    (s.count - terminalRegionHeight s - s.viewOffset, s)

def scrollbackLineSlot (s : State) (logicalIndex : Nat) : Line :=
  s.history (scrollbackLogicalToPhysical s logicalIndex)

def setHistory (s : State) (physicalIndex : Nat) (line : Line) : State :=
  { s with history := Function.update s.history physicalIndex line }

/-- The slot of the new line, and the state with the line in it. The oldest line is given up when all slots
are taken. -/
def scrollbackAppendBlankLine (s : State) : Nat × State :=
  if s.count < terminalScrollbackLines then
    let physicalIndex := scrollbackLogicalToPhysical s s.count
    (physicalIndex, setHistory { s with count := s.count + 1 } physicalIndex (blankLine s.terminalColor))
  else
    let s := { s with head := (s.head + 1) % terminalScrollbackLines }
    let physicalIndex := scrollbackLogicalToPhysical s (s.count - 1)
    (physicalIndex, setHistory s physicalIndex (blankLine s.terminalColor))

def scrollbackResetRows : Nat → Nat → State → State
  | 0, _, s => s
  | rounds + 1, y, s =>
    let appended := scrollbackAppendBlankLine s
    scrollbackResetRows rounds (y + 1)
      (setHistory appended.2 appended.1 (appended.2.screen (appended.2.regionTop + y)))

def scrollbackResetHistory (s : State) : State :=
  let s := { s with head := 0, count := 0, viewOffset := 0, syncing := false }
  scrollbackResetRows (terminalRegionHeight s) 0 s

def scrollbackSyncRows (topLogical : Nat) : Nat → Nat → State → State
  | 0, _, s => s
  | rounds + 1, y, s =>
    let line :=
      if topLogical + y < s.count then scrollbackLineSlot s (topLogical + y) else blankLine s.terminalColor
    scrollbackSyncRows topLogical rounds (y + 1) { s with
      screen := Function.update s.screen (s.regionTop + y) line }

def scrollbackSyncRegionFromHistory (s : State) : State :=
  let top := scrollbackVisibleTopLogical s
  { scrollbackSyncRows top.1 (terminalRegionHeight s) 0 { top.2 with syncing := true } with
    syncing := false }

def scrollbackSyncViewAfterScroll (s : State) : State :=
  let s := scrollbackSyncRegionFromHistory s
  { s with terminalRow := s.regionBottom, terminalColumn := 0 }

def scrollbackUpdateCell (s : State) (x : Fin vgaWidth) (y : Nat) (entry : UInt16) : State :=
  if y < s.regionTop ∨ y > s.regionBottom ∨ s.count = 0 then s
  else
    let top := scrollbackVisibleTopLogical s
    let logicalIndex := top.1 + (y - s.regionTop)
    let s := top.2
    if logicalIndex ≥ s.count then s
    else
      setHistory s (scrollbackLogicalToPhysical s logicalIndex)
        (Function.update (scrollbackLineSlot s logicalIndex) x entry)

/-! ## Cells -/

def terminalMakeColor (fg bg : VgaColor) : UInt8 := fg.value ||| (bg.value <<< 4)

def terminalSetcolor (s : State) (fg bg : VgaColor) : State :=
  { s with terminalColor := terminalMakeColor fg bg }

/-- The view goes back to the end of the history before a cell of the region is written. -/
def terminalLeaveView (s : State) (y : Nat) : State :=
  if s.syncing = false ∧ y ≥ s.regionTop ∧ y ≤ s.regionBottom ∧ s.viewOffset ≠ 0 then
    scrollbackSyncRegionFromHistory { s with viewOffset := 0 }
  else s

def terminalPutentryat (s : State) (c color : UInt8) (x y : Nat) : State :=
  if hx : x < vgaWidth ∧ y < vgaHeight then
    let s := terminalLeaveView s y
    let s := { s with
      screen := Function.update s.screen y (Function.update (s.screen y) ⟨x, hx.1⟩ (vgaEntry c color)) }
    if s.syncing = false then scrollbackUpdateCell s ⟨x, hx.1⟩ y (vgaEntry c color) else s
  else s

def terminalFillCells (color : UInt8) (yy : Nat) : Nat → Nat → State → State
  | 0, _, s => s
  | rounds + 1, xx, s => terminalFillCells color yy rounds (xx + 1) (terminalPutentryat s 0x20 color xx yy)

def terminalFillRows (color : UInt8) (x cells : Nat) : Nat → Nat → State → State
  | 0, _, s => s
  | rounds + 1, yy,
      s => terminalFillRows color x cells rounds (yy + 1) (terminalFillCells color yy cells x s)

/-- `terminal_fill_rect`. The two bounds `x + w` and `y + h` are 32-bit sums. -/
def terminalFillRect (s : State) (x y w h : UInt32) (color : UInt8) : State :=
  terminalFillRows color x.toNat (min (x + w).toNat vgaWidth - x.toNat)
    (min (y + h).toNat vgaHeight - y.toNat) y.toNat s

def terminalClear (s : State) : State :=
  let s := terminalFillRect s 0 0 80 25 s.terminalColor
  scrollbackResetHistory { s with terminalRow := 0, terminalColumn := 0 }

def terminalInitialize (s : State) (fg bg : VgaColor) : State :=
  terminalClear
    { s with
      terminalRow := 0
      terminalColumn := 0
      terminalColor := terminalMakeColor fg bg
      regionTop := 0
      regionBottom := vgaHeight - 1 }

def terminalSetCursor (s : State) (x y : Nat) : State :=
  { s with
    terminalColumn := if x < vgaWidth then x else s.terminalColumn
    terminalRow := if y < vgaHeight then y else s.terminalRow }

def terminalSetRegion (s : State) (top bottom : Nat) : State :=
  let top := if top ≥ vgaHeight then vgaHeight - 1 else top
  let bottom := if bottom ≥ vgaHeight then vgaHeight - 1 else bottom
  let s :=
    if top > bottom then { s with regionTop := 0, regionBottom := vgaHeight - 1 }
    else { s with regionTop := top, regionBottom := bottom }
  let s :=
    if s.terminalRow < s.regionTop ∨ s.terminalRow > s.regionBottom then
      { s with terminalRow := s.regionTop, terminalColumn := 0 }
    else s
  scrollbackResetHistory s

/-! ## Characters -/

def terminalScroll (s : State) : State :=
  scrollbackSyncViewAfterScroll (scrollbackAppendBlankLine { s with viewOffset := 0 }).2

/-- The start of the next row, with a scroll at the bottom of the region. -/
def terminalNextRow (s : State) : State :=
  let s := { s with terminalColumn := 0, terminalRow := s.terminalRow + 1 }
  if s.terminalRow > s.regionBottom then terminalScroll s else s

def terminalPutchar (s : State) (c : UInt8) : State :=
  if c = 0x0A then terminalNextRow s
  else
    let s := terminalPutentryat s c s.terminalColor s.terminalColumn s.terminalRow
    let s := { s with terminalColumn := s.terminalColumn + 1 }
    if s.terminalColumn ≥ vgaWidth then terminalNextRow s else s

/-- `terminal_write`: the string ends before its first zero byte. -/
def terminalWrite (s : State) : List UInt8 → State
  | [] => s
  | c :: data => if c = 0 then s else terminalWrite (terminalPutchar s c) data

/-- `terminal_writeat`: the string ends before its first zero byte, and at the right border of the
screen. -/
def terminalWriteat (s : State) : List UInt8 → Nat → Nat → State
  | [], _, _ => s
  | c :: data, x, y =>
    if c = 0 then s
    else if x ≥ vgaWidth then s
    else terminalWriteat (terminalPutentryat s c s.terminalColor x y) data (x + 1) y

def terminalPrompt (s : State) : State :=
  let s := terminalWrite (terminalSetcolor s .darkGrey .black) (ascii "[")
  let s := terminalWrite (terminalSetcolor s .lightGreen .black) (ascii "termob")
  let s := terminalWrite (terminalSetcolor s .darkGrey .black) (ascii " ")
  let s := terminalWrite (terminalSetcolor s .white .black) (ascii "/")
  let s := terminalWrite (terminalSetcolor s .darkGrey .black) (ascii "]")
  let s := terminalWrite (terminalSetcolor s .lightRed .black) (ascii "# ")
  terminalSetcolor s .lightGrey .black

/-! ## Lines and boxes -/

def terminalDrawHline (s : State) (y : Nat) (c color : UInt8) : State :=
  if y ≥ vgaHeight then s else (List.range vgaWidth).foldl (fun s x => terminalPutentryat s c color x y) s

def terminalDrawBox (s : State) (x y w h : Nat) (color : UInt8) : State :=
  if w < 2 ∨ h < 2 then s
  else if x ≥ vgaWidth ∨ y ≥ vgaHeight then s
  else
    let w := if x + w > vgaWidth then vgaWidth - x else w
    let h := if y + h > vgaHeight then vgaHeight - y else h
    let s := (List.range w).foldl (fun s i =>
      terminalPutentryat (terminalPutentryat s 0x2D color (x + i) y) 0x2D color (x + i) (y + h - 1)) s
    let s := (List.range h).foldl (fun s i =>
      terminalPutentryat (terminalPutentryat s 0x7C color x (y + i)) 0x7C color (x + w - 1) (y + i)) s
    let s := terminalPutentryat s 0x2B color x y
    let s := terminalPutentryat s 0x2B color (x + w - 1) y
    let s := terminalPutentryat s 0x2B color x (y + h - 1)
    terminalPutentryat s 0x2B color (x + w - 1) (y + h - 1)

/-! ## Scrolling back -/

def terminalScrollbackIsActive (s : State) : Bool := decide (s.viewOffset ≠ 0)

def terminalScrollbackFollow (s : State) : State :=
  if s.viewOffset = 0 then s else scrollbackSyncRegionFromHistory { s with viewOffset := 0 }

def terminalScrollbackLineUp (s : State) : State :=
  if scrollbackMaxOffset s = 0 ∨ s.viewOffset ≥ scrollbackMaxOffset s then s
  else scrollbackSyncViewAfterScroll { s with viewOffset := s.viewOffset + 1 }

def terminalScrollbackLineDown (s : State) : State :=
  if s.viewOffset = 0 then s else scrollbackSyncViewAfterScroll { s with viewOffset := s.viewOffset - 1 }

/-- A page is one line less than the region, unless the region has one line. -/
def scrollbackPage (height : Nat) : Nat := if height > 1 then height - 1 else height

def terminalScrollbackPageUp (s : State) : State :=
  if scrollbackMaxOffset s = 0 ∨ s.viewOffset ≥ scrollbackMaxOffset s then s
  else
    let offset := s.viewOffset + scrollbackPage (terminalRegionHeight s)
    scrollbackSyncViewAfterScroll
      { s with viewOffset := if offset > scrollbackMaxOffset s then scrollbackMaxOffset s else offset }

def terminalScrollbackPageDown (s : State) : State :=
  if s.viewOffset = 0 then s
  else
    let step := scrollbackPage (terminalRegionHeight s)
    scrollbackSyncViewAfterScroll { s with
      viewOffset := if s.viewOffset > step then s.viewOffset - step else 0 }

/-! ## Calls -/

/-- The calls that leave the region as it is. -/
inductive Op where
  | setcolor (fg bg : VgaColor)
  | putchar (c : UInt8)
  | write (data : List UInt8)
  | putentryat (c color : UInt8) (x y : Nat)
  | fillRect (x y w h : UInt32) (color : UInt8)
  | setCursor (x y : Nat)
  | follow
  | lineUp
  | lineDown
  | pageUp
  | pageDown
  deriving DecidableEq, Repr

def step (s : State) : Op → State
  | .setcolor fg bg => terminalSetcolor s fg bg
  | .putchar c => terminalPutchar s c
  | .write data => terminalWrite s data
  | .putentryat c color x y => terminalPutentryat s c color x y
  | .fillRect x y w h color => terminalFillRect s x y w h color
  | .setCursor x y => terminalSetCursor s x y
  | .follow => terminalScrollbackFollow s
  | .lineUp => terminalScrollbackLineUp s
  | .lineDown => terminalScrollbackLineDown s
  | .pageUp => terminalScrollbackPageUp s
  | .pageDown => terminalScrollbackPageDown s

/-- The calls that start a new history. -/
inductive Start where
  | init (fg bg : VgaColor)
  | setRegion (top bottom : Nat)
  deriving DecidableEq, Repr

def State.start (s : State) : Start → State
  | .init fg bg => terminalInitialize s fg bg
  | .setRegion top bottom => terminalSetRegion s top bottom

end TermobKernel.Terminal

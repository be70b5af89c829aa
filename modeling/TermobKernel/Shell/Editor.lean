import TermobKernel.Library.Zipper
import TermobKernel.Library.Runs
import TermobKernel.Terminal.Model

/-!
# The line editor of the shell

`keyboard_process_scancode` and the functions under it, from `drivers/keyboard.c`: the modifiers,
the input buffer with its length and cursor, the clipboard, and the place of the prompt on the
screen. What a command does, and how `kernel_draw_ui` draws the screen, is left open (`Host`).
Buffers are functions of the index, of which 256 places are used; flags that are only set to zero or
one are Booleans.
-/

namespace TermobKernel.Shell
open Terminal Zipper

def keyboardMaxInput : Nat := 256
def keyboardCtrlScancode : UInt8 := 0x1D
def keyboardLeftShiftScancode : UInt8 := 0x2A
def keyboardRightShiftScancode : UInt8 := 0x36
def keyboardCapsLockScancode : UInt8 := 0x3A
def keyboardExtendedScancodePrefix : UInt8 := 0xE0
def keyboardLeftArrowScancode : UInt8 := 0x4B
def keyboardRightArrowScancode : UInt8 := 0x4D
def keyboardPageUpScancode : UInt8 := 0x49
def keyboardPageDownScancode : UInt8 := 0x51
def keyboardDeleteScancode : UInt8 := 0x53
def keyboardCScancode : UInt8 := 0x2E
def keyboardLScancode : UInt8 := 0x26
def keyboardUScancode : UInt8 := 0x16
def keyboardVScancode : UInt8 := 0x2F

/-- `keyboard_scancode_table` up to its last entry that is not zero: the digits, then the three rows
of letters. -/
def keyboardScancodeTable : List UInt8 :=
  [0, 27, 0x31, 0x32, 0x33, 0x34, 0x35, 0x36, 0x37, 0x38, 0x39, 0x30, 0x2D, 0x3D, 8,
    9, 0x71, 0x77, 0x65, 0x72, 0x74, 0x79, 0x75, 0x69, 0x6F, 0x70, 0x5B, 0x5D, 10,
    0, 0x61, 0x73, 0x64, 0x66, 0x67, 0x68, 0x6A, 0x6B, 0x6C, 0x3B, 0x27, 0x60,
    0, 0x5C, 0x7A, 0x78, 0x63, 0x76, 0x62, 0x6E, 0x6D, 0x2C, 0x2E, 0x2F, 0,
    0x2A, 0, 0x20]

/-- `keyboard_shift_scancode_table`, likewise. Its letters are the small ones. -/
def keyboardShiftScancodeTable : List UInt8 :=
  [0, 27, 0x21, 0x22, 0x23, 0x24, 0x25, 0x26, 0x2F, 0x28, 0x29, 0x3D, 0x3F, 0x5E, 8,
    9, 0x71, 0x77, 0x65, 0x72, 0x74, 0x79, 0x75, 0x69, 0x6F, 0x70, 0x7B, 0x7D, 10,
    0, 0x61, 0x73, 0x64, 0x66, 0x67, 0x68, 0x6A, 0x6B, 0x6C, 0x3A, 0x40, 0x7E,
    0, 0x7C, 0x7A, 0x78, 0x63, 0x76, 0x62, 0x6E, 0x6D, 0x3B, 0x3A, 0x3F, 0,
    0x2A, 0, 0x20]

def clearCommand : List UInt8 := [0x63, 0x6C, 0x65, 0x61, 0x72]

/-! ## The state -/

structure Keys where
  lastPressedScancode : UInt8
  controlDown : Bool
  leftShiftDown : Bool
  rightShiftDown : Bool
  capsLockOn : Bool
  extendedPrefixPending : Bool
  deriving DecidableEq, Repr

structure Keyboard extends Keys where
  inputBuffer : Nat → UInt8
  clipboardBuffer : Nat → UInt8
  bufferIndex : Nat
  cursorIndex : Nat
  clipboardLength : Nat
  promptRow : Nat
  promptColumn : Nat

/-- The editor, the terminal and the rest of the kernel. -/
structure Console (κ : Type) extends Keyboard where
  terminal : Terminal.State
  rest : κ
  /-- The arguments of the calls of `keyboard_process_command`, in order. -/
  commands : List (List UInt8)

/-- What the editor calls in the rest of the kernel. A command that does not return, like `halt`,
gives `none`. -/
structure Host (κ : Type) where
  kernelDrawUi : κ → Terminal.State → κ × Terminal.State
  processCommand : List UInt8 → κ → Terminal.State → Option (κ × Terminal.State)

/-- The string that a pointer to the start of a buffer stands for. -/
def bufferString (buffer : Nat → UInt8) : List UInt8 :=
  (segment buffer 0 keyboardMaxInput).takeWhile fun c => decide (c ≠ 0)

variable {κ : Type}

def Console.withKeys (s : Console κ) (keys : Keys) : Console κ :=
  { s with toKeyboard := { s.toKeyboard with toKeys := keys } }

/-! ## Keys and characters -/

def keyboardShiftIsActive (k : Keys) : Bool := k.leftShiftDown || k.rightShiftDown

def keyboardIsAlpha (c : UInt8) : Bool := decide (c ≥ 0x61) && decide (c ≤ 0x7A)

def keyboardUppercaseChar (c : UInt8) : UInt8 := if keyboardIsAlpha c = false then c else c - (0x61 - 0x41)

def keyboardTranslateScancode (k : Keys) (scancode : UInt8) : UInt8 :=
  if scancode ≥ 128 then 0
  else
    let c := (if keyboardShiftIsActive
      k then keyboardShiftScancodeTable else keyboardScancodeTable).getD scancode.toNat 0
    if c = 0 then 0
    else if keyboardIsAlpha c then
      if (k.capsLockOn ^^ keyboardShiftIsActive k) = true then keyboardUppercaseChar c else c
    else c

/-- The statements of `keyboard_process_scancode` for a key that is released. -/
def keyboardRelease (k : Keys) (scancode : UInt8) : Keys :=
  let released := scancode &&& 0x7F
  let k := if released = keyboardCtrlScancode then { k with controlDown := false } else k
  let k := if released = keyboardLeftShiftScancode then { k with leftShiftDown := false } else k
  let k := if released = keyboardRightShiftScancode then { k with rightShiftDown := false } else k
  if released = k.lastPressedScancode then { k with lastPressedScancode := 0 } else k

/-! ## The prompt -/

def keyboardShellCapturePromptAnchor (s : Console κ) : Console κ :=
  { s with promptRow := s.terminal.terminalRow, promptColumn := s.terminal.terminalColumn }

def keyboardShellInputCapacity (promptColumn : Nat) : Nat :=
  if promptColumn ≥ vgaWidth - 1 then 0 else vgaWidth - promptColumn - 1

/-- The calls of `keyboard_shell_redraw_input`, for a string and a cursor behind the prompt. -/
def drawInput (promptRow promptColumn : Nat) (text : List UInt8) (cursorIndex : Nat) (t : Terminal.State) :
    Terminal.State :=
  let t := terminalSetcolor t .lightGrey .black
  let t := terminalFillRect t (UInt32.ofNat promptColumn) (UInt32.ofNat promptRow)
    (UInt32.ofNat (keyboardShellInputCapacity promptColumn)) 1 (terminalMakeColor .lightGrey .black)
  let t := terminalWriteat t text promptColumn promptRow
  terminalSetCursor t (promptColumn + cursorIndex) promptRow

def keyboardShellRedrawInput (s : Console κ) : Console κ :=
  { s with
    terminal := drawInput s.promptRow s.promptColumn (segment s.inputBuffer 0 keyboardMaxInput)
      s.cursorIndex s.terminal }

/-! ## Editing -/

def keyboardCopyInputToClipboard (s : Console κ) : Console κ :=
  let s := { s with clipboardLength := s.bufferIndex }
  let s := { s with clipboardBuffer := copyLoop s.inputBuffer s.bufferIndex 0 s.clipboardBuffer }
  { s with clipboardBuffer := Function.update s.clipboardBuffer s.clipboardLength 0 }

def keyboardResetInputBuffer (s : Console κ) : Console κ :=
  { s with bufferIndex := 0, cursorIndex := 0, inputBuffer := Function.update s.inputBuffer 0 0 }

def keyboardClearInputLine (s : Console κ) : Console κ :=
  keyboardShellRedrawInput (keyboardResetInputBuffer s)

def keyboardMoveCursorLeft (s : Console κ) : Console κ :=
  if s.cursorIndex > 0 then keyboardShellRedrawInput { s with cursorIndex := s.cursorIndex - 1 } else s

def keyboardMoveCursorRight (s : Console κ) : Console κ :=
  if s.cursorIndex < s.bufferIndex then keyboardShellRedrawInput
      { s with cursorIndex := s.cursorIndex + 1 } else s

def keyboardDeleteCharacterBeforeCursor (s : Console κ) : Console κ :=
  if s.cursorIndex = 0 ∨ s.bufferIndex = 0 then s
  else
    let s :=
      { s with
        inputBuffer := closeGap s.inputBuffer (s.bufferIndex - (s.cursorIndex - 1)) (s.cursorIndex - 1) }
    keyboardShellRedrawInput { s with cursorIndex := s.cursorIndex - 1, bufferIndex := s.bufferIndex - 1 }

def keyboardDeleteCharacterAtCursor (s : Console κ) : Console κ :=
  if s.cursorIndex ≥ s.bufferIndex ∨ s.bufferIndex = 0 then s
  else
    let s := { s with inputBuffer := closeGap s.inputBuffer (s.bufferIndex - s.cursorIndex) s.cursorIndex }
    keyboardShellRedrawInput { s with bufferIndex := s.bufferIndex - 1 }

def keyboardInsertCharacter (s : Console κ) (c : UInt8) : Console κ :=
  if s.bufferIndex ≥ keyboardMaxInput - 1 then s
  else if s.bufferIndex ≥ keyboardShellInputCapacity s.promptColumn then s
  else
    let s := { s with inputBuffer := openGap s.inputBuffer (s.bufferIndex - s.cursorIndex) s.bufferIndex }
    let s := { s with inputBuffer := Function.update s.inputBuffer s.cursorIndex c }
    let s := { s with bufferIndex := s.bufferIndex + 1, cursorIndex := s.cursorIndex + 1 }
    keyboardShellRedrawInput { s with inputBuffer := Function.update s.inputBuffer s.bufferIndex 0 }

/-- The loop of `keyboard_paste_clipboard`, from character `i` on. -/
def pasteLoop : Nat → Nat → Console κ → Console κ
  | 0, _, s => s
  | rounds + 1, i, s => pasteLoop rounds (i + 1) (keyboardInsertCharacter s (s.clipboardBuffer i))

def keyboardPasteClipboard (s : Console κ) : Console κ := pasteLoop s.clipboardLength 0 s

/-! ## Scancodes -/

section scancodes
variable (host : Host κ)

/-- `keyboard_process_command`. Every way through it ends by capturing the prompt anchor, and only
`clear` comes back to the editor before that. -/
def keyboardProcessCommand (cmd : List UInt8) (s : Console κ) : Option (Console κ) :=
  match host.processCommand cmd s.rest s.terminal with
  | none => none
  | some (rest, terminal) =>
    let s := { s with rest, terminal, commands := s.commands ++ [cmd] }
    let s := if cmd = clearCommand then keyboardResetInputBuffer s else s
    some (keyboardShellCapturePromptAnchor s)

def keyboardProcessExtendedScancode (scancode : UInt8) (s : Console κ) : Console κ :=
  if scancode &&& 0x80 ≠ 0 then s
  else if scancode = keyboardPageUpScancode then { s with terminal := terminalScrollbackPageUp s.terminal }
  else if scancode = keyboardPageDownScancode then
    let s := { s with terminal := terminalScrollbackPageDown s.terminal }
    if terminalScrollbackIsActive s.terminal = false then keyboardShellRedrawInput s else s
  else if scancode = keyboardLeftArrowScancode then keyboardMoveCursorLeft s
  else if scancode = keyboardRightArrowScancode then keyboardMoveCursorRight s
  else if scancode = keyboardDeleteScancode then keyboardDeleteCharacterAtCursor s
  else s

/-- The branch of `keyboard_process_scancode` for the newline. The command buffer is the one on the
stack. -/
def keyboardEnter (s : Console κ) : Option (Console κ) :=
  let commandBuffer := copyLoop s.inputBuffer (s.bufferIndex + 1) 0 fun _ => 0
  keyboardProcessCommand host (bufferString commandBuffer) (keyboardResetInputBuffer s)

/-- `keyboard_process_scancode` from the test for the scrollback view on. -/
def keyboardPressKey (scancode : UInt8) (s : Console κ) : Option (Console κ) :=
  let s :=
    if terminalScrollbackIsActive s.terminal then
      keyboardShellRedrawInput { s with terminal := terminalScrollbackFollow s.terminal }
    else s
  if scancode ≥ 128 then some s
  else
    let c := keyboardTranslateScancode s.toKeys scancode
    if c = 0 then some s
    else if s.controlDown ∧ scancode = keyboardCScancode then some (keyboardCopyInputToClipboard s)
    else if s.controlDown ∧ scancode = keyboardVScancode then some (keyboardPasteClipboard s)
    else if s.controlDown ∧ scancode = keyboardUScancode then some (keyboardClearInputLine s)
    else if s.controlDown ∧ scancode = keyboardLScancode then
      let drawn := host.kernelDrawUi s.rest s.terminal
      some (keyboardShellRedrawInput
        (keyboardShellCapturePromptAnchor { s with rest := drawn.1, terminal := drawn.2 }))
    else if c = 10 then keyboardEnter host s
    else if c = 8 then some (keyboardDeleteCharacterBeforeCursor s)
    else some (keyboardInsertCharacter s c)

def keyboardProcessScancode (scancode : UInt8) (s : Console κ) : Option (Console κ) :=
  if scancode = keyboardExtendedScancodePrefix then
    some (s.withKeys { s.toKeys with extendedPrefixPending := true })
  else if s.extendedPrefixPending then
    some (keyboardProcessExtendedScancode scancode (s.withKeys
      { s.toKeys with extendedPrefixPending := false }))
  else if scancode &&& 0x80 ≠ 0 then some (s.withKeys (keyboardRelease s.toKeys scancode))
  else if scancode = keyboardCtrlScancode then
    some (s.withKeys { s.toKeys with controlDown := true, lastPressedScancode := scancode })
  else if scancode = keyboardLeftShiftScancode then
    some (s.withKeys { s.toKeys with leftShiftDown := true, lastPressedScancode := scancode })
  else if scancode = keyboardRightShiftScancode then
    some (s.withKeys { s.toKeys with rightShiftDown := true, lastPressedScancode := scancode })
  else if scancode = s.lastPressedScancode then some s
  else
    let s := s.withKeys { s.toKeys with lastPressedScancode := scancode }
    if scancode = keyboardCapsLockScancode then some (s.withKeys
        { s.toKeys with capsLockOn := !s.capsLockOn })
    else keyboardPressKey host scancode s

end scancodes

def keyboardInit (s : Console κ) : Console κ :=
  { s with
    bufferIndex := 0
    cursorIndex := 0
    clipboardLength := 0
    lastPressedScancode := 0
    controlDown := false
    leftShiftDown := false
    rightShiftDown := false
    capsLockOn := false
    extendedPrefixPending := false
    promptRow := s.terminal.terminalRow
    promptColumn := s.terminal.terminalColumn
    inputBuffer := Function.update s.inputBuffer 0 0
    clipboardBuffer := Function.update s.clipboardBuffer 0 0 }

/-! ## The system -/

/-- A scancode is processed, or the rest of the kernel runs. -/
inductive Input (κ : Type) where
  | scancode (scancode : UInt8)
  | elsewhere (rest : κ) (terminal : Terminal.State)

def step (host : Host κ) (s : Console κ) : Input κ → Option (Console κ)
  | .scancode scancode => keyboardProcessScancode host scancode s
  | .elsewhere rest terminal => some { s with rest, terminal }

end TermobKernel.Shell

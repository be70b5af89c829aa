import TermobKernel.Shell.Editor

/-!
# The line editor as text with a cursor

The abstract editor keeps a zipper and a clipboard. A scancode is decoded into at most one operation
on them, with the modifiers that are down. The editor of the shell, which shifts characters in a
fixed array, goes through the same texts and cursors, draws the same screen and runs the same
commands.
-/

namespace TermobKernel.Shell
open Terminal Zipper Runs

/-! ### The abstract editor -/

inductive Edit where
  | insert (c : UInt8)
  | deleteBefore
  | deleteAt
  | moveLeft
  | moveRight
  | clear
  | copy
  | paste
  /-- The whole screen is drawn anew, with a new prompt. -/
  | redraw
  | enter
  deriving DecidableEq, Repr

/-- What a scancode asks for. -/
inductive Gesture where
  /-- Nothing but a change of the modifiers. -/
  | nothing
  | pageUp
  | pageDown
  | extended (edit : Edit)
  /-- A key of the main block. The screen goes back to the prompt first. -/
  | key (edit : Option Edit)
  deriving DecidableEq, Repr

structure Session (κ : Type) where
  keys : Keys
  draft : Zipper UInt8
  clipboard : List UInt8
  promptRow : Nat
  promptColumn : Nat
  terminal : Terminal.State
  rest : κ
  commands : List (List UInt8)

/-- The number of characters that a line has room for: 255, and as many as fit on the screen behind
the prompt. -/
def lineLimit (promptColumn : Nat) : Nat := min 255 (79 - promptColumn)

/-- The operation of a key of the main block. -/
def Keys.edit (k : Keys) (scancode : UInt8) : Option Edit :=
  let c := keyboardTranslateScancode k scancode
  if c = 0 then none
  else if k.controlDown ∧ scancode = keyboardCScancode then some .copy
  else if k.controlDown ∧ scancode = keyboardVScancode then some .paste
  else if k.controlDown ∧ scancode = keyboardUScancode then some .clear
  else if k.controlDown ∧ scancode = keyboardLScancode then some .redraw
  else if c = 10 then some .enter
  else if c = 8 then some .deleteBefore
  else some (.insert c)

def extendedGesture (scancode : UInt8) : Gesture :=
  if scancode &&& 0x80 ≠ 0 then .nothing
  else if scancode = keyboardPageUpScancode then .pageUp
  else if scancode = keyboardPageDownScancode then .pageDown
  else if scancode = keyboardLeftArrowScancode then .extended .moveLeft
  else if scancode = keyboardRightArrowScancode then .extended .moveRight
  else if scancode = keyboardDeleteScancode then .extended .deleteAt
  else .nothing

/-- The modifiers after a scancode, and what it asks for. A key that repeats asks for nothing. -/
def Keys.decode (k : Keys) (scancode : UInt8) : Keys × Gesture :=
  if scancode = keyboardExtendedScancodePrefix then ({ k with extendedPrefixPending := true }, .nothing)
  else if k.extendedPrefixPending then ({ k with extendedPrefixPending := false }, extendedGesture scancode)
  else if scancode &&& 0x80 ≠ 0 then (keyboardRelease k scancode, .nothing)
  else if scancode = keyboardCtrlScancode then
    ({ k with controlDown := true, lastPressedScancode := scancode }, .nothing)
  else if scancode = keyboardLeftShiftScancode then
    ({ k with leftShiftDown := true, lastPressedScancode := scancode }, .nothing)
  else if scancode = keyboardRightShiftScancode then
    ({ k with rightShiftDown := true, lastPressedScancode := scancode }, .nothing)
  else if scancode = k.lastPressedScancode then (k, .nothing)
  else
    let k := { k with lastPressedScancode := scancode }
    if scancode = keyboardCapsLockScancode then ({ k with capsLockOn := !k.capsLockOn }, .nothing)
    else (k, .key (k.edit scancode))

section session
variable {κ : Type}

def Session.redraw (m : Session κ) : Session κ :=
  { m with terminal := drawInput m.promptRow m.promptColumn m.draft.text m.draft.cursor m.terminal }

/-- A draft that differs from the one before is drawn. -/
def Session.put (m : Session κ) (draft : Zipper UInt8) : Session κ :=
  if draft = m.draft then m else { m with draft }.redraw

/-- A full line takes no more characters. -/
def Session.insert (m : Session κ) (c : UInt8) : Session κ :=
  if m.draft.text.length < lineLimit m.promptColumn then m.put (m.draft.insert c) else m

def Session.anchored (m : Session κ) (rest : κ) (terminal : Terminal.State) : Session κ :=
  { m with rest, terminal, promptRow := terminal.terminalRow, promptColumn := terminal.terminalColumn }

def Session.edit (host : Host κ) (m : Session κ) : Edit → Option (Session κ)
  | .insert c => some (m.insert c)
  | .deleteBefore => some (m.put m.draft.deleteBefore)
  | .deleteAt => some (m.put m.draft.deleteAt)
  | .moveLeft => some (m.put m.draft.moveLeft)
  | .moveRight => some (m.put m.draft.moveRight)
  | .clear => some { m with draft := .empty }.redraw
  | .copy => some { m with clipboard := m.draft.text }
  | .paste => some (m.clipboard.foldl Session.insert m)
  | .redraw =>
    let drawn := host.kernelDrawUi m.rest m.terminal
    some (m.anchored drawn.1 drawn.2).redraw
  | .enter =>
    match host.processCommand m.draft.text m.rest m.terminal with
    | none => none
    | some (rest, terminal) =>
      some ({ m with draft := .empty, commands := m.commands ++ [m.draft.text] }.anchored rest terminal)

def Session.follow (m : Session κ) : Session κ :=
  if terminalScrollbackIsActive m.terminal then { m with
      terminal := terminalScrollbackFollow m.terminal }.redraw else m

def Session.editKey (host : Host κ) (m : Session κ) : Option Edit → Option (Session κ)
  | none => some m
  | some edit => m.edit host edit

def Session.perform (host : Host κ) (m : Session κ) : Gesture → Option (Session κ)
  | .nothing => some m
  | .pageUp => some { m with terminal := terminalScrollbackPageUp m.terminal }
  | .pageDown =>
    let m := { m with terminal := terminalScrollbackPageDown m.terminal }
    some (if terminalScrollbackIsActive m.terminal = false then m.redraw else m)
  | .extended edit => m.edit host edit
  | .key edit => m.follow.editKey host edit

def Session.step (host : Host κ) (m : Session κ) : Input κ → Option (Session κ)
  | .scancode scancode => { m with keys := (m.keys.decode scancode).1 }.perform host
      (m.keys.decode scancode).2
  | .elsewhere rest terminal => some { m with rest, terminal }

/-- No key is down, and nothing was typed or copied. -/
def Session.start (rest : κ) (terminal : Terminal.State) (commands : List (List UInt8)) : Session κ where
  keys := ⟨0, false, false, false, false, false⟩
  draft := .empty
  clipboard := []
  promptRow := terminal.terminalRow
  promptColumn := terminal.terminalColumn
  terminal := terminal
  rest := rest
  commands := commands

end session

/-! ### The buffers -/

/-- The input buffer holds a draft of at most 255 characters, none of them zero, with a zero behind it. -/
structure HoldsLine (buffer : Nat → UInt8) (length index : Nat) (draft : Zipper UInt8) : Prop where
  holds : Holds buffer length index draft
  length_le : length ≤ 255
  terminated : buffer length = 0
  plain : 0 ∉ draft.text

structure HoldsCopy (buffer : Nat → UInt8) (length : Nat) (clipboard : List UInt8) : Prop where
  line : segment buffer 0 length = clipboard
  length_le : length ≤ 255
  plain : 0 ∉ clipboard

section buffers
variable {buffer : Nat → UInt8} {length index : Nat} {draft : Zipper UInt8}

theorem holdsLine_empty (hzero : buffer 0 = 0) : HoldsLine buffer 0 0 .empty :=
  ⟨holds_empty buffer, Nat.zero_le _, hzero, List.not_mem_nil⟩

section
variable (h : HoldsLine buffer length index draft)
include h

theorem HoldsLine.congr {buffer' : Nat → UInt8}
    (hsame : ∀ i ≤ length, buffer' i = buffer i) : HoldsLine buffer' length index draft :=
  ⟨h.holds.congr fun i hi => hsame i hi.le, h.length_le,
    (hsame length (Nat.le_refl _)).trans h.terminated, h.plain⟩

theorem HoldsLine.segment_eq :
    ∃ more, segment buffer 0 keyboardMaxInput = draft.text ++ 0 :: more := by
  have hle := h.length_le
  have hsize : keyboardMaxInput = length + (1 + (255 - length)) := by
    rw [keyboardMaxInput]
    omega
  refine ⟨segment buffer (length + 1) (255 - length), ?_⟩
  rw [hsize, segment_add, Nat.zero_add, segment_add, segment_one, h.holds.line, h.terminated]
  rfl

theorem HoldsLine.bufferString_eq : bufferString buffer = draft.text := by
  obtain ⟨more, hmore⟩ := h.segment_eq
  have hpos : ∀ c ∈ draft.text, decide (c ≠ 0) = true := fun c hc =>
    decide_eq_true fun h0 => h.plain (h0 ▸ hc)
  rw [bufferString, hmore, List.takeWhile_append_of_pos hpos, List.takeWhile_cons,
    if_neg (by decide), List.append_nil]

theorem HoldsLine.insert (hroom : length < 255) {c : UInt8} (hc : c ≠ 0) :
    HoldsLine (Function.update (Function.update (openGap buffer (length - index) length) index c)
      (length + 1) 0)
      (length + 1) (index + 1) (draft.insert c) := by
  refine ⟨(h.holds.insert c).congr fun i hi => ?_, hroom, Function.update_self .., fun hmem => ?_⟩
  · rw [Function.update_of_ne (by omega)]
  · rcases mem_text_insert.mp hmem with hzero | hmem
    · exact hc hzero.symm
    · exact h.plain hmem

theorem HoldsLine.deleteBefore (hpos : 0 < index) :
    HoldsLine (closeGap buffer (length - (index - 1)) (index - 1)) (length - 1)
        (index - 1) draft.deleteBefore := by
  have hindex := h.holds.index_le
  have hle := h.length_le
  refine ⟨h.holds.deleteBefore hpos, by omega, ?_, fun hmem => h.plain (mem_text_of_deleteBefore hmem)⟩
  rw [closeGap_eq]
  dsimp only
  rw [if_pos (by omega), Nat.sub_add_cancel (by omega)]
  exact h.terminated

theorem HoldsLine.deleteAt (hlt : index < length) :
    HoldsLine (closeGap buffer (length - index) index) (length - 1) index draft.deleteAt := by
  have hle := h.length_le
  refine ⟨h.holds.deleteAt hlt, by omega, ?_, fun hmem => h.plain (mem_text_of_deleteAt hmem)⟩
  rw [closeGap_eq]
  dsimp only
  rw [if_pos (by omega), Nat.sub_add_cancel (by omega)]
  exact h.terminated

theorem HoldsLine.moveLeft (hpos : 0 < index) :
    HoldsLine buffer length (index - 1) draft.moveLeft :=
  ⟨h.holds.moveLeft hpos, h.length_le, h.terminated, by rw [text_moveLeft]; exact h.plain⟩

theorem HoldsLine.moveRight (hlt : index < length) :
    HoldsLine buffer length (index + 1) draft.moveRight :=
  ⟨h.holds.moveRight hlt, h.length_le, h.terminated, by rw [text_moveRight]; exact h.plain⟩

theorem HoldsLine.ne {buffer' : Nat → UInt8} {length' index' : Nat} {draft' : Zipper UInt8}
    (h' : HoldsLine buffer' length' index' draft') (hne : length' ≠ length ∨ index' ≠ index) :
    draft' ≠ draft := by
  rintro rfl
  rcases hne with hne | hne
  · exact hne (h'.holds.length_eq.trans h.holds.length_eq.symm)
  · exact hne (h'.holds.index_eq.trans h.holds.index_eq.symm)

end

end buffers

/-! ### The simulation -/

/-- The shell stands where the abstract editor does. -/
structure Refines {κ : Type} (s : Console κ) (m : Session κ) : Prop where
  keys : s.toKeys = m.keys
  line : HoldsLine s.inputBuffer s.bufferIndex s.cursorIndex m.draft
  copied : HoldsCopy s.clipboardBuffer s.clipboardLength m.clipboard
  promptRow : s.promptRow = m.promptRow
  promptColumn : s.promptColumn = m.promptColumn
  terminal : s.terminal = m.terminal
  rest : s.rest = m.rest
  commands : s.commands = m.commands

theorem terminalWriteat_zero (text more : List UInt8) (t : Terminal.State) (x y : Nat) :
    terminalWriteat t (text ++ 0 :: more) x y = terminalWriteat t text x y := by
  induction text generalizing t x with
  | nil => rfl
  | cons c text ih =>
    rw [List.cons_append, terminalWriteat, terminalWriteat, ih]

section simulation
variable {κ : Type} {s : Console κ} {m : Session κ}

theorem Refines.redraw (h : Refines s m) : Refines (keyboardShellRedrawInput s) m.redraw := by
  obtain ⟨more, hmore⟩ := h.line.segment_eq
  have hcursor := h.line.holds.index_eq
  refine { h with terminal := ?_ }
  change drawInput s.promptRow s.promptColumn (segment s.inputBuffer 0 keyboardMaxInput)
    s.cursorIndex s.terminal =
      drawInput m.promptRow m.promptColumn m.draft.text m.draft.cursor m.terminal
  rw [hmore, hcursor, h.promptRow, h.promptColumn, h.terminal, drawInput, drawInput, terminalWriteat_zero]

theorem Refines.text_length (h : Refines s m) : m.draft.text.length = s.bufferIndex := by
  rw [length_text, h.line.holds.length_eq]

theorem Refines.withKeys (h : Refines s m) (keys : Keys) : Refines (s.withKeys keys) { m with keys } :=
  { h with keys := rfl }

theorem Refines.withTerminal (h : Refines s m) (change : Terminal.State → Terminal.State) :
    Refines { s with terminal := change s.terminal } { m with terminal := change m.terminal } :=
  { h with terminal := congrArg change h.terminal }

theorem Refines.put (h : Refines s m) {buffer : Nat → UInt8} {length index : Nat} {draft : Zipper UInt8}
    (hline : HoldsLine buffer length index draft) (hne : length ≠ s.bufferIndex ∨ index ≠ s.cursorIndex) :
    Refines (keyboardShellRedrawInput
      { s with inputBuffer := buffer, bufferIndex := length, cursorIndex := index }) (m.put draft) := by
  rw [Session.put, if_neg (h.line.ne hline hne)]
  have hnew : Refines { s with inputBuffer := buffer, bufferIndex := length, cursorIndex := index }
      { m with draft } :=
    { h with line := hline }
  exact hnew.redraw

theorem Session.put_self (m : Session κ) {draft : Zipper UInt8} (h : draft = m.draft) :
    m.put draft = m := if_pos h

theorem Refines.moveLeft (h : Refines s m) :
    Refines (keyboardMoveCursorLeft s) (m.put m.draft.moveLeft) := by
  rw [keyboardMoveCursorLeft]
  by_cases hpos : s.cursorIndex > 0
  · rw [if_pos hpos]
    exact h.put (h.line.moveLeft hpos) (Or.inr (by omega))
  · have hzero : s.cursorIndex = 0 := by omega
    have hline := h.line.holds
    rw [hzero] at hline
    rw [if_neg hpos, m.put_self hline.at_start.1]
    exact h

theorem Refines.moveRight (h : Refines s m) :
    Refines (keyboardMoveCursorRight s) (m.put m.draft.moveRight) := by
  rw [keyboardMoveCursorRight]
  by_cases hlt : s.cursorIndex < s.bufferIndex
  · rw [if_pos hlt]
    exact h.put (h.line.moveRight hlt) (Or.inr (by omega))
  · have hend : s.cursorIndex = s.bufferIndex := Nat.le_antisymm h.line.holds.index_le (not_lt.mp hlt)
    have hline := h.line.holds
    rw [hend] at hline
    rw [if_neg hlt, m.put_self hline.at_end.1]
    exact h

theorem Refines.deleteBefore (h : Refines s m) :
    Refines (keyboardDeleteCharacterBeforeCursor s) (m.put m.draft.deleteBefore) := by
  have hindex := h.line.holds.index_le
  rw [keyboardDeleteCharacterBeforeCursor]
  by_cases hzero : s.cursorIndex = 0
  · have hline := h.line.holds
    rw [hzero] at hline
    rw [if_pos (Or.inl hzero), m.put_self hline.at_start.2]
    exact h
  · have hne : s.cursorIndex - 1 ≠ s.cursorIndex := by omega
    rw [if_neg (by omega)]
    exact h.put (h.line.deleteBefore (Nat.pos_of_ne_zero hzero)) (Or.inr hne)

theorem Refines.deleteAt (h : Refines s m) :
    Refines (keyboardDeleteCharacterAtCursor s) (m.put m.draft.deleteAt) := by
  have hindex := h.line.holds.index_le
  rw [keyboardDeleteCharacterAtCursor]
  by_cases hlt : s.cursorIndex < s.bufferIndex
  · have hne : s.bufferIndex - 1 ≠ s.bufferIndex := by omega
    rw [if_neg (by omega)]
    exact h.put (h.line.deleteAt hlt) (Or.inl hne)
  · have hend : s.cursorIndex = s.bufferIndex := Nat.le_antisymm hindex (not_lt.mp hlt)
    have hline := h.line.holds
    rw [hend] at hline
    rw [if_pos (Or.inl (not_lt.mp hlt)), m.put_self hline.at_end.2]
    exact h

theorem full_iff (length promptColumn : Nat) :
    length < lineLimit promptColumn ↔
      ¬length ≥ keyboardMaxInput - 1 ∧ ¬length ≥ keyboardShellInputCapacity promptColumn := by
  have hwidth : vgaWidth = 80 := rfl
  rw [lineLimit, keyboardMaxInput, keyboardShellInputCapacity]
  by_cases hcolumn : promptColumn ≥ vgaWidth - 1
  · rw [if_pos hcolumn]
    omega
  · rw [if_neg hcolumn]
    omega

theorem Refines.insert (h : Refines s m) {c : UInt8} (hc : c ≠ 0) :
    Refines (keyboardInsertCharacter s c) (m.insert c) := by
  rw [Session.insert, h.text_length, ← h.promptColumn, keyboardInsertCharacter]
  by_cases hroom : s.bufferIndex < lineLimit s.promptColumn
  · obtain ⟨hmax, hcapacity⟩ := (full_iff _ _).mp hroom
    rw [if_pos hroom, if_neg hmax, if_neg hcapacity]
    have hlt : s.bufferIndex < 255 := by
      rw [keyboardMaxInput] at hmax
      omega
    exact h.put (h.line.insert hlt hc) (Or.inl (Nat.succ_ne_self _))
  · rw [if_neg hroom]
    by_cases hmax : s.bufferIndex ≥ keyboardMaxInput - 1
    · rw [if_pos hmax]
      exact h
    · have hcapacity : s.bufferIndex ≥ keyboardShellInputCapacity s.promptColumn := by
        by_contra hcapacity
        exact hroom ((full_iff _ _).mpr ⟨hmax, hcapacity⟩)
      rw [if_neg hmax, if_pos hcapacity]
      exact h

theorem keyboardInsertCharacter_clipboard (s : Console κ) (c : UInt8) :
    (keyboardInsertCharacter s c).clipboardBuffer = s.clipboardBuffer := by
  rw [keyboardInsertCharacter]
  split
  · rfl
  split
  · rfl
  · rfl

theorem Refines.pasteLoop {rounds i : Nat} (h : Refines s m)
    (hplain : 0 ∉ segment s.clipboardBuffer i rounds) :
    Refines (Shell.pasteLoop rounds i s) ((segment s.clipboardBuffer i rounds).foldl Session.insert m) := by
  induction rounds generalizing i s m with
  | zero => exact h
  | succ rounds ih =>
    rw [Nat.add_comm, segment_add, segment_one, List.singleton_append] at hplain ⊢
    rw [Nat.add_comm 1 rounds, Shell.pasteLoop, List.foldl_cons]
    rw [List.mem_cons, not_or] at hplain
    have hfirst := h.insert (Ne.symm hplain.1)
    have hclip := keyboardInsertCharacter_clipboard s (s.clipboardBuffer i)
    have hrest := @ih _ _ (i + 1) hfirst
    rw [hclip] at hrest
    exact hrest hplain.2

theorem Refines.paste (h : Refines s m) :
    Refines (keyboardPasteClipboard s) (m.clipboard.foldl Session.insert m) := by
  have hcopied := h.copied
  rw [← hcopied.line]
  refine h.pasteLoop ?_
  rw [hcopied.line]
  exact hcopied.plain

theorem Refines.copy (h : Refines s m) :
    Refines (keyboardCopyInputToClipboard s) { m with clipboard := m.draft.text } := by
  refine { h with copied := ⟨?_, h.line.length_le, h.line.plain⟩ }
  refine (segment_congr fun i hi => ?_).trans h.line.holds.line
  change Function.update (copyLoop s.inputBuffer s.bufferIndex 0 s.clipboardBuffer)
    s.bufferIndex 0 (0 + i) = _
  rw [Function.update_of_ne (by change i < s.bufferIndex at hi; omega), copyLoop_eq]
  exact if_pos ⟨Nat.zero_le _, Nat.add_lt_add_left hi 0⟩

theorem Refines.reset (h : Refines s m) :
    Refines (keyboardResetInputBuffer s) { m with draft := .empty } := by
  have hzero : Function.update s.inputBuffer 0 0 0 = 0 := Function.update_self ..
  exact { h with line := holdsLine_empty hzero }

theorem Refines.anchored (h : Refines s m) (rest : κ) (terminal : Terminal.State) :
    Refines (keyboardShellCapturePromptAnchor { s with rest, terminal }) (m.anchored rest terminal) :=
  { h with promptRow := rfl, promptColumn := rfl, terminal := rfl, rest := rfl }

variable (host : Host κ)

theorem Refines.enter (h : Refines s m) :
    Option.Rel Refines (keyboardEnter host s) (m.edit host .enter) := by
  have hcommand : HoldsLine (copyLoop s.inputBuffer (s.bufferIndex + 1) 0 fun _ => 0)
      s.bufferIndex s.cursorIndex m.draft := by
    refine h.line.congr fun i hi => ?_
    rw [copyLoop_eq]
    exact if_pos ⟨Nat.zero_le _, by omega⟩
  have hreset := h.reset
  rw [keyboardEnter, keyboardProcessCommand, Session.edit, hcommand.bufferString_eq]
  have hrest : (keyboardResetInputBuffer s).rest = m.rest := h.rest
  have hterminal : (keyboardResetInputBuffer s).terminal = m.terminal := h.terminal
  rw [hrest, hterminal]
  cases host.processCommand m.draft.text m.rest m.terminal with
  | none => exact .none
  | some result =>
    obtain ⟨rest, terminal⟩ := result
    have hlogged : Refines { keyboardResetInputBuffer s with commands := s.commands ++ [m.draft.text] }
        { m with draft := .empty, commands := m.commands ++ [m.draft.text] } :=
      { hreset with commands := congrArg (· ++ [m.draft.text]) h.commands }
    refine .some ?_
    split
    · exact hlogged.reset.anchored rest terminal
    · exact hlogged.anchored rest terminal

theorem Refines.extended (h : Refines s m) (scancode : UInt8) :
    Option.Rel Refines (some (keyboardProcessExtendedScancode scancode s))
        (m.perform host (extendedGesture scancode)) := by
  rw [keyboardProcessExtendedScancode, extendedGesture]
  split
  · exact .some h
  split
  · exact .some (h.withTerminal terminalScrollbackPageUp)
  split
  · have hpaged := h.withTerminal terminalScrollbackPageDown
    refine .some ?_
    dsimp only
    rw [h.terminal] at hpaged ⊢
    split
    · exact hpaged.redraw
    · exact hpaged
  split
  · exact .some h.moveLeft
  split
  · exact .some h.moveRight
  split
  · exact .some h.deleteAt
  · exact .some h

theorem Session.follow_keys (m : Session κ) : m.follow.keys = m.keys := by
  rw [follow]
  split
  · rfl
  · rfl

theorem Refines.follow (h : Refines s m) :
    Refines
      (if terminalScrollbackIsActive s.terminal then
        keyboardShellRedrawInput { s with terminal := terminalScrollbackFollow s.terminal }
      else s) m.follow := by
  rw [Session.follow, ← h.terminal]
  split
  · have hfollowed := (h.withTerminal terminalScrollbackFollow).redraw
    rwa [← h.terminal] at hfollowed
  · exact h

theorem Refines.press (h : Refines s m) {scancode : UInt8} (hlow : ¬scancode ≥ 128) :
    Option.Rel Refines (keyboardPressKey host scancode s)
        (m.perform host (.key (m.keys.edit scancode))) := by
  have hfollow := h.follow
  rw [keyboardPressKey, Session.perform, ← m.follow_keys]
  -- Only the states behind the redraw matter from here on.
  generalize (if terminalScrollbackIsActive s.terminal then
    keyboardShellRedrawInput { s with terminal := terminalScrollbackFollow s.terminal } else s) =
      s' at hfollow ⊢
  generalize m.follow = m' at hfollow ⊢
  dsimp only
  rw [if_neg hlow, hfollow.keys, Keys.edit]
  split
  · exact .some hfollow
  next hchar =>
    split
    · exact .some hfollow.copy
    split
    · exact .some hfollow.paste
    split
    · exact .some hfollow.reset.redraw
    split
    · rw [hfollow.rest, hfollow.terminal]
      exact .some (hfollow.anchored _ _).redraw
    split
    · exact hfollow.enter host
    split
    · exact .some hfollow.deleteBefore
    · exact .some (hfollow.insert hchar)

theorem low_of_pressed {scancode : UInt8} (hpressed : ¬scancode &&& 0x80 ≠ 0) : ¬scancode ≥ 128 := by
  have hbit : ∀ n : Fin 256, 128 ≤ n.val → n.val &&& 128 ≠ 0 := by decide +kernel
  intro hhigh
  refine hpressed fun hzero => hbit ⟨scancode.toNat, scancode.toNat_lt⟩ (UInt8.le_iff_toNat_le.mp hhigh) ?_
  exact congrArg UInt8.toNat hzero

/-- **One step.** Whatever comes next, both editors go on to states that correspond, or both do not
go on. -/
theorem Refines.step (h : Refines s m) (input : Input κ) :
    Option.Rel Refines (Shell.step host s input) (m.step host input) := by
  cases input with
  | elsewhere rest terminal => exact .some { h with rest := rfl, terminal := rfl }
  | scancode scancode =>
    rw [Shell.step, keyboardProcessScancode, Session.step, Keys.decode, ← h.keys]
    split
    · exact .some (h.withKeys _)
    split
    · exact (h.withKeys _).extended host scancode
    split
    · exact .some (h.withKeys _)
    next hpressed =>
      split
      · exact .some (h.withKeys _)
      split
      · exact .some (h.withKeys _)
      split
      · exact .some (h.withKeys _)
      split
      · refine .some ?_
        rw [h.keys]
        exact h
      dsimp only
      split
      · exact .some (h.withKeys _)
      · exact (h.withKeys _).press host (low_of_pressed hpressed)

end simulation

theorem keyboardInit_refines {κ : Type} (s : Console κ) :
    Refines (keyboardInit s) (Session.start s.rest s.terminal s.commands) := by
  have hzero : Function.update s.inputBuffer 0 0 0 = 0 := Function.update_self ..
  exact ⟨rfl, holdsLine_empty hzero, ⟨rfl, Nat.zero_le _, List.not_mem_nil⟩, rfl, rfl, rfl, rfl, rfl⟩

/-- **The line editor.** From `keyboard_init` on, whatever scancodes come and whatever the rest of
the kernel does in between, the shell ends where the abstract editor does. Line and cursor are those
of its zipper, with at most 255 characters and a zero behind them; the clipboard is what was copied
last, and the commands executed are the lines entered. -/
theorem line_editor_refines {κ : Type} (host : Host κ) (s₀ : Console κ) (inputs : List (Input κ)) :
    (run (step host) (keyboardInit s₀) inputs = none ↔
        run (Session.step host) (Session.start s₀.rest s₀.terminal s₀.commands) inputs = none) ∧
      ∀ s, run (step host) (keyboardInit s₀) inputs = some s →
        ∃ m, run (Session.step host) (Session.start s₀.rest s₀.terminal s₀.commands) inputs = some m ∧
          segment s.inputBuffer 0 s.bufferIndex = m.draft.text ∧ s.cursorIndex = m.draft.cursor ∧
          s.cursorIndex ≤ s.bufferIndex ∧ s.bufferIndex ≤ 255 ∧ s.inputBuffer s.bufferIndex = 0 ∧
          segment s.clipboardBuffer 0 s.clipboardLength = m.clipboard ∧ s.commands = m.commands ∧
          s.terminal = m.terminal ∧ s.rest = m.rest := by
  have hrel := run_rel (fun _ _ input h => h.step host input) (keyboardInit_refines s₀) inputs
  refine ⟨rel_none_iff hrel, fun s hs => ?_⟩
  rw [hs] at hrel
  obtain ⟨m, hm, h⟩ := rel_some_left hrel
  exact ⟨m, hm, h.line.holds.line, h.line.holds.index_eq, h.line.holds.index_le, h.line.length_le,
    h.line.terminated, h.copied.line, h.commands, h.terminal, h.rest⟩

/-- A kernel whose commands do nothing, with a prompt that leaves room for three characters. -/
def quietHost : Host Unit where
  kernelDrawUi rest terminal := (rest, terminal)
  processCommand _ rest terminal := some (rest, terminal)

def idleShell : Console Unit where
  toKeyboard := ⟨⟨0, false, false, false, false, false⟩, fun _ => 0, fun _ => 0, 0, 0, 0, 0, 0⟩
  terminal :=
    { terminalRow := 0, terminalColumn := 76, terminalColor := 7, screen := fun _ => blankLine 7,
      regionTop := 0, regionBottom := 24, history := fun _ => blankLine 7, head := 0, count := 0,
      viewOffset := 0, syncing := false }
  rest := ()
  commands := []

/-- The keys `h`, `i`, the left arrow, `e` and Enter. -/
theorem edited_line_executed :
    ∃ s, run (step quietHost) (keyboardInit idleShell) ([0x23, 0x17, 0xE0, 0x4B, 0x12,
      0x1C].map .scancode) = some s ∧ s.commands = [[0x68, 0x65, 0x69]] := by
  obtain ⟨hends, hrefines⟩ := line_editor_refines quietHost idleShell ([0x23, 0x17, 0xE0, 0x4B,
    0x12, 0x1C].map .scancode)
  have habstract : (run (Session.step quietHost)
      (Session.start idleShell.rest idleShell.terminal idleShell.commands)
      ([0x23, 0x17, 0xE0, 0x4B, 0x12, 0x1C].map .scancode)).map Session.commands =
        some [[0x68, 0x65, 0x69]] := by
    decide +kernel
  obtain ⟨m, hm, hcommands⟩ := Option.map_eq_some_iff.mp habstract
  cases hs : run (step quietHost) (keyboardInit idleShell) ([0x23, 0x17, 0xE0, 0x4B, 0x12,
      0x1C].map .scancode) with
  | none =>
    rw [hends.mp hs] at hm
    cases hm
  | some s =>
    obtain ⟨m', hm', _, _, _, _, _, _, hexecuted, _⟩ := hrefines s hs
    obtain rfl : m = m' := Option.some.inj (hm.symm.trans hm')
    exact ⟨s, rfl, hexecuted.trans hcommands⟩

end TermobKernel.Shell

import TermobKernel.Shell.Editing
import TermobKernel.Terminal.Rows

/-!
# The screen of the shell

`kernel_draw_ui` with the functions under it, from `core/kernel.c`, and the shell on this screen:
what a command writes is open, but it is written at the cursor, and a prompt follows it. Between the
keys the main loop refreshes the footer.
-/

namespace TermobKernel.Shell
open Terminal Text

variable {t : Terminal.State}

def termobShellTop : Nat := 8
def termobShellBottom : Nat := 22
def timerFrequencyHz : UInt32 := 100

/-- What the footer reports. -/
structure Vitals where
  ticks : UInt32
  heapBytesUsed : UInt32
  heapBytesTotal : UInt32
  pmmFreeFrames : UInt32
  pciDeviceCount : UInt32
  soundIsInitialized : Bool
  mouseIsInitialized : Bool
  schedulerTaskCount : UInt32
  deriving DecidableEq, Repr

/-! ### The text of the footer -/

/-- `kernel_ui_append_char`. The text is what the buffer holds before its zero. -/
def kernelUiAppendChar (text : List UInt8) (c : UInt8) : List UInt8 :=
  if text.length ≥ vgaWidth - 1 then text else text ++ [c]

def kernelUiAppendText (text value : List UInt8) : List UInt8 := value.foldl kernelUiAppendChar text

/-- The loop that splits a number into digits, here with the highest first. -/
def kernelUiDigits : Nat → UInt32 → List UInt8
  | 0, _ => []
  | rounds + 1, value => if value = 0 then [] else kernelUiDigits rounds (value / 10) ++
      [0x30 + (value % 10).toUInt8]

def kernelUiAppendU32 (text : List UInt8) (value : UInt32) : List UInt8 :=
  if value = 0 then kernelUiAppendChar text 0x30 else (kernelUiDigits 10 value).foldl
      kernelUiAppendChar text

def kernelUiAppendUptime (text : List UInt8) (v : Vitals) : List UInt8 :=
  let seconds := v.ticks / timerFrequencyHz
  let milliseconds := v.ticks % timerFrequencyHz * 1000 / timerFrequencyHz
  let text := kernelUiAppendU32 text seconds
  let text := kernelUiAppendChar text 0x2E
  let text := if milliseconds < 100 then kernelUiAppendChar text 0x30 else text
  let text := if milliseconds < 10 then kernelUiAppendChar text 0x30 else text
  let text := kernelUiAppendU32 text milliseconds
  kernelUiAppendChar text 0x73

def footerLine (v : Vitals) : List UInt8 :=
  let line := kernelUiAppendText [] (ascii "up ")
  let line := kernelUiAppendUptime line v
  let line := kernelUiAppendText line (ascii " | heap ")
  let line := kernelUiAppendU32 line (v.heapBytesUsed / 1024)
  let line := kernelUiAppendChar line 0x2F
  let line := kernelUiAppendU32 line (v.heapBytesTotal / 1024)
  let line := kernelUiAppendText line (ascii "K | free ")
  let line := kernelUiAppendU32 line v.pmmFreeFrames
  let line := kernelUiAppendText line (ascii " fr | pci ")
  let line := kernelUiAppendU32 line v.pciDeviceCount
  let line := kernelUiAppendText line (ascii " | snd ")
  let line := kernelUiAppendText line (if v.soundIsInitialized then ascii "on" else ascii "off")
  let line := kernelUiAppendText line (ascii " | mouse ")
  let line := kernelUiAppendText line (if v.mouseIsInitialized then ascii "on" else ascii "off")
  let line := kernelUiAppendText line (ascii " | tsk ")
  kernelUiAppendU32 line v.schedulerTaskCount

/-! ### Drawing -/

def kernelUiDrawHeader (t : Terminal.State) : Terminal.State :=
  let headerColor := terminalMakeColor .white .blue
  let panelColor := terminalMakeColor .lightGrey .black
  let footerColor := terminalMakeColor .lightGrey .darkGrey
  let t := terminalInitialize t .lightGrey .black
  let t := terminalDrawHline t 0 0x20 headerColor
  let t := terminalFillRect t 0 1 80 7 panelColor
  let t := terminalDrawBox t 1 1 (vgaWidth - 2) 6 (terminalMakeColor .blue .black)
  let t := terminalDrawHline t 7 0x20 footerColor
  let t := terminalDrawHline t 24 0x20 footerColor
  let t := terminalSetcolor t .white .blue
  let t := terminalWriteat t (ascii "TERMOB Kernel 0.1.0-dev") 1 0
  let t := terminalSetcolor t .lightCyan .blue
  let t := terminalWriteat t (ascii "tty0 | runtime console") 57 0
  let t := terminalSetcolor t .lightCyan .black
  let t := terminalWriteat t (ascii "   .----------------------.") 3 2
  let t := terminalWriteat t (ascii "   |   TERMOB CONSOLE     |") 3 3
  let t := terminalWriteat t (ascii "   |   i386 / GRUB / VGA  |") 3 4
  let t := terminalWriteat t (ascii "   '----------------------'") 3 5
  let t := terminalSetcolor t .white .black
  let t := terminalWriteat t (ascii "profile : Monolithic i386") 32 2
  let t := terminalWriteat t (ascii "memory  : multiboot2  pmm  heap  paging") 32 3
  let t := terminalWriteat t (ascii "io      : pci  virtio-blk  audio-pci  speaker  ps/2 mouse") 32 4
  let t := terminalWriteat t (ascii "shell   : help  dashboard  status  sched") 32 5
  let t := terminalSetcolor t .lightGrey .darkGrey
  terminalWriteat t (ascii "shell ready | try: help  dashboard  status  heapinfo  lspci") 1 7

def kernelUiDrawFooter (v : Vitals) (t : Terminal.State) : Terminal.State :=
  let currentRow := t.terminalRow
  let currentColumn := t.terminalColumn
  let t := terminalDrawHline t 24 0x20 (terminalMakeColor .lightGrey .darkGrey)
  let t := terminalSetcolor t .lightGrey .darkGrey
  let t := terminalWriteat t (footerLine v) 1 24
  let t := terminalSetcolor t .lightGrey .black
  terminalSetCursor t currentColumn currentRow

/-- `kernel_ui_refresh_footer_if_needed`, with the value of `kernel_ui_last_monitor_slot` before and
after. -/
def kernelUiRefreshFooterIfNeeded (v : Vitals) (lastMonitorSlot : UInt32) (t : Terminal.State) :
    UInt32 × Terminal.State :=
  let slot := v.ticks / 20
  if slot = lastMonitorSlot then (lastMonitorSlot, t) else (slot, kernelUiDrawFooter v t)

/-- `kernel_draw_ui`. The clock may have moved on when the footer is drawn a second time. -/
def kernelDrawUi (v later : Vitals) (t : Terminal.State) : UInt32 × Terminal.State :=
  let t := kernelUiDrawHeader t
  let t := kernelUiDrawFooter v t
  let t := terminalSetRegion t termobShellTop termobShellBottom
  let t := terminalSetCursor t 1 termobShellTop
  let t := terminalPrompt t
  kernelUiRefreshFooterIfNeeded later 0xFFFFFFFF t

/-! ### The shell on the screen -/

/-- The rest of the kernel beside the footer's clock. -/
structure Monitored (κ : Type) where
  kernel : κ
  lastMonitorSlot : UInt32

/-- How the rest of the kernel appears on the screen. -/
structure Machine (κ : Type) where
  vitals : κ → Vitals
  /-- What interrupts do while the screen is drawn. -/
  later : κ → κ
  /-- What a command other than `clear` does and writes. A command that does not return gives `none`. -/
  execute : List UInt8 → κ → Option (κ × List Output)

variable {κ : Type}

def Machine.drawUi (machine : Machine κ) (rest : Monitored κ) (t : Terminal.State) :
    Monitored κ × Terminal.State :=
  let drawn := kernelDrawUi (machine.vitals rest.kernel) (machine.vitals (machine.later rest.kernel)) t
  (⟨machine.later rest.kernel, drawn.1⟩, drawn.2)

/-- `keyboard_process_command` up to the prompt anchor: a new line, what the command writes, and a
prompt. -/
def Machine.processCommand (machine : Machine κ) (cmd : List UInt8) (rest : Monitored κ)
    (t : Terminal.State) : Option (Monitored κ × Terminal.State) :=
  let t := terminalPutchar t 0x0A
  if cmd = [] then some (rest, terminalPrompt t)
  else if cmd = clearCommand then some (machine.drawUi rest t)
  else
    match machine.execute cmd rest.kernel with
    | none => none
    | some (kernel, outputs) => some ({ rest with kernel }, terminalPrompt (terminalOutput t outputs))

def Machine.host (machine : Machine κ) : Host (Monitored κ) where
  kernelDrawUi := machine.drawUi
  processCommand := machine.processCommand

/-- The end of `kernel_main` before the interrupts are on. -/
def Machine.boot (machine : Machine κ) (s : Console (Monitored κ)) : Console (Monitored κ) :=
  let drawn := machine.drawUi s.rest s.terminal
  keyboardInit { s with rest := drawn.1, terminal := drawn.2 }

/-- A scancode is processed, or the rest of the kernel runs and the main loop comes to the footer.
The wheel of the mouse is not moved. -/
inductive Event (κ : Type) where
  | scancode (scancode : UInt8)
  | idle (kernel : κ)

def Machine.step (machine : Machine κ) (s : Console (Monitored κ)) :
    Event κ → Option (Console (Monitored κ))
  | .scancode scancode => Shell.step machine.host s (.scancode scancode)
  | .idle kernel =>
    let refreshed := kernelUiRefreshFooterIfNeeded (machine.vitals kernel) s.rest.lastMonitorSlot s.terminal
    Shell.step machine.host s (.elsewhere ⟨kernel, refreshed.1⟩ refreshed.2)

/-! ### What the drawing leaves -/

def ShellRow (y : Nat) : Prop := termobShellTop ≤ y ∧ y ≤ termobShellBottom

instance : DecidablePred ShellRow := fun y =>
    inferInstanceAs (Decidable (termobShellTop ≤ y ∧ y ≤ termobShellBottom))

theorem not_shellRow_of_lt {y : Nat} (hy : y < 8) : ¬ShellRow y := fun h => absurd h.1 (not_le.mpr hy)

theorem kernelUiDrawFooter_spares {s t : Terminal.State} (h : Spares ShellRow s t) (v : Vitals) :
    Spares ShellRow s (kernelUiDrawFooter v t) := by
  have hfooter : ¬ShellRow 24 := by decide
  have hline := (h.drawHline hfooter 0x20 (terminalMakeColor .lightGrey .darkGrey)).setcolor
    .lightGrey .darkGrey
  exact ((hline.writeat hfooter (footerLine v) 1).setcolor .lightGrey .black).setCursor _ _

theorem kernelUiDrawHeader_spares {t t' : Terminal.State} (h : terminalInitialize t .lightGrey .black = t')
    (hlive : t'.viewOffset = 0) : Spares ShellRow t' (kernelUiDrawHeader t) := by
  unfold kernelUiDrawHeader
  rw [h]
  have hpanel := ((Spares.refl ShellRow hlive).drawHline (y := 0) (by decide) 0x20
    (terminalMakeColor .white .blue)).fillRect 0 1 80 7 (terminalMakeColor .lightGrey .black)
    fun yy _ hyy => not_shellRow_of_lt hyy
  have hbox := hpanel.drawBox 1 1 (vgaWidth - 2) 6 (terminalMakeColor .blue .black)
    fun yy _ hyy => not_shellRow_of_lt (by omega)
  have hbars := (hbox.drawHline (y := 7) (by decide) 0x20
    (terminalMakeColor .lightGrey .darkGrey)).drawHline (y := 24)
    (by decide) 0x20 (terminalMakeColor .lightGrey .darkGrey)
  dsimp only
  generalize terminalDrawHline _ 24 0x20 _ = t'' at hbars ⊢
  -- The texts, from the last one to the first.
  refine Spares.writeat (Spares.setcolor ?_ _ _) (by decide) _ _
  iterate 4 refine Spares.writeat ?_ (by decide) _ _
  refine Spares.setcolor ?_ _ _
  iterate 4 refine Spares.writeat ?_ (by decide) _ _
  refine Spares.setcolor ?_ _ _
  refine Spares.writeat (Spares.setcolor ?_ _ _) (by decide) _ _
  exact (hbars.setcolor _ _).writeat (by decide) _ _

theorem kernelUiDrawHeader_blank (t : Terminal.State) :
    (kernelUiDrawHeader t).viewOffset = 0 ∧
      ∀ y, ShellRow y → ∀ x, glyph ((kernelUiDrawHeader t).screen y x) = blank := by
  obtain ⟨hlive, hblank⟩ := terminalInitialize_blank t .lightGrey .black
  obtain ⟨t', ht'⟩ : ∃ t', terminalInitialize t .lightGrey .black = t' := ⟨_, rfl⟩
  rw [ht'] at hlive hblank
  have hspares := kernelUiDrawHeader_spares ht' hlive
  refine ⟨hspares.live, fun y hy x => (hspares.screen y hy x).trans (hblank y ?_ x)⟩
  exact Nat.lt_of_le_of_lt hy.2 (by decide)

theorem terminalSetRegion_shell (t : Terminal.State) :
    ∃ row column, terminalSetRegion t termobShellTop termobShellBottom =
      scrollbackResetHistory
        { t with regionTop := 8, regionBottom := 22, terminalRow := row, terminalColumn := column } := by
  unfold terminalSetRegion
  by_cases hrow : t.terminalRow < 8 ∨ t.terminalRow > 22
  · exact ⟨8, 0, congrArg scrollbackResetHistory (if_pos hrow)⟩
  · exact ⟨t.terminalRow, t.terminalColumn, congrArg scrollbackResetHistory (if_neg hrow)⟩

theorem kernelUiDrawFooter_refines {a : Log} (h : Terminal.Refines t a) (hbottom : a.bottom < 24)
    (v : Vitals) :
    Terminal.Refines (kernelUiDrawFooter v t) { a with color := terminalMakeColor .lightGrey .black } := by
  have hline := (h.drawHline_outside 0x20 (terminalMakeColor .lightGrey .darkGrey) (Or.inr hbottom)).step
    (.setcolor .lightGrey .darkGrey)
  have htext := ((hline.writeat_outside (footerLine v) 1 (y := 24) (Or.inr hbottom)).step
    (.setcolor .lightGrey .black)).step (.setCursor t.terminalColumn t.terminalRow)
  have hcursor : Log.step (Log.step (Log.step a (.setcolor .lightGrey .darkGrey))
    (.setcolor .lightGrey .black))
      (.setCursor t.terminalColumn t.terminalRow) =
          { a with color := terminalMakeColor .lightGrey .black } := by
    rw [h.kept.column, h.kept.row]
    simp only [Log.step, ite_self]
  rw [hcursor] at htext
  exact htext

theorem kernelUiRefreshFooter_refines {a : Log} (h : Terminal.Refines t a) (hbottom : a.bottom < 24)
    (v : Vitals) (slot : UInt32) :
    ∃ color, Terminal.Refines (kernelUiRefreshFooterIfNeeded v slot t).2 { a with color } := by
  unfold kernelUiRefreshFooterIfNeeded
  dsimp only
  split
  · exact ⟨a.color, h⟩
  · exact ⟨_, kernelUiDrawFooter_refines h hbottom v⟩

theorem shellRegion_ahead (hblank : ∀ y, ShellRow y → ∀ x, glyph (t.screen y x) = blank) :
    ∃ a, Terminal.Refines (terminalSetCursor (terminalSetRegion t termobShellTop termobShellBottom)
      1 termobShellTop) a ∧ Ahead a ∧ a.bounds = (8, 22) ∧ a.row = 8 ∧ a.column = 1 := by
  have hrefines := refines_setRegion t termobShellTop termobShellBottom
  obtain ⟨row, column, hregion⟩ := terminalSetRegion_shell t
  obtain ⟨hscreen, _, htop, hbottom⟩ := resetHistory_screen
    { t with regionTop := 8, regionBottom := 22, terminalRow := row, terminalColumn := column }
  rw [← hregion] at hscreen htop hbottom
  generalize terminalSetRegion t termobShellTop termobShellBottom = u at hrefines hscreen htop hbottom ⊢
  have hfirst : u.regionTop = 8 := htop
  have hlast : u.regionBottom = 22 := hbottom
  have hstart := hrefines.step (.setCursor 1 termobShellTop)
  have hchar : ∀ y, 8 ≤ y → y ≤ 22 → ∀ x,
      ((Log.ofScreen u).step (.setCursor 1 termobShellTop)).charAt y x = blank := by
    intro y hlow hhigh x
    have hin : (Log.ofScreen u).top ≤ y ∧ y ≤ (Log.ofScreen u).bottom :=
      ⟨hfirst.trans_le hlow, hhigh.trans hlast.ge⟩
    refine (hrefines.charAt rfl hin x).trans ?_
    rw [hscreen]
    exact hblank y ⟨hlow, hhigh⟩ x
  refine ⟨_, hstart, ⟨⟨hstart.kept.sized, ⟨hfirst.le, ?_⟩, fun y hy hle => ?_⟩, ?_, fun x _ => ?_⟩,
    Prod.ext hfirst hlast, rfl, rfl⟩
  · exact (show 8 ≤ 22 by decide).trans hlast.ge
  · exact hchar y (Nat.le_of_lt hy) (hle.trans hlast.le)
  · exact (show 1 < vgaWidth by decide)
  · exact hchar 8 (Nat.le_refl _) (by decide) x

theorem kernelDrawUi_eq (v later : Vitals) (t : Terminal.State) :
    kernelDrawUi v later t =
      kernelUiRefreshFooterIfNeeded later 0xFFFFFFFF
        (terminalOutput (terminalSetCursor (terminalSetRegion (kernelUiDrawFooter v (kernelUiDrawHeader t))
          termobShellTop termobShellBottom) 1 termobShellTop) promptOutput) := by
  rw [← terminalPrompt_eq]
  rfl

/-- **The new screen.** Whatever the terminal showed before, the shell has rows 8 to 22 as its
region, blank but for the prompt, and the cursor is behind the prompt at column 13 of row 8. -/
theorem kernelDrawUi_spec (v later : Vitals) (t : Terminal.State) :
    ∃ a, Terminal.Refines (kernelDrawUi v later t).2 a ∧ Ahead a ∧ a.bounds = (8, 22) ∧ a.row = 8 ∧
        a.column = 13 := by
  obtain ⟨hlive, hblank⟩ := kernelUiDrawHeader_blank t
  rw [kernelDrawUi_eq]
  generalize kernelUiDrawHeader t = t at hlive hblank ⊢
  have hfooter := kernelUiDrawFooter_spares (Spares.refl ShellRow hlive) v
  generalize kernelUiDrawFooter v t = t' at hfooter ⊢
  obtain ⟨a, hstart, hahead, hbounds, hrow, hcolumn⟩ := shellRegion_ahead (t := t') fun y hy x =>
    (hfooter.screen y hy x).trans (hblank y hy x)
  have hplace := prompt_cursor (a := a) (by rw [hcolumn]; decide)
  rw [hrow, hcolumn] at hplace
  have hbounds' := (output_bounds a promptOutput).trans hbounds
  have hprompted := hahead.output promptOutput
  have hrefines := hstart.output promptOutput
  generalize a.output promptOutput = b at hplace hbounds' hprompted hrefines
  generalize terminalOutput _ promptOutput = u at hrefines ⊢
  have hbottom : b.bottom = 22 := congrArg Prod.snd hbounds'
  obtain ⟨color, hlater⟩ :=
    kernelUiRefreshFooter_refines hrefines (by rw [hbottom]; decide) later 0xFFFFFFFF
  exact ⟨_, hlater, hprompted.recolor color, hbounds', hplace⟩

end TermobKernel.Shell

import Mathlib.Data.List.GetD
import TermobKernel.Terminal.Log

/-!
# The characters of the rows

The rows of the region by their characters, without the colors: what a cell that is written changes,
what a scroll leaves, and that all is blank ahead of the cursor as long as the terminal is only
written to at the cursor. The last part is about the whole screen: what clearing it leaves, and
which rows a drawing leaves alone.
-/

namespace TermobKernel.Terminal
open Text

def glyph (cell : UInt16) : UInt8 := cell.toUInt8

def blank : UInt8 := 0x20

@[simp] theorem glyph_vgaEntry (c color : UInt8) : glyph (vgaEntry c color) = c := by
  have hc := c.toNat_lt
  apply UInt8.toNat_inj.mp
  rw [glyph, vgaEntry, UInt16.toNat_toUInt8, UInt16.toNat_or, UInt16.toNat_shiftLeft, UInt8.toNat_toUInt16,
    UInt8.toNat_toUInt16, Nat.or_mod_two_pow]
  have hcolor : color.toNat <<< ((8 : UInt16).toNat % 16) % 2 ^ 16 % 2 ^ 8 = 0 := by
    rw [show (8 : UInt16).toNat % 16 = 8 from rfl, Nat.shiftLeft_eq]
    omega
  rw [hcolor, Nat.or_zero]
  exact Nat.mod_eq_of_lt hc

theorem glyph_blankLine (color : UInt8) (x : Fin vgaWidth) : glyph (blankLine color x) = blank :=
  glyph_vgaEntry ..

/-! ### The rows of the log -/

/-- The region is on the screen and has its lines. -/
structure Log.Sized (a : Log) : Prop where
  region : a.top ≤ a.bottom ∧ a.bottom < vgaHeight
  full : a.height ≤ a.lines.length

def Log.charAt (a : Log) (y : Nat) (x : Fin vgaWidth) : UInt8 :=
  glyph (a.lines.getD (a.lines.length - a.height + (y - a.top)) (blankLine 0) x)

/-- The same region, cursor and color, and as many lines. -/
structure SameFrame (a b : Log) : Prop where
  top : b.top = a.top
  bottom : b.bottom = a.bottom
  row : b.row = a.row
  column : b.column = a.column
  color : b.color = a.color
  length : b.lines.length = a.lines.length

section rows
variable {a b : Log}
variable {y : Nat}

theorem SameFrame.refl (a : Log) : SameFrame a a := ⟨rfl, rfl, rfl, rfl, rfl, rfl⟩

theorem SameFrame.trans {c : Log} (h : SameFrame a b) (h' : SameFrame b c) : SameFrame a c :=
  ⟨h'.top.trans h.top, h'.bottom.trans h.bottom, h'.row.trans h.row, h'.column.trans h.column,
    h'.color.trans h.color, h'.length.trans h.length⟩

theorem SameFrame.sized (h : SameFrame a b) (ha : a.Sized) : b.Sized := by
  refine ⟨?_, ?_⟩
  · rw [h.top, h.bottom]
    exact ha.region
  · have hfull := ha.full
    rw [Log.height] at hfull ⊢
    rwa [h.top, h.bottom, h.length]

theorem Kept.sized {s : State} (h : Kept s a) : a.Sized := ⟨h.region, h.full⟩

theorem write_frame (a : Log) (c color : UInt8) (x y : Nat) : SameFrame a (a.write c color x y) := by
  unfold Log.write
  split
  · exact ⟨rfl, rfl, rfl, rfl, rfl, List.length_modify ..⟩
  · exact SameFrame.refl a

theorem Log.Sized.index_lt (ha : a.Sized) (hy : a.top ≤ y ∧ y ≤ a.bottom) :
    a.lines.length - a.height + (y - a.top) < a.lines.length := by
  have hfull := ha.full
  unfold Log.height at *
  omega

theorem Refines.charAt {s : State} (h : Refines s a) (hlive : a.offset = 0) (hy : a.top ≤ y ∧ y ≤ a.bottom)
    (x : Fin vgaWidth) : a.charAt y x = glyph (s.screen y x) := by
  have hrow : y - a.top < a.height := by
    unfold Log.height
    omega
  have hshown := h.shown_live hlive hrow
  rw [Nat.add_sub_cancel' hy.1] at hshown
  rw [Log.charAt, List.getD_eq_getElem?_getD, hshown, Option.getD_some]

theorem charAt_write (ha : a.Sized) (c color : UInt8) (x y : Nat) {y' : Nat}
    (hy' : a.top ≤ y' ∧ y' ≤ a.bottom) (x' : Fin vgaWidth) :
    (a.write c color x y).charAt y' x' = if y' = y ∧ x'.val = x then c else a.charAt y' x' := by
  have hbottom := ha.region.2
  have hlt := ha.index_lt hy'
  unfold Log.write
  split
  · next hx =>
    have hheight : ∀ (lines : List Line), Log.height { a with lines, offset := 0 } =
      a.height := fun _ => rfl
    rw [Log.charAt, Log.charAt, hheight]
    dsimp only
    rw [List.length_modify, List.getD_eq_getElem?_getD, List.getElem?_modify, List.getElem?_eq_getElem hlt,
      List.getD_eq_getElem?_getD, List.getElem?_eq_getElem hlt, Option.map_eq_map, Option.map_some,
      Option.getD_some, Option.getD_some]
    by_cases hrow : y' = y
    · rw [if_pos (by rw [hrow]), Function.update_apply]
      by_cases hcolumn : x'.val = x
      · rw [if_pos (Fin.ext hcolumn), if_pos ⟨hrow, hcolumn⟩, glyph_vgaEntry]
      · rw [if_neg (fun h => hcolumn (congrArg Fin.val h)), if_neg (fun h => hcolumn h.2)]
    · rw [if_neg (by omega), if_neg (fun h => hrow h.1)]
  · next hx =>
    rw [if_neg]
    rintro ⟨rfl, rfl⟩
    exact hx ⟨x'.isLt, by omega, hy'⟩

theorem charAt_scroll (ha : a.Sized) (hy : a.top ≤ y ∧ y ≤ a.bottom) (x : Fin vgaWidth) :
    a.scroll.charAt y x = if y = a.bottom then blank else a.charAt (y + 1) x := by
  have hfull := ha.full
  have hheight : a.scroll.height = a.height := rfl
  have htop : a.scroll.top = a.top := rfl
  have hlines : a.scroll.lines = a.lines ++ [blankLine a.color] := rfl
  rw [Log.charAt, hheight, htop, hlines, List.length_append, List.length_singleton]
  by_cases hlast : y = a.bottom
  · have hindex : a.lines.length + 1 - a.height + (y - a.top) = a.lines.length := by
      unfold Log.height at *
      omega
    rw [if_pos hlast, hindex, List.getD_append_right _ _ _ _ (Nat.le_refl _), Nat.sub_self]
    exact glyph_blankLine a.color x
  · have hindex : a.lines.length + 1 - a.height + (y - a.top) = a.lines.length - a.height +
        (y + 1 - a.top) := by
      omega
    rw [if_neg hlast, hindex, List.getD_append _ _ _ _ (ha.index_lt ⟨by omega, by omega⟩), Log.charAt]

theorem sized_scroll (ha : a.Sized) : a.scroll.Sized :=
  ⟨ha.region, ha.full.trans (by rw [Log.scroll, List.length_append]; exact Nat.le_add_right ..)⟩

end rows

/-! ### Texts in a row -/

def Log.putText (a : Log) (color : UInt8) : List UInt8 → Nat → Nat → Log
  | [], _, _ => a
  | c :: data, x, y => (a.write c color x y).putText color data (x + 1) y

section texts
variable {s : State} {a : Log}

theorem putText_frame (a : Log) (color : UInt8) (data : List UInt8) (x y : Nat) :
    SameFrame a (a.putText color data x y) := by
  induction data generalizing a x with
  | nil => exact SameFrame.refl a
  | cons c data ih => exact (write_frame a c color x y).trans (ih _ (x + 1))

theorem charAt_putText (ha : a.Sized) (color : UInt8) (data : List UInt8) (x y : Nat) {y' : Nat}
    (hy' : a.top ≤ y' ∧ y' ≤ a.bottom) (x' : Fin vgaWidth) :
    (a.putText color data x y).charAt y' x' =
      if y' = y ∧ x ≤ x'.val ∧
      x'.val < x + data.length then data.getD (x'.val - x) blank else a.charAt y' x' := by
  induction data generalizing a x with
  | nil => exact (if_neg (by rw [List.length_nil]; omega)).symm
  | cons c data ih =>
    have hframe := write_frame a c color x y
    rw [Log.putText, ih (hframe.sized ha) (x + 1) (by rw [hframe.top, hframe.bottom]; exact hy'),
      charAt_write ha c color x y hy', List.length_cons]
    by_cases hrow : y' = y
    · by_cases hcolumn : x'.val = x
      · rw [if_neg (by omega), if_pos ⟨hrow, hcolumn⟩, if_pos ⟨hrow, by omega, by omega⟩, hcolumn,
          Nat.sub_self, List.getD_cons_zero]
      · by_cases hin : x + 1 ≤ x'.val ∧ x'.val < x + 1 + data.length
        · rw [if_pos ⟨hrow, hin⟩, if_pos ⟨hrow, by omega, by omega⟩,
            show x'.val - x = x'.val - (x + 1) + 1 by omega, List.getD_cons_succ]
        · rw [if_neg (fun h => hin h.2), if_neg (fun h => hcolumn h.2), if_neg (by omega)]
    · rw [if_neg (fun h => hrow h.1), if_neg (fun h => hrow h.1), if_neg (fun h => hrow h.1)]

theorem putText_right (a : Log) (color : UInt8) (data : List UInt8) {x : Nat} (hx : vgaWidth ≤ x)
    (y : Nat) : a.putText color data x y = a := by
  induction data generalizing x with
  | nil => rfl
  | cons c data ih =>
    have hwrite : a.write c color x y = a := dif_neg fun h => absurd h.1 (not_lt.mpr hx)
    rw [Log.putText, hwrite, ih (by omega)]

theorem Refines.writeat (h : Refines s a) {data : List UInt8} (hplain : 0 ∉ data) (x y : Nat) :
    Refines (terminalWriteat s data x y) (a.putText a.color data x y) := by
  induction data generalizing s a x with
  | nil => exact h
  | cons c data ih =>
    rw [List.mem_cons, not_or] at hplain
    rw [terminalWriteat, if_neg (Ne.symm hplain.1)]
    split
    · next hright =>
      rw [putText_right a a.color (c :: data) hright]
      exact h
    · have hrest := ih (h.write c s.terminalColor x y) hplain.2 (x + 1)
      rw [(write_frame ..).color, h.kept.color] at hrest
      rw [h.kept.color]
      exact hrest

theorem Refines.writeat_outside (h : Refines s a) (data : List UInt8) (x : Nat) {y : Nat}
    (hy : y < a.top ∨ a.bottom < y) : Refines (terminalWriteat s data x y) a := by
  induction data generalizing s x with
  | nil => exact h
  | cons c data ih =>
    have hwrite := h.write c s.terminalColor x y
    rw [show a.write c s.terminalColor x y = a from dif_neg (by omega)] at hwrite
    unfold terminalWriteat
    split
    · exact h
    split
    · exact h
    · exact ih hwrite (x + 1)

theorem Refines.drawHline_outside (h : Refines s a) (c color : UInt8) {y : Nat}
    (hy : y < a.top ∨ a.bottom < y) :
    Refines (terminalDrawHline s y c color) a := by
  unfold terminalDrawHline
  split
  · exact h
  · induction List.range vgaWidth generalizing s with
    | nil => exact h
    | cons x cells ih =>
      have hwrite := h.write c color x y
      rw [show a.write c color x y = a from dif_neg (by omega)] at hwrite
      exact ih hwrite

theorem foldl_write_row (color : UInt8) (y n : Nat) : ∀ (a : Log) (x : Nat),
    ((List.range' x n).map fun xx => (xx, y)).foldl (fun a p => a.write 0x20 color p.1 p.2) a =
      a.putText color (List.replicate n blank) x y := by
  induction n with
  | zero => exact fun a x => rfl
  | succ n ih =>
    intro a x
    rw [List.range'_succ, List.map_cons, List.foldl_cons, ih]
    rfl

theorem Refines.fillRow (h : Refines s a) (color : UInt8) {x y n : Nat} (hx : x + n ≤ vgaWidth)
    (hy : y < vgaHeight) :
    Refines (terminalFillRect s (UInt32.ofNat x) (UInt32.ofNat y) (UInt32.ofNat n) 1 color)
      (a.putText color (List.replicate n blank) x y) := by
  have hwidth : vgaWidth = 80 := rfl
  have hheight : vgaHeight = 25 := rfl
  have hfill := h.fillRect (UInt32.ofNat x) (UInt32.ofNat y) (UInt32.ofNat n) 1 color
  have hleft : (UInt32.ofNat x).toNat = x := UInt32.toNat_ofNat_of_lt' (by change x < 2 ^ 32; omega)
  have htop : (UInt32.ofNat y).toNat = y := UInt32.toNat_ofNat_of_lt' (by change y < 2 ^ 32; omega)
  have hcount : (UInt32.ofNat n).toNat = n := UInt32.toNat_ofNat_of_lt' (by change n < 2 ^ 32; omega)
  have hright : (UInt32.ofNat x + UInt32.ofNat n).toNat = x + n := by
    rw [UInt32.toNat_add, hleft, hcount]
    omega
  have hbottom : (UInt32.ofNat y + 1).toNat = y + 1 := by
    rw [UInt32.toNat_add, htop]
    change (y + 1) % 2 ^ 32 = y + 1
    omega
  have hcells : Log.rectangle (UInt32.ofNat x) (UInt32.ofNat y) (UInt32.ofNat n) 1 =
      (List.range' x n).map fun xx => (xx, y) := by
    rw [Log.rectangle, hright, hbottom, hleft, htop, show min (y + 1) vgaHeight - y = 1 by omega,
      show min (x + n) vgaWidth - x = n by omega]
    simp
  rw [hcells, foldl_write_row] at hfill
  exact hfill

end texts

/-! ### Ahead of the cursor -/

/-- The rows of the region below the cursor are blank. -/
structure Below (a : Log) : Prop where
  sized : a.Sized
  row : a.top ≤ a.row ∧ a.row ≤ a.bottom
  below : ∀ y, a.row < y → y ≤ a.bottom → ∀ x, a.charAt y x = blank

/-- So is the rest of its row. -/
structure Ahead (a : Log) : Prop extends Below a where
  column : a.column < vgaWidth
  rest : ∀ x : Fin vgaWidth, a.column ≤ x → a.charAt a.row x = blank

section ahead
variable {a : Log}

theorem Below.nextRow (h : Below a) : Ahead a.nextRow := by
  obtain ⟨htop, hbottom⟩ := h.row
  have hwidth : 0 < vgaWidth := by decide
  unfold Log.nextRow
  split
  · next hover =>
    have hend : a.row = a.bottom := by omega
    have hsized := sized_scroll h.sized
    refine ⟨⟨hsized, ⟨h.sized.region.1, Nat.le_refl _⟩, fun y hy hle => ?_⟩, hwidth, fun x _ => ?_⟩
    · exact absurd (show a.bottom < y from hy) (not_lt.mpr hle)
    · change a.scroll.charAt a.bottom x = blank
      rw [charAt_scroll h.sized ⟨h.sized.region.1, Nat.le_refl _⟩, if_pos rfl]
  · next hover =>
    refine ⟨⟨⟨h.sized.region, h.sized.full⟩, ⟨?_, ?_⟩, fun y hy hle x => ?_⟩, hwidth, fun x _ => ?_⟩
    · change a.top ≤ a.row + 1
      omega
    · change a.row + 1 ≤ a.bottom
      omega
    · have hlt : a.row + 1 < y := hy
      exact h.below y (by omega) hle x
    · exact h.below (a.row + 1) (Nat.lt_succ_self _) (by omega) x

theorem Ahead.recolor (h : Ahead a) (color : UInt8) : Ahead { a with color } :=
  ⟨⟨⟨h.sized.region, h.sized.full⟩, h.row, h.below⟩, h.column, h.rest⟩

theorem Ahead.putchar (h : Ahead a) (c : UInt8) : Ahead (a.putchar c) := by
  unfold Log.putchar
  split
  · exact h.toBelow.nextRow
  have hframe := write_frame a c a.color a.column a.row
  have hcell := fun {y : Nat} (hy : a.top ≤ y ∧ y ≤ a.bottom) x =>
    charAt_write h.sized c a.color a.column a.row hy x
  generalize a.write c a.color a.column a.row = b at hframe hcell ⊢
  obtain ⟨htop, hbottom⟩ := h.row
  have hbelow : ∀ y, a.row < y → y ≤ a.bottom → ∀ x, b.charAt y x = blank := by
    intro y hy hle x
    rw [hcell ⟨by omega, hle⟩, if_neg (by omega)]
    exact h.below y hy hle x
  have hwritten : Below b := by
    refine ⟨hframe.sized h.sized, ?_, ?_⟩
    · rw [hframe.top, hframe.bottom, hframe.row]
      exact h.row
    · rw [hframe.row, hframe.bottom]
      exact hbelow
  dsimp only
  split
  · exact hwritten.nextRow
  · next hroom =>
    refine ⟨⟨⟨hwritten.sized.region, hwritten.sized.full⟩, hwritten.row, hwritten.below⟩,
      ?_, fun x hx => ?_⟩
    · exact not_le.mp hroom
    · have hlt : a.column + 1 ≤ x.val := hx
      change b.charAt b.row x = blank
      rw [hframe.row, hcell h.row, if_neg (by omega)]
      exact h.rest x (by omega)

theorem Ahead.writeText (h : Ahead a) (data : List UInt8) : Ahead (a.writeText data) := by
  unfold Log.writeText
  induction data.takeWhile (· ≠ 0) generalizing a with
  | nil => exact h
  | cons c data ih => exact ih (h.putchar c)

/-- The calls that write at the cursor. -/
inductive Output where
  | setcolor (fg bg : VgaColor)
  | putchar (c : UInt8)
  | write (data : List UInt8)
  deriving DecidableEq, Repr

def Output.op : Output → Op
  | .setcolor fg bg => .setcolor fg bg
  | .putchar c => .putchar c
  | .write data => .write data

def terminalOutput (s : State) (outputs : List Output) : State := (outputs.map Output.op).foldl step s

def Log.output (a : Log) (outputs : List Output) : Log := (outputs.map Output.op).foldl Log.step a

theorem Refines.output {s : State} (h : Refines s a) (outputs : List Output) :
    Refines (terminalOutput s outputs) (a.output outputs) := h.run _

theorem Ahead.output (h : Ahead a) (outputs : List Output) : Ahead (a.output outputs) := by
  unfold Log.output
  induction outputs generalizing a with
  | nil => exact h
  | cons o outputs ih =>
    apply ih
    cases o with
    | setcolor fg bg => exact h.recolor _
    | putchar c => exact h.putchar c
    | write data => exact h.writeText data

/-! ### The region stays -/

def Log.bounds (a : Log) : Nat × Nat := (a.top, a.bottom)

theorem SameFrame.bounds {b : Log} (h : SameFrame a b) : b.bounds = a.bounds := by
  rw [Log.bounds, Log.bounds, h.top, h.bottom]

theorem foldl_bounds {α : Type*} {f : Log → α → Log} (hf : ∀ a x, (f a x).bounds = a.bounds)
    (l : List α) (a : Log) :
    (l.foldl f a).bounds = a.bounds := by
  induction l generalizing a with
  | nil => rfl
  | cons x l ih => rw [List.foldl_cons, ih, hf]

theorem putchar_bounds (a : Log) (c : UInt8) : (a.putchar c).bounds = a.bounds := by
  have hnext : ∀ b : Log, b.nextRow.bounds = b.bounds := by
    intro b
    unfold Log.nextRow
    split
    · rfl
    · rfl
  unfold Log.putchar
  split
  · exact hnext a
  dsimp only
  split
  · rw [hnext, (write_frame ..).bounds]
  · exact (write_frame a c a.color a.column a.row).bounds

theorem output_bounds (a : Log) (outputs : List Output) : (a.output outputs).bounds = a.bounds := by
  rw [Log.output, List.foldl_map]
  refine foldl_bounds (fun a o => ?_) outputs a
  cases o with
  | setcolor fg bg => rfl
  | putchar c => exact putchar_bounds a c
  | write data => exact foldl_bounds putchar_bounds _ a

/-! ### The prompt -/

def promptOutput : List Output :=
  [.setcolor .darkGrey .black, .write (ascii "["), .setcolor .lightGreen .black, .write (ascii "termob"),
    .setcolor .darkGrey .black, .write (ascii " "), .setcolor .white .black, .write (ascii "/"),
    .setcolor .darkGrey .black, .write (ascii "]"), .setcolor .lightRed .black, .write (ascii "# "),
    .setcolor .lightGrey .black]

theorem terminalPrompt_eq (s : State) : terminalPrompt s = terminalOutput s promptOutput := rfl

def Output.text : Output → List UInt8
  | .setcolor _ _ => []
  | .putchar c => [c]
  | .write data => data

def takesCell (c : UInt8) : Bool := decide (c ≠ 0) && decide (c ≠ 0x0A)

theorem putchar_cursor {c : UInt8} (hc : takesCell c = true) (hroom : a.column + 1 < vgaWidth) :
    (a.putchar c).row = a.row ∧ (a.putchar c).column = a.column + 1 := by
  have hframe := write_frame a c a.color a.column a.row
  have hput : a.putchar c = { a.write c a.color a.column a.row with column := a.column + 1 } := by
    rw [takesCell, Bool.and_eq_true, decide_eq_true_eq, decide_eq_true_eq] at hc
    rw [Log.putchar, if_neg hc.2]
    exact if_neg (by omega)
  rw [hput]
  exact ⟨hframe.row, rfl⟩

theorem writeText_cursor {data : List UInt8} (hplain : data.all takesCell = true)
    (hroom : a.column + data.length < vgaWidth) :
    (a.writeText data).row = a.row ∧ (a.writeText data).column = a.column + data.length := by
  induction data generalizing a with
  | nil => exact ⟨rfl, rfl⟩
  | cons c data ih =>
    rw [List.all_cons, Bool.and_eq_true] at hplain
    rw [List.length_cons] at hroom ⊢
    obtain ⟨hrow, hcolumn⟩ := putchar_cursor hplain.1 (a := a) (by omega)
    obtain ⟨hrow', hcolumn'⟩ := ih hplain.2 (a := a.putchar c) (by omega)
    have hfirst : a.writeText (c :: data) = (a.putchar c).writeText data := by
      have hpos := (Bool.and_eq_true _ _).mp hplain.1
      rw [Log.writeText, List.takeWhile_cons_of_pos (p := fun c => decide (c ≠ 0)) hpos.1,
        List.foldl_cons, Log.writeText]
    rw [hfirst]
    exact ⟨hrow'.trans hrow, by omega⟩

theorem output_cursor (outputs : List Output) (hplain : (outputs.flatMap Output.text).all takesCell = true)
    (hroom : a.column + (outputs.flatMap Output.text).length < vgaWidth) :
    (a.output outputs).row = a.row ∧
      (a.output outputs).column = a.column + (outputs.flatMap Output.text).length := by
  induction outputs generalizing a with
  | nil => exact ⟨rfl, rfl⟩
  | cons o outputs ih =>
    rw [List.flatMap_cons, List.all_append, Bool.and_eq_true] at hplain
    rw [List.flatMap_cons, List.length_append] at hroom ⊢
    have hstep : (a.step o.op).row = a.row ∧ (a.step o.op).column = a.column + o.text.length := by
      cases o with
      | setcolor fg bg => exact ⟨rfl, rfl⟩
      | putchar c =>
        have hc : takesCell c = true := by simpa [Output.text] using hplain.1
        exact putchar_cursor hc (by simp only [Output.text, List.length_singleton] at hroom; omega)
      | write data => exact writeText_cursor hplain.1 (by simp only [Output.text] at hroom; omega)
    obtain ⟨hrow, hcolumn⟩ := ih hplain.2 (a := a.step o.op) (by omega)
    exact ⟨hrow.trans hstep.1, hcolumn.trans (by omega)⟩

theorem prompt_cursor (hroom : a.column + 12 < vgaWidth) :
    (a.output promptOutput).row = a.row ∧ (a.output promptOutput).column = a.column + 12 :=
  output_cursor promptOutput (by decide) hroom

end ahead

/-! ### The whole screen -/

/-- Writing a cell does not draw the region again. -/
def Settled (s : State) : Prop := s.viewOffset = 0 ∨ s.syncing = true

/-- The live view stays, and the characters of some rows do. -/
structure Spares (rows : Nat → Prop) (s t : State) : Prop where
  live : t.viewOffset = 0
  screen : ∀ y, rows y → ∀ x, glyph (t.screen y x) = glyph (s.screen y x)

section screen
variable {s t : State}
variable {y : Nat}

theorem visibleTop_live (hlive : s.viewOffset = 0) : (scrollbackVisibleTopLogical s).2 = s := by
  unfold scrollbackVisibleTopLogical
  split
  · rfl
  · dsimp only
    rw [if_neg (by omega)]

theorem leaveView_settled (h : Settled s) (y : Nat) : terminalLeaveView s y = s := by
  refine if_neg ?_
  rintro ⟨hsyncing, _, _, hoffset⟩
  rcases h with h | h
  · exact hoffset h
  · rw [h] at hsyncing
    cases hsyncing

theorem updateCell_live (hlive : s.viewOffset = 0) (x : Fin vgaWidth) (y : Nat) (entry : UInt16) :
    (scrollbackUpdateCell s x y entry).screen = s.screen ∧
        (scrollbackUpdateCell s x y entry).viewOffset = 0 := by
  unfold scrollbackUpdateCell
  split
  · exact ⟨rfl, hlive⟩
  · dsimp only
    rw [visibleTop_live hlive]
    split
    · exact ⟨rfl, hlive⟩
    · exact ⟨rfl, hlive⟩

theorem putentryat_settled (h : Settled s) (c color : UInt8) (x y : Nat) :
    Settled (terminalPutentryat s c color x y) ∧
      (s.viewOffset = 0 → (terminalPutentryat s c color x y).viewOffset = 0) ∧
      ∀ y' (x' : Fin vgaWidth), glyph ((terminalPutentryat s c color x y).screen y' x') =
        if y' = y ∧ x'.val = x ∧ y < vgaHeight then c else glyph (s.screen y' x') := by
  unfold terminalPutentryat
  split
  · next hx =>
    rw [leaveView_settled h]
    have hcell : ∀ y' (x' : Fin vgaWidth),
        glyph (Function.update s.screen y
          (Function.update (s.screen y) ⟨x, hx.1⟩ (vgaEntry c color)) y' x') =
            if y' = y ∧ x'.val = x ∧ y < vgaHeight then c else glyph (s.screen y' x') := by
      intro y' x'
      by_cases hy : y' = y
      · rw [hy, Function.update_self, Function.update_apply]
        by_cases hcolumn : x' = ⟨x, hx.1⟩
        · rw [if_pos hcolumn, glyph_vgaEntry, if_pos ⟨rfl, congrArg Fin.val hcolumn, hx.2⟩]
        · rw [if_neg hcolumn, if_neg fun hin => hcolumn (Fin.ext hin.2.1)]
      · rw [Function.update_of_ne hy, if_neg fun hin => hy hin.1]
    dsimp only
    split
    · next hsyncing =>
      have hlive : s.viewOffset = 0 := h.resolve_right (by rw [hsyncing]; exact Bool.false_ne_true)
      obtain ⟨hscreen, hoffset⟩ := updateCell_live
        (s := { s with
          screen := Function.update s.screen y
            (Function.update (s.screen y) ⟨x, hx.1⟩ (vgaEntry c color)) })
        hlive ⟨x, hx.1⟩ y (vgaEntry c color)
      refine ⟨Or.inl hoffset, fun _ => hoffset, ?_⟩
      rw [hscreen]
      exact hcell
    · exact ⟨h, id, hcell⟩
  · next hx =>
    refine ⟨h, id, fun y' x' => ?_⟩
    rw [if_neg]
    rintro ⟨_, hcolumn, hy⟩
    exact hx ⟨hcolumn ▸ x'.isLt, hy⟩

/-! ### Clearing the screen -/

/-- The first cell of the region that is written ends the look back. -/
theorem putentryat_settles (c color : UInt8) {x y : Nat} (hy : s.regionTop ≤ y ∧ y ≤ s.regionBottom)
    (hx : x < vgaWidth ∧ y < vgaHeight) :
    Settled (terminalPutentryat s c color x y) ∧
      glyph ((terminalPutentryat s c color x y).screen y ⟨x, hx.1⟩) = c := by
  have hleft : Settled (terminalLeaveView s y) := by
    unfold terminalLeaveView
    split
    · left
      unfold scrollbackSyncRegionFromHistory
      dsimp only
      rw [scrollbackSyncRows_eq, visibleTop_live rfl]
    · next hstay =>
      by_contra hsettled
      rw [Settled, not_or, Bool.not_eq_true] at hsettled
      exact hstay ⟨hsettled.2, hy.1, hy.2, hsettled.1⟩
  have hsame : terminalPutentryat s c color x y =
      terminalPutentryat (terminalLeaveView s y) c color x y := by
    rw [terminalPutentryat, terminalPutentryat, dif_pos hx, dif_pos hx, leaveView_settled hleft]
  obtain ⟨hsettled, _, hcell⟩ := putentryat_settled hleft c color x y
  rw [hsame]
  exact ⟨hsettled, (hcell y ⟨x, hx.1⟩).trans (if_pos ⟨rfl, rfl, hx.2⟩)⟩

theorem blankCells_settled (color : UInt8) (cells : List (Nat × Nat)) : ∀ {s : State}, Settled s →
    let t := cells.foldl (fun s p => terminalPutentryat s blank color p.1 p.2) s
    Settled t ∧ ∀ y < vgaHeight, ∀ x : Fin vgaWidth,
      ((x.val, y) ∈ cells ∨ glyph (s.screen y x) = blank) → glyph (t.screen y x) = blank := by
  induction cells with
  | nil =>
    intro s h
    exact ⟨h, fun y _ x hblank => hblank.resolve_left List.not_mem_nil⟩
  | cons p cells ih =>
    intro s h
    obtain ⟨hsettled, _, hcell⟩ := putentryat_settled h blank color p.1 p.2
    obtain ⟨hsettled', hblank⟩ := ih hsettled
    refine ⟨hsettled', fun y hy x hx => hblank y hy x ?_⟩
    rw [List.mem_cons] at hx
    rw [hcell]
    rcases hx with (hp | hmem) | hs
    · right
      rw [if_pos (by rw [← hp]; exact ⟨rfl, rfl, hy⟩)]
    · exact Or.inl hmem
    · right
      split
      · rfl
      · exact hs

theorem resetRows_screen (rounds y : Nat) (s : State) :
    (scrollbackResetRows rounds y s).screen = s.screen ∧
      (scrollbackResetRows rounds y s).viewOffset = s.viewOffset ∧
      SameRegion s (scrollbackResetRows rounds y s) := by
  induction rounds generalizing y s with
  | zero => exact ⟨rfl, rfl, rfl, rfl⟩
  | succ rounds ih =>
    obtain ⟨hscreen, hoffset, htop, hbottom⟩ := ih (y + 1) (setHistory (scrollbackAppendBlankLine s).2
      (scrollbackAppendBlankLine s).1 ((scrollbackAppendBlankLine s).2.screen
        ((scrollbackAppendBlankLine s).2.regionTop + y)))
    have happend : (scrollbackAppendBlankLine s).2.screen = s.screen ∧
        (scrollbackAppendBlankLine s).2.viewOffset = s.viewOffset ∧
        SameRegion s (scrollbackAppendBlankLine s).2 := by
      unfold scrollbackAppendBlankLine
      split
      · exact ⟨rfl, rfl, rfl, rfl⟩
      · exact ⟨rfl, rfl, rfl, rfl⟩
    exact ⟨hscreen.trans happend.1, hoffset.trans happend.2.1, htop.trans happend.2.2.1,
      hbottom.trans happend.2.2.2⟩

theorem resetHistory_screen (s : State) :
    (scrollbackResetHistory s).screen = s.screen ∧ (scrollbackResetHistory s).viewOffset = 0 ∧
      SameRegion s (scrollbackResetHistory s) := by
  unfold scrollbackResetHistory
  exact resetRows_screen _ 0 { s with head := 0, count := 0, viewOffset := 0, syncing := false }

theorem mem_whole_screen (p : Nat × Nat) :
    p ∈ Log.rectangle 0 0 80 25 ↔ p.1 < vgaWidth ∧ p.2 < vgaHeight := by
  have hwidth : min ((0 : UInt32) + 80).toNat vgaWidth - (0 : UInt32).toNat = vgaWidth := rfl
  have hheight : min ((0 : UInt32) + 25).toNat vgaHeight - (0 : UInt32).toNat = vgaHeight := rfl
  rw [Log.rectangle, hwidth, hheight]
  simp only [List.mem_flatMap, List.mem_map, List.mem_range'_1]
  constructor
  · rintro ⟨y, hy, x, hx, rfl⟩
    exact ⟨by simpa using hx, by simpa using hy⟩
  · rintro ⟨hx, hy⟩
    exact ⟨p.2, by simpa using hy, p.1, by simpa using hx, rfl⟩

theorem terminalFillRect_eq (s : State) (x y w h : UInt32) (color : UInt8) :
    terminalFillRect s x y w h color =
      (Log.rectangle x y w h).foldl (fun s p => terminalPutentryat s blank color p.1 p.2) s := by
  rw [terminalFillRect, terminalFillRows_eq]
  rfl

theorem fillScreen_blank (hregion : s.regionTop = 0 ∧ s.regionBottom = vgaHeight - 1)
    (color : UInt8) (hy : y < vgaHeight) (x : Fin vgaWidth) :
    glyph ((terminalFillRect s 0 0 80 25 color).screen y x) = blank := by
  rw [terminalFillRect_eq]
  have hin := mem_whole_screen
  generalize Log.rectangle 0 0 80 25 = cells at hin ⊢
  have hmem := (hin (x.val, y)).mpr ⟨x.isLt, hy⟩
  -- The first cell brings the live view back, the others are blanked in it.
  cases cells with
  | nil => simp at hmem
  | cons p cells =>
    have hp := (hin p).mp (by simp)
    obtain ⟨hsettled, hcell⟩ := putentryat_settles (s := s) blank color
      ⟨by rw [hregion.1]; exact Nat.zero_le _, by rw [hregion.2]; exact Nat.le_sub_one_of_lt hp.2⟩ hp
    refine (blankCells_settled color cells hsettled).2 y hy x ?_
    rcases List.mem_cons.mp hmem with hfirst | hmem
    · right
      subst hfirst
      exact hcell
    · exact Or.inl hmem

theorem terminalClear_eq (h : terminalFillRect s 0 0 80 25 s.terminalColor = t) :
    terminalClear s = scrollbackResetHistory { t with terminalRow := 0, terminalColumn := 0 } := by
  subst h
  rfl

theorem terminalClear_blank (hregion : s.regionTop = 0 ∧ s.regionBottom = vgaHeight - 1) :
    (terminalClear s).viewOffset = 0 ∧ ∀ y < vgaHeight, ∀ x,
        glyph ((terminalClear s).screen y x) = blank := by
  have hfill := fun {y : Nat} => fillScreen_blank hregion s.terminalColor (y := y)
  obtain ⟨t, ht⟩ : ∃ t, terminalFillRect s 0 0 80 25 s.terminalColor = t := ⟨_, rfl⟩
  obtain ⟨hscreen, hoffset, _⟩ := resetHistory_screen { t with terminalRow := 0, terminalColumn := 0 }
  rw [ht] at hfill
  rw [terminalClear_eq ht]
  refine ⟨hoffset, fun y hy x => ?_⟩
  rw [hscreen]
  exact hfill hy x

/-- **The cleared screen.** Whatever the terminal showed before, every cell is blank and the view is
live. -/
theorem terminalInitialize_blank (s : State) (fg bg : VgaColor) :
    (terminalInitialize s fg bg).viewOffset = 0 ∧
      ∀ y < vgaHeight, ∀ x, glyph ((terminalInitialize s fg bg).screen y x) = blank := by
  rw [terminalInitialize]
  exact terminalClear_blank ⟨rfl, rfl⟩

/-! ### Rows that are left alone -/

variable {rows : Nat → Prop} {u : State}

theorem Spares.refl (rows : Nat → Prop) (hlive : s.viewOffset = 0) : Spares rows s s :=
  ⟨hlive, fun _ _ _ => rfl⟩

section
variable (h : Spares rows s t)
include h

theorem Spares.congr (hlive : u.viewOffset = t.viewOffset) (hscreen : u.screen = t.screen) :
    Spares rows s u := ⟨hlive.trans h.live, fun y hy x => by rw [hscreen]; exact h.screen y hy x⟩

theorem Spares.putentryat (c color : UInt8) (x : Nat) (hy : ¬rows y) :
    Spares rows s (terminalPutentryat t c color x y) := by
  obtain ⟨_, hlive, hcell⟩ := putentryat_settled (Or.inl h.live) c color x y
  refine ⟨hlive h.live, fun y' hy' x' => ?_⟩
  have hne : y' ≠ y := fun heq => hy (heq ▸ hy')
  rw [hcell, if_neg fun hin => hne hin.1]
  exact h.screen y' hy' x'

theorem Spares.foldl {α : Type*} {f : State → α → State} {l : List α}
    (hf : ∀ x ∈ l, ∀ t, Spares rows s t → Spares rows s (f t x)) : Spares rows s (l.foldl f t) := by
  induction l generalizing t with
  | nil => exact h
  | cons x l ih => exact ih (hf x (by simp) t h) fun x hx => hf x (by simp [hx])

theorem Spares.setcolor (fg bg : VgaColor) : Spares rows s (terminalSetcolor t fg bg) :=
  h.congr rfl rfl

theorem Spares.setCursor (x y : Nat) : Spares rows s (terminalSetCursor t x y) := h.congr rfl rfl

theorem Spares.drawHline (hy : ¬rows y) (c color : UInt8) :
    Spares rows s (terminalDrawHline t y c color) := by
  unfold terminalDrawHline
  split
  · exact h
  · exact h.foldl fun x _ t ht => ht.putentryat c color x hy

theorem Spares.writeat (hy : ¬rows y) (data : List UInt8) (x : Nat) :
    Spares rows s (terminalWriteat t data x y) := by
  induction data generalizing t x with
  | nil => exact h
  | cons c data ih =>
    unfold terminalWriteat
    split
    · exact h
    split
    · exact h
    · exact ih (h.putentryat c t.terminalColor x hy) (x + 1)

theorem Spares.fillRect (x y w h' : UInt32) (color : UInt8)
    (hy : ∀ yy, y.toNat ≤ yy → yy < (y + h').toNat → ¬rows yy) :
    Spares rows s (terminalFillRect t x y w h' color) := by
  rw [terminalFillRect_eq]
  refine h.foldl fun p hp t ht => ht.putentryat _ _ _ ?_
  simp only [Log.rectangle, List.mem_flatMap, List.mem_map, List.mem_range'] at hp
  obtain ⟨yy, ⟨i, hi, rfl⟩, xx, _, rfl⟩ := hp
  exact hy _ (by omega) (by omega)

end

theorem Spares.drawBox (ht : Spares rows s t) (x y w h : Nat) (color : UInt8)
    (hy : ∀ yy, y ≤ yy → yy < y + h → ¬rows yy) : Spares rows s (terminalDrawBox t x y w h color) := by
  unfold terminalDrawBox
  split
  · exact ht
  split
  · exact ht
  next hsize hplace =>
    dsimp only
    generalize hh : (if y + h > vgaHeight then vgaHeight - y else h) = height
    have hle : 0 < height ∧ height ≤ h := by
      split_ifs at hh <;> omega
    have hfirst : ¬rows y := hy y (Nat.le_refl _) (by omega)
    have hlast : ¬rows (y + height - 1) := hy _ (by omega) (by omega)
    have hsides := (ht.foldl (fun i _ t ht => (ht.putentryat 0x2D color (x + i) hfirst).putentryat
      0x2D color (x + i) hlast) (l := List.range (if x + w > vgaWidth then vgaWidth - x else w)))
    have hboth := hsides.foldl (f := fun s i => terminalPutentryat
      (terminalPutentryat s 0x7C color x (y + i)) 0x7C color
      (x + (if x + w > vgaWidth then vgaWidth - x else w) - 1) (y + i))
      (l := List.range height) fun i hi t ht => by
        have hi := List.mem_range.mp hi
        have hrow : ¬rows (y + i) := hy _ (by omega) (by omega)
        exact (ht.putentryat _ _ _ hrow).putentryat _ _ _ hrow
    exact (((hboth.putentryat _ _ _ hfirst).putentryat _ _ _ hfirst).putentryat _ _ _
      hlast).putentryat _ _ _ hlast

end screen

end TermobKernel.Terminal

import Mathlib.Tactic

/-!
# Text with a cursor

A zipper is a sequence with a cursor between two of its elements. An array with a length and a
cursor index holds a zipper, and an editor that works in place opens a gap at the cursor or closes
one by moving all elements behind it by one place. The loops that do so are given with the values
they leave in the array, and each operation of the zipper with the array that holds its result.
-/

namespace TermobKernel

/-- A sequence with a cursor in it: what is before the cursor, nearest first, and what is behind it. -/
structure Zipper (α : Type*) where
  before : List α
  after : List α
  deriving DecidableEq, Repr

namespace Zipper
variable {α : Type*}
variable {z : Zipper α}

def empty : Zipper α := ⟨[], []⟩

def text (z : Zipper α) : List α := z.before.reverse ++ z.after

def cursor (z : Zipper α) : Nat := z.before.length

def insert (z : Zipper α) (c : α) : Zipper α := { z with before := c :: z.before }

def deleteBefore (z : Zipper α) : Zipper α := { z with before := z.before.tail }

def deleteAt (z : Zipper α) : Zipper α := { z with after := z.after.tail }

def moveLeft : Zipper α → Zipper α
  | ⟨c :: before, after⟩ => ⟨before, c :: after⟩
  | z => z

def moveRight : Zipper α → Zipper α
  | ⟨before, c :: after⟩ => ⟨c :: before, after⟩
  | z => z

theorem length_text (z : Zipper α) : z.text.length = z.before.length + z.after.length := by
  rw [text, List.length_append, List.length_reverse]

theorem cursor_le (z : Zipper α) : z.cursor ≤ z.text.length := by
  rw [length_text, cursor]
  omega

theorem text_moveLeft (z : Zipper α) : z.moveLeft.text = z.text := by
  rcases z with ⟨_ | ⟨c, before⟩, after⟩
  · rfl
  · simp [moveLeft, text]

theorem text_moveRight (z : Zipper α) : z.moveRight.text = z.text := by
  rcases z with ⟨before, _ | ⟨c, after⟩⟩
  · rfl
  · simp [moveRight, text]

theorem cursor_moveRight (z : Zipper α) : z.moveRight.cursor = min (z.cursor + 1) z.text.length := by
  rcases z with ⟨before, _ | ⟨c, after⟩⟩
  · simp [moveRight, cursor, text]
  · simp [moveRight, cursor, text]

theorem text_moveRight_iterate (z : Zipper α) (n : Nat) : (moveRight^[n] z).text = z.text := by
  induction n generalizing z with
  | zero => rfl
  | succ n ih => rw [Function.iterate_succ_apply, ih, text_moveRight]

theorem cursor_moveRight_iterate (z : Zipper α) (n : Nat) :
    (moveRight^[n] z).cursor = min (z.cursor + n) z.text.length := by
  induction n with
  | zero => exact (Nat.min_eq_left z.cursor_le).symm
  | succ n ih =>
    rw [Function.iterate_succ_apply', cursor_moveRight, ih, text_moveRight_iterate]
    omega

theorem mem_text_of_deleteBefore {c : α} (h : c ∈ z.deleteBefore.text) : c ∈ z.text := by
  simp only [text, deleteBefore, List.mem_append, List.mem_reverse] at h ⊢
  exact h.imp_left List.mem_of_mem_tail

theorem mem_text_of_deleteAt {c : α} (h : c ∈ z.deleteAt.text) : c ∈ z.text := by
  simp only [text, deleteAt, List.mem_append] at h ⊢
  exact h.imp_right List.mem_of_mem_tail

theorem mem_text_insert {c d : α} : d ∈ (z.insert c).text ↔ d = c ∨ d ∈ z.text := by
  simp only [text, insert, List.mem_append, List.mem_reverse, List.mem_cons]
  tauto

/-! ### Pieces of an array -/

def segment (array : Nat → α) (lo n : Nat) : List α := (List.range n).map fun i => array (lo + i)

@[simp] theorem length_segment (array : Nat → α) (lo n : Nat) : (segment array lo n).length = n := by
  simp [segment]

theorem segment_congr {array array' : Nat → α} {lo lo' n : Nat}
    (h : ∀ i < n, array (lo + i) = array' (lo' + i)) :
    segment array lo n = segment array' lo' n :=
  List.map_congr_left fun i hi => h i (List.mem_range.mp hi)

theorem segment_add (array : Nat → α) (lo m n : Nat) :
    segment array lo (m + n) = segment array lo m ++ segment array (lo + m) n := by
  simp only [segment, List.range_add, List.map_append, List.map_map, Nat.add_assoc]
  rfl

theorem segment_one (array : Nat → α) (lo : Nat) : segment array lo 1 = [array lo] := rfl

/-! ### Loops over an array -/

/-- `array[index] = array[index - 1]`, from `index` downwards. -/
def openGap (array : Nat → α) : Nat → Nat → Nat → α
  | 0, _ => array
  | rounds + 1, index => openGap (Function.update array index (array (index - 1))) rounds (index - 1)

/-- `array[index] = array[index + 1]`, from `index` upwards. -/
def closeGap (array : Nat → α) : Nat → Nat → Nat → α
  | 0, _ => array
  | rounds + 1, index => closeGap (Function.update array index (array (index + 1))) rounds (index + 1)

/-- `target[index] = source[index]`, from `index` upwards. -/
def copyLoop (source : Nat → α) : Nat → Nat → (Nat → α) → Nat → α
  | 0, _, target => target
  | rounds + 1, index,
      target => copyLoop source rounds (index + 1) (Function.update target index (source index))

theorem openGap_eq (array : Nat → α) {rounds index : Nat} (h : rounds ≤ index) :
    openGap array rounds index = fun i => if index - rounds < i ∧
        i ≤ index then array (i - 1) else array i := by
  induction rounds generalizing array index with
  | zero =>
    funext i
    exact (if_neg (by omega)).symm
  | succ rounds ih =>
    rw [openGap, ih _ (by omega)]
    funext i
    -- The element that was moved first is read by no later round.
    by_cases hi : i = index
    · rw [hi, if_neg (by omega), if_pos (by omega), Function.update_self]
    · rw [Function.update_of_ne hi]
      by_cases hin : index - (rounds + 1) < i ∧ i ≤ index
      · rw [if_pos hin, if_pos (by omega), Function.update_of_ne (by omega)]
      · rw [if_neg hin, if_neg (by omega)]

theorem closeGap_eq (array : Nat → α) (rounds index : Nat) :
    closeGap array rounds index = fun i => if index ≤ i ∧
        i < index + rounds then array (i + 1) else array i := by
  induction rounds generalizing array index with
  | zero =>
    funext i
    exact (if_neg (by omega)).symm
  | succ rounds ih =>
    rw [closeGap, ih]
    funext i
    by_cases hi : i = index
    · rw [hi, if_neg (by omega), if_pos (by omega), Function.update_self]
    · rw [Function.update_of_ne hi]
      by_cases hin : index ≤ i ∧ i < index + (rounds + 1)
      · rw [if_pos hin, if_pos (by omega), Function.update_of_ne (by omega)]
      · rw [if_neg hin, if_neg (by omega)]

theorem copyLoop_eq (source target : Nat → α) (rounds index : Nat) :
    copyLoop source rounds index target = fun i => if index ≤ i ∧
        i < index + rounds then source i else target i := by
  induction rounds generalizing target index with
  | zero =>
    funext i
    exact (if_neg (by omega)).symm
  | succ rounds ih =>
    rw [copyLoop, ih]
    funext i
    by_cases hi : i = index
    · rw [hi, if_neg (by omega), if_pos (by omega), Function.update_self]
    · rw [Function.update_of_ne hi]
      by_cases hin : index ≤ i ∧ i < index + (rounds + 1)
      · rw [if_pos hin, if_pos (by omega)]
      · rw [if_neg hin, if_neg (by omega)]

/-! ### Arrays that hold a zipper -/

/-- The array holds the text of the zipper, and the index is where its cursor is. -/
structure Holds (array : Nat → α) (length index : Nat) (z : Zipper α) : Prop where
  line : segment array 0 length = z.text
  index_eq : index = z.cursor

variable {array : Nat → α} {length index : Nat} {z : Zipper α}

theorem Holds.length_eq (h : Holds array length index z) : length = z.before.length + z.after.length := by
  rw [← length_text, ← h.line, length_segment]

theorem Holds.index_le (h : Holds array length index z) : index ≤ length := by
  rw [h.index_eq, h.length_eq, cursor]
  omega

theorem Holds.parts (h : Holds array length index z) :
    segment array 0 index = z.before.reverse ∧ segment array index z.after.length = z.after := by
  have hline := h.line
  rw [h.length_eq, segment_add, Nat.zero_add, text] at hline
  rw [h.index_eq, cursor]
  exact List.append_inj hline (by simp)

theorem holds_of_parts (hindex : index = z.cursor) (hlength : length = index + z.after.length)
    (hbefore : segment array 0 index = z.before.reverse)
    (hafter : segment array index z.after.length = z.after) :
    Holds array length index z := by
  refine ⟨?_, hindex⟩
  rw [hlength, segment_add, Nat.zero_add, hbefore, hafter, text]

theorem holds_empty (array : Nat → α) : Holds array 0 0 empty := ⟨rfl, rfl⟩

section
variable (h : Holds array length index z)
include h

theorem Holds.congr {array' : Nat → α} (hsame : ∀ i < length, array' i = array i) :
    Holds array' length index z :=
  ⟨(segment_congr fun i hi => by rw [Nat.zero_add]; exact hsame i hi).trans h.line, h.index_eq⟩

theorem Holds.insert (c : α) :
    Holds (Function.update (openGap array (length - index) length) index c) (length + 1) (index + 1)
        (z.insert c) := by
  obtain ⟨hbefore, hafter⟩ := h.parts
  have hlength := h.length_eq
  have hindex := h.index_eq
  rw [cursor] at hindex
  rw [openGap_eq array (Nat.sub_le ..)]
  refine holds_of_parts (congrArg (· + 1) hindex) (by simp only [Zipper.insert]; omega) ?_ ?_
  · rw [segment_add, Nat.zero_add, segment_one, Function.update_self, Zipper.insert,
      List.reverse_cons, ← hbefore]
    refine congrArg (· ++ [c]) (segment_congr fun i hi => ?_)
    rw [Function.update_of_ne (by omega), if_neg (by omega)]
  · change segment _ (index + 1) z.after.length = z.after
    refine (segment_congr fun i hi => ?_).trans hafter
    rw [Function.update_of_ne (by omega), if_pos (by omega)]
    congr 1
    omega

theorem Holds.deleteBefore (hpos : 0 < index) :
    Holds (closeGap array (length - (index - 1)) (index - 1)) (length - 1) (index - 1) z.deleteBefore := by
  obtain ⟨hbefore, hafter⟩ := h.parts
  have hlength := h.length_eq
  have hindex := h.index_eq
  rw [cursor] at hindex
  rcases z with ⟨_ | ⟨c, before⟩, after⟩
  · exact absurd hpos (by simp only [List.length_nil] at hindex; omega)
  · simp only [List.length_cons] at hindex hlength
    obtain rfl : index = before.length + 1 := hindex
    rw [segment_add, Nat.zero_add, segment_one, List.reverse_cons] at hbefore
    have hbefore' := (List.append_inj hbefore (by simp)).1
    rw [closeGap_eq, Nat.add_sub_cancel]
    refine holds_of_parts rfl (by simp only [Zipper.deleteBefore]; omega) ?_ ?_
    · refine (segment_congr fun i hi => ?_).trans hbefore'
      exact if_neg (by omega)
    · refine (segment_congr fun i hi => ?_).trans hafter
      simp only [Zipper.deleteBefore] at hi
      rw [if_pos (by omega)]
      congr 1
      omega

theorem Holds.deleteAt (hlt : index < length) :
    Holds (closeGap array (length - index) index) (length - 1) index z.deleteAt := by
  obtain ⟨hbefore, hafter⟩ := h.parts
  have hlength := h.length_eq
  have hindex := h.index_eq
  rw [cursor] at hindex
  rcases z with ⟨before, _ | ⟨c, after⟩⟩
  · exact absurd hlt (by simp only [List.length_nil] at hlength hindex; omega)
  · simp only [List.length_cons] at hlength hafter hindex
    rw [Nat.add_comm after.length, segment_add, segment_one] at hafter
    have hafter' := (List.cons.inj hafter).2
    rw [closeGap_eq]
    refine holds_of_parts hindex (by simp only [Zipper.deleteAt, List.tail_cons]; omega) ?_ ?_
    · refine (segment_congr fun i hi => ?_).trans hbefore
      exact if_neg (by omega)
    · refine (segment_congr fun i hi => ?_).trans hafter'
      simp only [Zipper.deleteAt, List.tail_cons] at hi
      rw [if_pos (by omega)]
      congr 1
      omega

theorem Holds.moveLeft (hpos : 0 < index) :
    Holds array length (index - 1) z.moveLeft := by
  refine ⟨h.line.trans (text_moveLeft z).symm, ?_⟩
  rw [h.index_eq] at hpos ⊢
  rcases z with ⟨_ | ⟨c, before⟩, after⟩
  · exact absurd hpos (Nat.lt_irrefl 0)
  · rfl

theorem Holds.moveRight (hlt : index < length) :
    Holds array length (index + 1) z.moveRight := by
  refine ⟨h.line.trans (text_moveRight z).symm, ?_⟩
  rw [h.length_eq, h.index_eq, cursor] at hlt
  rw [h.index_eq]
  rcases z with ⟨before, _ | ⟨c, after⟩⟩
  · exact absurd hlt (Nat.lt_irrefl _)
  · rfl

end

theorem Holds.at_start (h : Holds array length 0 z) : z.moveLeft = z ∧ z.deleteBefore = z := by
  rcases z with ⟨_ | ⟨c, before⟩, after⟩
  · exact ⟨rfl, rfl⟩
  · exact absurd h.index_eq (by simp [cursor])

theorem Holds.at_end (h : Holds array length length z) : z.moveRight = z ∧ z.deleteAt = z := by
  have hlength := h.length_eq
  have hindex := h.index_eq
  rw [cursor] at hindex
  rcases z with ⟨before, _ | ⟨c, after⟩⟩
  · exact ⟨rfl, rfl⟩
  · simp only [List.length_cons] at hlength hindex
    omega

end Zipper

end TermobKernel

import Mathlib.Tactic

/-!
# Reading a list in pieces

A list of values is read from a position on. `slice` is what one read returns, `pieces` what a sequence of
reads returns when each goes on where the one before has stopped, and `pieces_flatten` says that the pieces
make up one slice, however the reads are cut. The list itself may be a concatenation of blocks of one size;
then a position is the number of a block and a place in it.
-/

namespace TermobKernel.Slices

variable {α β : Type*}
variable {content : List α}

/-! ### Slices -/

def slice (content : List α) (pos n : Nat) : List α := (content.drop pos).take n

theorem slice_length (content : List α) (pos n : Nat) :
    (slice content pos n).length = min n (content.length - pos) := by
  simp [slice]

theorem slice_zero (content : List α) (pos : Nat) : slice content pos 0 = [] := rfl

theorem slice_add (content : List α) (pos m n : Nat) :
    slice content pos (m + n) = slice content pos m ++ slice content (pos + m) n := by
  simp [slice, List.take_add, List.drop_drop]

theorem slice_of_length_le {pos : Nat} (h : content.length ≤ pos) (n : Nat) :
    slice content pos n = [] := by
  rw [slice, List.drop_eq_nil_of_le h, List.take_nil]

theorem slice_all {n : Nat} (h : content.length ≤ n) : slice content 0 n = content := by
  rw [slice, List.drop_zero, List.take_of_length_le h]

theorem slice_min (content : List α) (pos n : Nat) :
    slice content pos (min n (content.length - pos)) = slice content pos n := by
  rw [slice, slice, ← List.length_drop, ← List.take_eq_take_min]

theorem slice_length_add (content : List α) (pos m n : Nat) :
    (slice content pos (m + n)).length =
      (slice content pos m).length + (slice content (pos + (slice content pos m).length) n).length := by
  simp only [slice_length]
  omega

theorem slice_eq_map_range {pos n : Nat} (f : Nat → α)
    (h : ∀ i < n, content[pos + i]? = some (f i)) : slice content pos n = (List.range n).map f := by
  apply List.ext_getElem?
  intro i
  by_cases hi : i < n
  · rw [slice, List.getElem?_take_of_lt hi, List.getElem?_drop, h i hi]
    simp [hi]
  · rw [slice, List.getElem?_take_eq_none (by omega)]
    simp [hi]

def pieces (content : List α) : Nat → List Nat → List (List α)
  | _, [] => []
  | pos, n :: ns => slice content pos n :: pieces content (pos + (slice content pos n).length) ns

theorem pieces_flatten (content : List α) (pos : Nat) (ns : List Nat) :
    (pieces content pos ns).flatten = slice content pos ns.sum := by
  induction ns generalizing pos with
  | nil => rfl
  | cons n ns ih =>
    rw [pieces, List.flatten_cons, ih, List.sum_cons, slice_add]
    congr 1
    rw [slice_length]
    by_cases hn : n ≤ content.length - pos
    · rw [Nat.min_eq_left hn]
    · rw [slice_of_length_le (by omega), slice_of_length_le (by omega)]

/-! ### Blocks of one size -/

theorem length_flatMap_blocks {f : β → List α} {size : Nat} {bs : List β}
    (h : ∀ b ∈ bs, (f b).length = size) : (bs.flatMap f).length = bs.length * size := by
  induction bs with
  | nil => simp
  | cons b bs ih =>
    rw [List.flatMap_cons, List.length_append, h b (List.mem_cons_self ..),
      ih fun c hc => h c (List.mem_cons_of_mem _ hc), List.length_cons, Nat.add_one_mul, Nat.add_comm]

theorem getElem?_flatMap_blocks {f : β → List α} {size : Nat} (hsize : 0 < size) {bs : List β}
    (h : ∀ b ∈ bs, (f b).length = size) (p : Nat) :
    (bs.flatMap f)[p]? = bs[p / size]?.bind fun b => (f b)[p % size]? := by
  induction bs generalizing p with
  | nil => simp
  | cons b bs ih =>
    have hb := h b (List.mem_cons_self ..)
    rw [List.flatMap_cons]
    by_cases hp : p < size
    · rw [List.getElem?_append_left (by omega), Nat.div_eq_of_lt hp, Nat.mod_eq_of_lt hp]
      rfl
    · have hdiv : p / size = (p - size) / size + 1 := Nat.div_eq_sub_div hsize (by omega)
      have hmod : p % size = (p - size) % size := Nat.mod_eq_sub_mod (by omega)
      rw [List.getElem?_append_right (by omega), hb, ih fun c hc => h c (List.mem_cons_of_mem _ hc),
        hdiv, hmod, List.getElem?_cons_succ]

theorem unit_end_le {unit k pos n : Nat} (hunit : 0 < unit) (hk : 0 < k)
    (h : pos % (unit * k) % unit + n ≤ unit) : pos % (unit * k) + n ≤ unit * k := by
  have hlt : pos % (unit * k) / unit < k := Nat.div_lt_of_lt_mul (Nat.mod_lt _ (Nat.mul_pos hunit hk))
  have hle : unit * (pos % (unit * k) / unit + 1) ≤ unit * k := Nat.mul_le_mul_left unit hlt
  have hdiv := Nat.div_add_mod (pos % (unit * k)) unit
  rw [Nat.mul_add, Nat.mul_one] at hle
  omega

theorem place_add {unit k pos n : Nat} (hunit : 0 < unit) (hk : 0 < k)
    (h : pos % (unit * k) % unit + n < unit) :
    (pos + n) / (unit * k) = pos / (unit * k) ∧ (pos + n) % (unit * k) / unit = pos % (unit * k) / unit ∧
      (pos + n) % (unit * k) % unit = pos % (unit * k) % unit + n := by
  have hblock : pos % (unit * k) + n < unit * k := by
    have := unit_end_le hunit hk (show pos % (unit * k) % unit + (n + 1) ≤ unit by omega)
    omega
  have hpos : pos + n = unit * k * (pos / (unit * k)) + (pos % (unit * k) + n) := by
    have := Nat.div_add_mod pos (unit * k)
    omega
  have hin : pos % (unit * k) + n = unit * (pos % (unit * k) / unit) + (pos % (unit * k) % unit + n) := by
    have := Nat.div_add_mod (pos % (unit * k)) unit
    omega
  have hmod : (pos + n) % (unit * k) = pos % (unit * k) + n := by
    rw [hpos, Nat.mul_add_mod, Nat.mod_eq_of_lt hblock]
  refine ⟨?_, ?_, ?_⟩
  · rw [hpos, Nat.mul_add_div (Nat.mul_pos hunit hk), Nat.div_eq_of_lt hblock, Nat.add_zero]
  · rw [hmod, hin, Nat.mul_add_div hunit, Nat.div_eq_of_lt h, Nat.add_zero]
  · rw [hmod, hin, Nat.mul_add_mod, Nat.mod_eq_of_lt h]

end TermobKernel.Slices

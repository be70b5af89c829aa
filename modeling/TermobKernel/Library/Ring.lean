import Mathlib.Tactic

/-!
# Rings

A queue kept in an array of `size` slots: the oldest entry stands at `tail`, the next one goes to
`head`, and both move forward modulo `size`. In the first part one slot stays free, so that equal
indices mean an empty queue; the ring of the second part keeps a count instead and uses all its
slots.
-/

namespace TermobKernel.Ring

variable {α : Type*}

def count (size tail head : Nat) : Nat := (head + size - tail) % size

def contents (slots : Nat → α) (size tail n : Nat) : List α :=
  (List.range n).map fun i => slots ((tail + i) % size)

@[simp] theorem contents_length (slots : Nat → α) (size tail n : Nat) :
    (contents slots size tail n).length = n := by
  simp [contents]

section
variable {size tail head : Nat}
variable {log : List α}

/-- The index arithmetic in one statement: the distance, and the two ways it can close up. -/
theorem count_cases (ht : tail < size) (hh : head < size) :
    (tail ≤ head ∧ count size tail head = head - tail) ∨
      (head < tail ∧ count size tail head = head + size - tail) := by
  rw [count]
  rcases Nat.lt_or_ge head tail with hlt | hge
  · exact Or.inr ⟨hlt, Nat.mod_eq_of_lt (by omega)⟩
  · refine Or.inl ⟨hge, ?_⟩
    rw [show head + size - tail = head - tail + size by omega, Nat.add_mod_right,
      Nat.mod_eq_of_lt (by omega)]

theorem next_cases {i : Nat} (hi : i < size) :
    (i + 1 < size ∧ (i + 1) % size = i + 1) ∨ (i + 1 = size ∧ (i + 1) % size = 0) := by
  rcases Nat.lt_or_ge (i + 1) size with hlt | hge
  · exact Or.inl ⟨hlt, Nat.mod_eq_of_lt hlt⟩
  · have heq : i + 1 = size := by omega
    exact Or.inr ⟨heq, by rw [heq, Nat.mod_self]⟩

theorem count_lt (ht : tail < size) (hh : head < size) : count size tail head < size := by
  rcases count_cases ht hh with ⟨_, h⟩ | ⟨_, h⟩ <;> omega

theorem count_eq_zero (ht : tail < size) (hh : head < size) : count size tail head = 0 ↔ tail = head := by
  rcases count_cases ht hh with ⟨_, h⟩ | ⟨_, h⟩ <;> omega

theorem next_head_eq_tail (ht : tail < size) (hh : head < size) :
    (head + 1) % size = tail ↔ count size tail head = size - 1 := by
  rcases count_cases ht hh with ⟨_, h⟩ | ⟨_, h⟩ <;> rcases next_cases hh with ⟨_, hn⟩ | ⟨_, hn⟩ <;> omega

theorem count_push (ht : tail < size) (hh : head < size) (hroom : (head + 1) % size ≠ tail) :
    count size tail ((head + 1) % size) = count size tail head + 1 := by
  have hn : (head + 1) % size < size := Nat.mod_lt _ (by omega)
  rcases count_cases ht hh with ⟨_, h⟩ | ⟨_, h⟩ <;> rcases count_cases ht hn with ⟨_, h'⟩ | ⟨_, h'⟩ <;>
    rcases next_cases hh with ⟨_, hn'⟩ | ⟨_, hn'⟩ <;> omega

theorem count_pop (ht : tail < size) (hh : head < size) (hne : tail ≠ head) :
    count size tail head = count size ((tail + 1) % size) head + 1 := by
  have hn : (tail + 1) % size < size := Nat.mod_lt _ (by omega)
  rcases count_cases ht hh with ⟨_, h⟩ | ⟨_, h⟩ <;> rcases count_cases hn hh with ⟨_, h'⟩ | ⟨_, h'⟩ <;>
    rcases next_cases ht with ⟨_, hn'⟩ | ⟨_, hn'⟩ <;> omega

theorem tail_add_count (ht : tail < size) (hh : head < size) :
    (tail + count size tail head) % size = head := by
  rcases count_cases ht hh with ⟨_, h⟩ | ⟨_, h⟩
  · rw [h, show tail + (head - tail) = head by omega, Nat.mod_eq_of_lt hh]
  · rw [h, show tail + (head + size - tail) = head + size by omega, Nat.add_mod_right, Nat.mod_eq_of_lt hh]

theorem slot_ne {i n : Nat} (hi : i < n) (hn : n < size) : (tail + i) % size ≠ (tail + n) % size := by
  intro heq
  have hdvd : size ∣ tail + n - (tail + i) :=
    Nat.dvd_of_mod_eq_zero (Nat.sub_mod_eq_zero_of_mod_eq heq.symm)
  have hzero := Nat.eq_zero_of_dvd_of_lt hdvd (by omega)
  omega

theorem contents_push {slots slots' : Nat → α} (ht : tail < size) (hh : head < size) (v : α)
    (hnew : slots' head = v) (hold : ∀ i < size, i ≠ head → slots' i = slots i) :
    contents slots' size tail (count size tail head + 1) =
      contents slots size tail (count size tail head) ++ [v] := by
  have hlt := count_lt ht hh
  have hend := tail_add_count ht hh
  rw [contents, List.range_succ, List.map_append, List.map_singleton, hend, hnew]
  congr 1
  apply List.map_congr_left
  intro i hi
  rw [List.mem_range] at hi
  refine hold _ (Nat.mod_lt _ (by omega)) ?_
  rw [← hend]
  exact slot_ne hi hlt

theorem contents_pop (slots : Nat → α) (ht : tail < size) (n : Nat) :
    contents slots size tail (n + 1) = slots tail :: contents slots size ((tail + 1) % size) n := by
  rw [contents, List.range_succ_eq_map, List.map_cons, Nat.add_zero, Nat.mod_eq_of_lt ht, List.map_map]
  congr 1
  apply List.map_congr_left
  intro i _
  rw [Function.comp_apply, Nat.mod_add_mod, Nat.add_right_comm, Nat.add_assoc]

/-! ### A ring that gives up its oldest entry

All slots are used here: `n` entries from `tail` on, and a new entry takes the place of the oldest
one when the ring is full. Such a ring holds the last entries of a log. -/

theorem contents_getElem? (slots : Nat → α) {n i : Nat} (hi : i < n) :
    (contents slots size tail n)[i]? = some (slots ((tail + i) % size)) := by
  rw [contents, List.getElem?_map, List.getElem?_range hi]
  rfl

theorem slot_inj {i j : Nat} (hi : i < size) (hj : j < size) :
    (tail + i) % size = (tail + j) % size ↔ i = j := by
  constructor
  · intro heq
    rcases Nat.lt_trichotomy i j with hlt | rfl | hgt
    · exact absurd heq (slot_ne hlt hj)
    · rfl
    · exact absurd heq.symm (slot_ne hgt hi)
  · rintro rfl
    rfl

theorem contents_update (slots : Nat → α) {n i : Nat} (hi : i < n) (hn : n ≤ size) (v : α) :
    contents (Function.update slots ((tail + i) % size) v) size tail n =
        (contents slots size tail n).set i v := by
  apply List.ext_getElem?
  intro j
  rw [List.getElem?_set, contents_length]
  by_cases hj : j < n
  · rw [contents_getElem? _ hj, contents_getElem? _ hj, Function.update_apply]
    by_cases hij : i = j
    · subst hij
      rw [if_pos rfl, if_pos rfl, if_pos hj]
    · rw [if_neg hij, if_neg (fun h => hij ((slot_inj (by omega) (by omega)).mp h).symm)]
  · rw [List.getElem?_eq_none (by rw [contents_length]; omega), if_neg (by omega),
      List.getElem?_eq_none (by rw [contents_length]; omega)]

def last (size : Nat) (log : List α) : List α := log.drop (log.length - size)

theorem last_getElem? (size : Nat) (log : List α) (i : Nat) :
    (last size log)[i]? = log[log.length - min log.length size + i]? := by
  rw [last, List.getElem?_drop, show log.length - size = log.length - min log.length size by omega]

theorem last_set {j : Nat} (hj : log.length - size ≤ j) (v : α) :
    last size (log.set j v) = (last size log).set (j - (log.length - size)) v := by
  rw [last, List.length_set, List.drop_set, if_neg (by omega), last]

theorem last_concat_room (hlog : log.length < size) (v : α) :
    last size (log ++ [v]) = last size log ++ [v] := by
  rw [last, last, List.length_append, List.length_singleton, show log.length + 1 - size = 0 by omega,
    show log.length - size = 0 by omega, List.drop_zero, List.drop_zero]

theorem last_concat_full (hsize : 0 < size) (hlog : size ≤ log.length) (v : α) :
    last size (log ++ [v]) = (last size log).tail ++ [v] := by
  rw [last, last, List.length_append, List.length_singleton, List.tail_drop,
    List.drop_append_of_le_length (by omega), show log.length + 1 - size = log.length - size + 1 by omega]

theorem contents_concat_room {slots : Nat → α} (hlog : log.length < size)
    (h : contents slots size tail log.length = last size log) (v : α) :
    contents (Function.update slots ((tail + log.length) % size) v) size tail (log.length + 1) =
      last size (log ++ [v]) := by
  rw [last_concat_room hlog, ← h, contents, List.range_succ, List.map_append, List.map_singleton,
    Function.update_self]
  congr 1
  apply List.map_congr_left
  intro i hi
  rw [List.mem_range] at hi
  exact Function.update_of_ne (slot_ne hi hlog) _ _

theorem contents_concat_full {slots : Nat → α} (hsize : 0 < size) (ht : tail < size)
    (hlog : size ≤ log.length) (h : contents slots size tail size = last size log) (v : α) :
    contents (Function.update slots (((tail + 1) % size + (size - 1)) % size) v) size
      ((tail + 1) % size) size = last size (log ++ [v]) := by
  have hall := last_concat_full hsize hlog v
  obtain ⟨m, rfl⟩ : ∃ m, size = m + 1 := ⟨size - 1, by omega⟩
  rw [contents_pop slots ht m] at h
  rw [hall, ← h, List.tail_cons, contents, List.range_succ, List.map_append, List.map_singleton,
    Nat.add_sub_cancel, Function.update_self]
  congr 1
  apply List.map_congr_left
  intro i hi
  rw [List.mem_range] at hi
  exact Function.update_of_ne (slot_ne hi (by omega)) _ _

end

end TermobKernel.Ring

import Mathlib.Data.List.TakeWhile
import Mathlib.Tactic

/-!
# Texts as lists of bytes

A literal of a C program as a list of bytes, and the scan of a text from a position towards its start.
-/

namespace TermobKernel.Text

def ascii (s : String) : List UInt8 := s.toList.map fun c => c.toNat.toUInt8

/-- The position to which a scan comes that walks back from `stop` over characters with `p`. -/
def backWhile {α : Type} (p : α → Bool) (text : List α) : Nat → Nat
  | 0 => 0
  | stop + 1 => if (text[stop]?).any p then backWhile p text stop else stop + 1

section backWhile
variable {α : Type} {p : α → Bool}

theorem backWhile_stay {front : List α} (back : List α)
    (hfront : ∀ c, front.getLast? = some c → p c = false) :
    backWhile p (front ++ back) front.length = front.length := by
  cases hlen : front.length with
  | zero => rfl
  | succ n =>
    have hlast : (front ++ back)[n]? = front.getLast? := by
      rw [List.getElem?_append_left (by omega), List.getLast?_eq_getElem?, hlen, Nat.add_sub_cancel]
    rw [backWhile, hlast]
    cases h : front.getLast? with
    | none => rfl
    | some c => simp [hfront c h]

theorem backWhile_append {front : List α} (back : List α)
    (hfront : ∀ c, front.getLast? = some c → p c = false) {run : List α}
    (hrun : ∀ c ∈ run, p c = true) :
    backWhile p (front ++ run ++ back) (front.length + run.length) = front.length := by
  induction run using List.reverseRecOn generalizing back with
  | nil =>
    rw [List.append_nil]
    exact backWhile_stay back hfront
  | append_singleton run c ih =>
    have hc : (front ++ (run ++ [c]) ++ back)[front.length + run.length]? = some c := by
      simp [List.append_assoc]
    have hassoc : front ++ (run ++ [c]) ++ back = front ++ run ++ (c :: back) := by simp
    rw [List.length_append, List.length_singleton, ← Nat.add_assoc, backWhile, hc, Option.any_some,
      if_pos (hrun c (by simp)), hassoc]
    exact ih _ fun d hd => hrun d (by simp [hd])

end backWhile

end TermobKernel.Text

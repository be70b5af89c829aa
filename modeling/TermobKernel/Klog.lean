import TermobKernel.Library.Ring
import TermobKernel.Library.Zipper

/-!
# The kernel log

`core/klog.c`: a buffer of 4096 characters that always ends in a zero. Once 4095 characters are in
it, all of them are moved down by one place for every character that comes. The buffer holds the
newest text of the log, however long the log has become.
-/

namespace TermobKernel.Klog
open Zipper TermobKernel.Ring

variable {log : List UInt8} {s : State}

def klogCapacity : Nat := 4096

/-- The static variables of the file. -/
structure State where
  klogBuffer : Nat → UInt8
  klogLength : Nat

def klogAppendChar (s : State) (c : UInt8) : State :=
  if s.klogLength < klogCapacity - 1 then
    let s := { s with
      klogBuffer := Function.update s.klogBuffer s.klogLength c, klogLength := s.klogLength + 1 }
    { s with klogBuffer := Function.update s.klogBuffer s.klogLength 0 }
  else
    let s := { s with klogBuffer := closeGap s.klogBuffer (klogCapacity - 2) 0 }
    let s := { s with klogBuffer := Function.update s.klogBuffer (klogCapacity - 2) c }
    { s with klogBuffer := Function.update s.klogBuffer (klogCapacity - 1) 0 }

def klogInit (s : State) : State :=
  { s with klogLength := 0, klogBuffer := Function.update s.klogBuffer 0 0 }

def klogClear (s : State) : State := klogInit s

/-- `klog_write`: the string ends before its first zero byte. -/
def klogWrite (s : State) : List UInt8 → State
  | [] => s
  | c :: text => if c = 0 then s else klogWrite (klogAppendChar s c) text

def klogWriteline (s : State) (text : List UInt8) : State := klogAppendChar (klogWrite s text) 0x0A

inductive Op where
  | write (text : List UInt8)
  | writeline (text : List UInt8)
  | clear
  deriving DecidableEq, Repr

def step (s : State) : Op → State
  | .write text => klogWrite s text
  | .writeline text => klogWriteline s text
  | .clear => klogClear s

/-! ### The log without a bound -/

def characters (text : List UInt8) : List UInt8 := text.takeWhile (· ≠ 0)

def record (log : List UInt8) : Op → List UInt8
  | .write text => log ++ characters text
  | .writeline text => log ++ characters text ++ [0x0A]
  | .clear => []

/-- The buffer holds the newest text of the log, and a zero behind it. -/
structure Keeps (s : State) (log : List UInt8) : Prop where
  length : s.klogLength = min log.length 4095
  newest : segment s.klogBuffer 0 s.klogLength = last 4095 log
  terminated : s.klogBuffer s.klogLength = 0

theorem keeps_init (s : State) : Keeps (klogInit s) [] := ⟨rfl, rfl, by simp [klogInit]⟩

theorem Keeps.append (h : Keeps s log) (c : UInt8) :
    Keeps (klogAppendChar s c) (log ++ [c]) := by
  have hlength := h.length
  have hnewest := h.newest
  unfold klogAppendChar klogCapacity
  by_cases hroom : s.klogLength < 4096 - 1
  · rw [if_pos hroom]
    refine ⟨?_, ?_, Function.update_self ..⟩
    · rw [List.length_append, List.length_singleton]
      dsimp only
      omega
    · rw [last_concat_room (by omega), ← hnewest]
      dsimp only
      rw [segment_add, segment_one, Nat.zero_add, Function.update_of_ne (by omega), Function.update_self]
      congr 1
      refine segment_congr fun i hi => ?_
      rw [Function.update_of_ne (by omega), Function.update_of_ne (by omega)]
  · -- the buffer is full, and its first character makes place
    have hfull : s.klogLength = 4095 := by omega
    rw [if_neg hroom]
    dsimp only
    rw [closeGap_eq]
    refine ⟨?_, ?_, ?_⟩
    · rw [List.length_append, List.length_singleton]
      dsimp only
      omega
    · have hold : last 4095 log = s.klogBuffer 0 :: segment s.klogBuffer 1 4094 := by
        rw [← hnewest, hfull, show 4095 = 1 + 4094 from rfl, segment_add, segment_one,
          List.singleton_append]
      rw [last_concat_full (by omega) (by omega), hold, List.tail_cons, hfull]
      dsimp only
      change segment _ 0 (4094 + 1) = _
      rw [segment_add, segment_one, Nat.zero_add, Function.update_of_ne (by omega), Function.update_self]
      have hmoved : ∀ buffer : Nat → UInt8, (∀ i < 4094, buffer (0 + i) = s.klogBuffer (1 + i)) →
          segment buffer 0 4094 = segment s.klogBuffer 1 4094 := fun _ => segment_congr
      rw [hmoved]
      intro i hi
      rw [Function.update_of_ne (by omega), Function.update_of_ne (by omega), if_pos (by omega),
        Nat.zero_add, Nat.add_comm]
    · dsimp only
      rw [hfull]
      exact Function.update_self ..

theorem Keeps.write (h : Keeps s log) (text : List UInt8) :
    Keeps (klogWrite s text) (log ++ characters text) := by
  induction text generalizing s log with
  | nil =>
    rw [characters, List.takeWhile_nil, List.append_nil]
    exact h
  | cons c text ih =>
    rw [klogWrite]
    by_cases hc : c = 0
    · rw [if_pos hc, characters, List.takeWhile_cons_of_neg (by simp [hc]), List.append_nil]
      exact h
    · have hrest := ih (h.append c)
      rw [if_neg hc, characters, List.takeWhile_cons_of_pos (by simp [hc])]
      rwa [List.append_assoc, List.singleton_append] at hrest

theorem Keeps.step (h : Keeps s log) (op : Op) : Keeps (step s op) (record log op) := by
  cases op with
  | write text => exact h.write text
  | writeline text => exact (h.write text).append 0x0A
  | clear => exact keeps_init s

/-- **The kernel log keeps the newest text**, through every sequence of calls after `klog_init`. -/
theorem klog_keeps_newest (s : State) (ops : List Op) :
    Keeps (ops.foldl step (klogInit s)) (ops.foldl record []) := by
  have hrun : ∀ {t : State} {log : List UInt8}, Keeps t log →
      Keeps (ops.foldl Klog.step t) (ops.foldl record log) := by
    induction ops with
    | nil => exact id
    | cons op ops ih => exact fun h => ih (h.step op)
  exact hrun (keeps_init s)

end TermobKernel.Klog

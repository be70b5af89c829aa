import TermobKernel.Library.Text

/-!
# The number arguments of the shell

`keyboard_parse_u32_token` of `drivers/keyboard.c` and the functions under it. A pointer into a
string is the list of the bytes that follow; the string ends at the first zero, or with the list.
The loop multiplies a 32-bit accumulator by the base for every digit and looks at nothing but the
digits: a numeral is read modulo `2 ^ 32`, however long it is.
-/

namespace TermobKernel.Shell
open Text

variable {base : Nat}

/-! ## The functions -/

def keyboardIsSpace (c : UInt8) : Bool := decide (c = 0x20) || decide (c = 0x09)

def keyboardSkipSpaces : List UInt8 → List UInt8
  | [] => []
  | c :: text => if c ≠ 0 ∧ keyboardIsSpace c = true then keyboardSkipSpaces text else c :: text

def keyboardHexValue (c : UInt8) : Int :=
  if 0x30 ≤ c ∧ c ≤ 0x39 then c.toNat - 0x30
  else if 0x61 ≤ c ∧ c ≤ 0x66 then 10 + (c.toNat - 0x61)
  else if 0x41 ≤ c ∧ c ≤ 0x46 then 10 + (c.toNat - 0x41)
  else -1

/-- The loop of `keyboard_parse_u32_token` and what follows it: the value and the position behind
the token. -/
def keyboardParseDigits (base : UInt32) : UInt32 → Bool → List UInt8 → Option (UInt32 × List UInt8)
  | value, digitSeen, [] => if digitSeen then some (value, []) else none
  | value, digitSeen, c :: text =>
    if c ≠ 0 ∧ keyboardIsSpace c = false then
      let digit := keyboardHexValue c
      if digit < 0 ∨ UInt32.ofInt digit ≥ base then none
      else keyboardParseDigits base (value * base + UInt32.ofInt digit) true text
    else if digitSeen then some (value, c :: text) else none

def keyboardParseU32Token (text : List UInt8) : Option (UInt32 × List UInt8) :=
  let text := keyboardSkipSpaces text
  if text.headD 0 = 0 then none
  else if text.headD 0 = 0x30 ∧ (text.getD 1 0 = 0x78 ∨ text.getD 1 0 = 0x58) then
    keyboardParseDigits 16 0 false (text.drop 2)
  else keyboardParseDigits 10 0 false text

/-! ## Tokens and numerals -/

def inToken (c : UInt8) : Bool := decide (c ≠ 0) && !keyboardIsSpace c

def afterBlanks (text : List UInt8) : List UInt8 := text.dropWhile keyboardIsSpace

def token (text : List UInt8) : List UInt8 := (afterBlanks text).takeWhile inToken

def afterToken (text : List UInt8) : List UInt8 := (afterBlanks text).dropWhile inToken

def hexDigitValue (c : UInt8) : Option Nat :=
  if 0x30 ≤ c.toNat ∧ c.toNat ≤ 0x39 then some (c.toNat - 0x30)
  else if 0x61 ≤ c.toNat ∧ c.toNat ≤ 0x66 then some (c.toNat - 0x61 + 10)
  else if 0x41 ≤ c.toNat ∧ c.toNat ≤ 0x46 then some (c.toNat - 0x41 + 10)
  else none

def digitValue (base : Nat) (c : UInt8) : Option Nat := (hexDigitValue c).filter (· < base)

/-- The number that a row of digits stands for, if there is at least one and nothing else. -/
def digitsValue (base : Nat) (text : List UInt8) : Option Nat :=
  if text = [] then none else (text.mapM (digitValue base)).map fun digits =>
      Nat.ofDigits base digits.reverse

/-- The number that a token stands for: decimal digits, or hexadecimal digits behind `0x` or `0X`. -/
def numeral (text : List UInt8) : Option Nat :=
  if text[0]? = some 0x30 ∧ (text[1]? = some 0x78 ∨ text[1]? = some 0x58) then digitsValue 16 (text.drop 2)
  else digitsValue 10 text

/-- What reading a number argument should give. -/
def numberArgument (text : List UInt8) : Option (UInt32 × List UInt8) :=
  match numeral (token text) with
  | some value => if value < 2 ^ 32 then some (UInt32.ofNat value, afterToken text) else none
  | none => none

/-! ## What the loop computes -/

theorem inToken_iff {c : UInt8} : inToken c = true ↔ c ≠ 0 ∧ keyboardIsSpace c = false := by
  simp [inToken]

theorem keyboardSkipSpaces_eq (text : List UInt8) : keyboardSkipSpaces text = afterBlanks text := by
  induction text with
  | nil => rfl
  | cons c text ih =>
    rw [keyboardSkipSpaces, afterBlanks, List.dropWhile_cons, ← afterBlanks, ih]
    by_cases hspace : keyboardIsSpace c = true
    · have hc : c ≠ 0 := by
        rintro rfl
        exact absurd hspace (by decide)
      rw [if_pos ⟨hc, hspace⟩, if_pos hspace]
    · rw [if_neg (fun h => hspace h.2), if_neg hspace]

theorem hexDigitValue_lt {c : UInt8} {n : Nat} (h : hexDigitValue c = some n) : n < 16 := by
  unfold hexDigitValue at h
  split_ifs at h <;> simp only [Option.some.injEq] at h <;> omega

theorem keyboardHexValue_eq (c : UInt8) :
    keyboardHexValue c = match hexDigitValue c with
      | some n => (n : Int)
      | none => -1 := by
  have hbounds : ∀ a b : UInt8, (a ≤ c ∧ c ≤ b) = (a.toNat ≤ c.toNat ∧ c.toNat ≤ b.toNat) := by
    intro a b
    rw [UInt8.le_iff_toNat_le, UInt8.le_iff_toNat_le]
  unfold keyboardHexValue hexDigitValue
  simp only [hbounds, UInt8.reduceToNat]
  split_ifs
  all_goals simp only
  all_goals omega

theorem ofInt_natCast (n : Nat) : UInt32.ofInt (n : Int) = UInt32.ofNat n := by
  rw [UInt32.ofInt, ← UInt32.toNat_inj, UInt32.toNat_ofNat', UInt32.toNat_ofNat']
  omega

theorem digitValue_eq (hbase : base ≤ 16) (c : UInt8) :
    digitValue base c =
      if keyboardHexValue c < 0 ∨ UInt32.ofInt (keyboardHexValue c) ≥ UInt32.ofNat base then none
      else some (keyboardHexValue c).toNat := by
  rw [keyboardHexValue_eq, digitValue]
  cases hdigit : hexDigitValue c with
  | none => rfl
  | some n =>
    have hn := hexDigitValue_lt hdigit
    have hge : UInt32.ofNat n ≥ UInt32.ofNat base ↔ base ≤ n := by
      rw [ge_iff_le, UInt32.le_iff_toNat_le, UInt32.toNat_ofNat', UInt32.toNat_ofNat']
      omega
    simp only [ofInt_natCast, hge, Int.toNat_natCast]
    by_cases hlt : n < base
    · rw [if_neg (by omega)]
      simp [hlt]
    · rw [if_pos (by omega)]
      simpa using hlt

theorem keyboardParseDigits_eq (hbase : base ≤ 16) (text : List UInt8) : ∀ (value : Nat) (digitSeen : Bool),
    keyboardParseDigits (UInt32.ofNat base) (UInt32.ofNat value) digitSeen text =
      match (text.takeWhile inToken).mapM (digitValue base) with
      | none => none
      | some digits =>
        if digitSeen = true ∨ digits ≠ [] then
          some (UInt32.ofNat (digits.foldl (fun v d => v * base + d) value), text.dropWhile inToken)
        else none := by
  induction text with
  | nil =>
    intro value digitSeen
    cases digitSeen <;> rfl
  | cons c text ih =>
    intro value digitSeen
    rw [keyboardParseDigits]
    by_cases hc : inToken c = true
    · rw [if_pos (inToken_iff.mp hc), List.takeWhile_cons_of_pos hc, List.dropWhile_cons_of_pos hc,
        List.mapM_cons, digitValue_eq hbase]
      by_cases hbad : keyboardHexValue c < 0 ∨ UInt32.ofInt (keyboardHexValue c) ≥ UInt32.ofNat base
      · simp only [if_pos hbad]
        rfl
      · have hnext : UInt32.ofNat value * UInt32.ofNat base + UInt32.ofInt (keyboardHexValue c) =
            UInt32.ofNat (value * base + (keyboardHexValue c).toNat) := by
          have hdigit : ((keyboardHexValue c).toNat : Int) = keyboardHexValue c := by omega
          rw [← hdigit, ofInt_natCast, ← UInt32.ofNat_mul, ← UInt32.ofNat_add, Int.toNat_natCast]
        simp only [if_neg hbad, hnext, ih]
        cases (text.takeWhile inToken).mapM (digitValue base) with
        | none => rfl
        | some digits => simp
    · rw [if_neg (fun h => hc (inToken_iff.mpr h)), List.takeWhile_cons_of_neg hc,
        List.dropWhile_cons_of_neg hc]
      cases digitSeen <;> rfl

/-! ## The token -/

theorem digitsValue_eq (base : Nat) (text : List UInt8) :
    digitsValue base text = match text.mapM (digitValue base) with
      | none => none
      | some digits => if digits ≠ [] then some (digits.foldl (fun v d => v * base + d) 0) else none := by
  have hfold : ∀ digits : List Nat, Nat.ofDigits base digits.reverse =
      digits.foldl (fun v d => v * base + d) 0 := by
    intro digits
    rw [Nat.ofDigits_eq_foldr, List.foldr_reverse]
    congr
    funext v d
    rw [Nat.cast_id, Nat.add_comm, Nat.mul_comm]
  cases text with
  | nil => rfl
  | cons c text =>
    rw [digitsValue, if_neg (List.cons_ne_nil c text), List.mapM_cons]
    cases digitValue base c with
    | none => rfl
    | some d =>
      cases text.mapM (digitValue base) with
      | none => rfl
      | some digits => simp [hfold]

theorem keyboardParseDigits_token (hbase : base ≤ 16) (text : List UInt8) :
    keyboardParseDigits (UInt32.ofNat base) 0 false text =
      (digitsValue base (text.takeWhile inToken)).map fun value =>
      (UInt32.ofNat value, text.dropWhile inToken) := by
  rw [digitsValue_eq, show (0 : UInt32) = UInt32.ofNat 0 from rfl, keyboardParseDigits_eq hbase]
  cases (text.takeWhile inToken).mapM (digitValue base) with
  | none => rfl
  | some digits => by_cases hnil : digits = [] <;> simp [hnil]

theorem head_takeWhile_eq {x : UInt8} (hx : inToken x = true) (text : List UInt8) :
    (text.takeWhile inToken)[0]? = some x ↔ text.headD 0 = x := by
  cases text with
  | nil =>
    have hzero : (0 : UInt8) ≠ x := fun h => (inToken_iff.mp hx).1 h.symm
    simpa using hzero
  | cons c text =>
    by_cases hc : inToken c = true
    · simp [hc]
    · have hne : c ≠ x := fun h => hc (h ▸ hx)
      simpa [hc] using hne

theorem keyboardParseU32Token_eq (text : List UInt8) :
    keyboardParseU32Token text = (numeral (token text)).map fun value =>
        (UInt32.ofNat value, afterToken text) := by
  rw [keyboardParseU32Token, keyboardSkipSpaces_eq, token, afterToken]
  cases hrest : afterBlanks text with
  | nil => rfl
  | cons c rest =>
    have hhead : keyboardIsSpace c = false := by
      have hne : text.dropWhile keyboardIsSpace ≠ [] := by
        rw [← afterBlanks, hrest]
        exact List.cons_ne_nil c rest
      have hstop := List.head_dropWhile_not keyboardIsSpace hne
      simpa only [show text.dropWhile keyboardIsSpace = c :: rest from hrest, List.head_cons] using hstop
    by_cases hzero : c = 0
    · subst hzero
      rfl
    · have hc : inToken c = true := inToken_iff.mpr ⟨hzero, hhead⟩
      have hsecond : ∀ x, inToken x = true →
          ((c :: rest).getD 1 0 = x ↔ ((c :: rest).takeWhile inToken)[1]? = some x) := by
        intro x hx
        rw [List.takeWhile_cons_of_pos hc, List.getElem?_cons_succ, head_takeWhile_eq hx]
        cases rest <;> rfl
      have hfirst : (c :: rest).headD 0 = 0x30 ↔ ((c :: rest).takeWhile inToken)[0]? = some 0x30 :=
        (head_takeWhile_eq (by decide) _).symm
      rw [numeral, if_neg (show ¬(c :: rest).headD 0 = 0 from hzero)]
      simp only [hfirst, hsecond 0x78 (by decide), hsecond 0x58 (by decide)]
      by_cases hhex : ((c :: rest).takeWhile inToken)[0]? = some 0x30 ∧
          (((c :: rest).takeWhile inToken)[1]? = some 0x78 ∨
            ((c :: rest).takeWhile inToken)[1]? = some 0x58)
      · rw [if_pos hhex, if_pos hhex]
        cases rest with
        | nil => simp [hc] at hhex
        | cons x rest =>
          have hx : inToken x = true := by
            by_contra hx
            simp [hc, hx] at hhex
          rw [List.takeWhile_cons_of_pos hc, List.takeWhile_cons_of_pos hx, List.dropWhile_cons_of_pos hc,
            List.dropWhile_cons_of_pos hx]
          exact keyboardParseDigits_token (by decide : 16 ≤ 16) rest
      · rw [if_neg hhex, if_neg hhex]
        exact keyboardParseDigits_token (by decide : 10 ≤ 16) (c :: rest)

/-- **Number arguments.** For every string the argument is read exactly or rejected if and only if
its first token does not stand for a number of `2 ^ 32` or more; such a token is taken for the
number modulo `2 ^ 32`. -/
theorem parse_u32_exact_iff (text : List UInt8) :
    keyboardParseU32Token text = numberArgument text ↔ ∀ value, numeral (token text) = some value →
        value < 2 ^ 32 := by
  rw [keyboardParseU32Token_eq, numberArgument]
  cases hvalue : numeral (token text) with
  | none => simp
  | some value => simp

/-- `4294967296` is read as zero. -/
theorem parse_u32_overflow :
    keyboardParseU32Token (ascii "4294967296") = some (0, []) ∧
      numeral (token (ascii "4294967296")) = some (2 ^ 32) ∧
      numberArgument (ascii "4294967296") = none := by
  decide +kernel

end TermobKernel.Shell

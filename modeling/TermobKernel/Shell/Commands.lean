import TermobKernel.Shell.Arguments

/-!
# The dispatcher of the shell and the arguments of `fatread`

`keyboard_process_command` of `drivers/keyboard.c` compares the command with the names of its
branches in order. The branch of `fatread` is modelled up to the call of
`keyboard_fat_read_command`: two numbers are read from the left, two more are found from the right,
and the path is what remains between them, blanks included. What the other branches do is left open.
-/

namespace TermobKernel.Shell
open Text

variable {c : UInt8} {n : Nat}

/-! ## The branches -/

/-- The branches of `keyboard_process_command`, by the first command of each. -/
inductive Branch where
  | help | dashboard | sched | clear | info | perf | status | meminfo | heapinfo | paging | pmminfo | heapcheck
  | heaptest | memmap | lspci | drivers | mouse | virtio | vblk | lsblk | blkread0 | blkread | blkreadn | blksig
  | blkfind | bootchk | fatinfo | fatcheck | fatentry | fatchain | fatstat | fatlsroot | ls | fatls | fatlsdir
  | fatlookup | fatlspath | fatcat | fatread | sound | audio | ac97 | ac97tone | uname | version | about | uptime
  | ticks | logsize | dmesg | clearlog | beep | melody | echo | halt | reboot | panic
  deriving DecidableEq, Repr

/-- A test of the command: `keyboard_streq` with a name, or `keyboard_startswith`. -/
inductive Test where
  | streq (name : String)
  | startswith (name : String)
  deriving DecidableEq, Repr

def keyboardStreq : List UInt8 → List UInt8 → Bool
  | [], b => decide (b.headD 0 = 0)
  | c :: _, [] => decide (c = 0)
  | c :: a, d :: b =>
    if c ≠ 0 ∧ d ≠ 0 then if c ≠ d then false else keyboardStreq a b else decide (c = 0) && decide (d = 0)

/-- `keyboard_startswith` with a literal as its second argument. -/
def keyboardStartswith : List UInt8 → List UInt8 → Bool
  | _, [] => true
  | s, d :: rest => if s.headD 0 ≠ d then false else keyboardStartswith s.tail rest

def Test.holds (cmd : List UInt8) : Test → Bool
  | .streq name => keyboardStreq cmd (ascii name)
  | .startswith name => keyboardStartswith cmd (ascii name)

/-- The tests in the order of the function. -/
def commandTests : List (Test × Branch) :=
  [(.streq "help", .help), (.streq "dashboard", .dashboard), (.streq "sysview", .dashboard),
    (.streq "sched", .sched),
    (.streq "clear", .clear), (.streq "info", .info), (.streq "perf", .perf), (.streq "status", .status),
    (.streq "meminfo", .meminfo), (.streq "heapinfo", .heapinfo), (.streq "paging", .paging),
    (.streq "pmminfo", .pmminfo), (.streq "heapcheck", .heapcheck), (.streq "heaptest", .heaptest),
    (.streq "memmap", .memmap), (.streq "lspci", .lspci), (.streq "drivers", .drivers),
    (.streq "mouse", .mouse),
    (.streq "virtio", .virtio), (.streq "vblk", .vblk), (.streq "lsblk", .lsblk),
    (.streq "blkread0", .blkread0),
    (.startswith "blkread ", .blkread), (.startswith "blkreadn ", .blkreadn),
    (.startswith "blksig ", .blksig),
    (.startswith "blkfind ", .blkfind), (.startswith "bootchk ", .bootchk),
    (.startswith "fatinfo ", .fatinfo),
    (.startswith "fatcheck ", .fatcheck), (.startswith "fatentry ", .fatentry),
    (.startswith "fatchain ", .fatchain),
    (.startswith "fatstat ", .fatstat), (.startswith "fatlsroot ", .fatlsroot), (.startswith "ls ", .ls),
    (.startswith "fatls ", .fatls), (.startswith "fatlsdir ", .fatlsdir),
    (.startswith "fatlookup ", .fatlookup),
    (.startswith "fatlspath ", .fatlspath), (.startswith "fatcat ", .fatcat),
    (.startswith "fatread ", .fatread),
    (.streq "sound", .sound), (.streq "audio", .audio), (.streq "ac97", .ac97),
    (.streq "ac97tone", .ac97tone),
    (.streq "uname", .uname), (.streq "version", .version), (.streq "about", .about),
    (.streq "uptime", .uptime),
    (.streq "ticks", .ticks), (.streq "logsize", .logsize), (.streq "dmesg", .dmesg),
    (.streq "clearlog", .clearlog),
    (.streq "beep", .beep), (.streq "melody", .melody), (.startswith "echo ", .echo),
    (.streq "halt", .halt), (.streq "reboot", .reboot), (.streq "panic", .panic)]

def keyboardUsageEntries : List (String × String) :=
  [("echo", "echo <text>"), ("blkread", "blkread <lba>  or  blkread <device> <lba>"),
    ("blkreadn", "blkreadn <device> <lba> <count>"), ("blksig", "blksig <device> <lba>"),
    ("blkfind", "blkfind <device> <lba> <count>"), ("bootchk", "bootchk <device> <lba>"),
    ("fatinfo", "fatinfo <device> <lba>"), ("fatcheck", "fatcheck <device> <lba>"),
    ("fatentry", "fatentry <device> <boot_lba> <cluster>"),
    ("fatchain", "fatchain <device> <boot_lba> <cluster>"),
    ("fatstat", "fatstat <device> <boot_lba>"), ("fatlsroot", "fatlsroot <device> <boot_lba>"),
    ("ls", "ls <device> <boot_lba> [</dir>]"), ("fatls", "fatls <device> <boot_lba>"),
    ("fatlsdir", "fatlsdir <device> <boot_lba> <cluster>"),
    ("fatlookup", "fatlookup <device> <boot_lba> </path>"),
    ("fatlspath", "fatlspath <device> <boot_lba> </dir>"), ("fatcat", "fatcat <device> <boot_lba> </file>"),
    ("fatread", "fatread <device> <boot_lba> </file> <offset> <count>")]

def keyboardLookupUsageHint (cmd : List UInt8) : Option String :=
  (keyboardUsageEntries.find? fun entry => keyboardStreq cmd (ascii entry.1)).map (·.2)

/-! ## The arguments of `fatread` -/

def keyboardStrlen : List UInt8 → Nat
  | [] => 0
  | c :: text => if c = 0 then 0 else keyboardStrlen text + 1

def keyboardSkipSpacesBackwards (text : List UInt8) (stop : Nat) : Nat :=
  backWhile keyboardIsSpace text stop

def keyboardFindTokenStartBackwards (text : List UInt8) (stop : Nat) : Nat :=
  backWhile (fun c => !keyboardIsSpace c) text stop

/-- `keyboard_parse_u32_span`, with the start and the end as positions in the text. -/
def keyboardParseU32Span (text : List UInt8) (start stop : Nat) : Option UInt32 :=
  if stop ≤ start then none
  else if stop - start ≥ 32 then none
  else
    match keyboardParseU32Token ((text.drop start).take (stop - start)) with
    | none => none
    | some (value, next) => if (keyboardSkipSpaces next).headD 0 = 0 then some value else none

/-- What `keyboard_process_command` does with a command. -/
inductive Reaction where
  /-- Only a new prompt. -/
  | prompt
  | usage (text : String)
  | branch (branch : Branch)
  /-- The error message `path too long`. -/
  | pathTooLong
  /-- The call `keyboard_fat_read_command(device_index, boot_lba, path, offset, count)`. -/
  | fatReadCommand (deviceIndex bootLba : UInt32) (path : List UInt8) (offset count : UInt32)
  | unknownCommand
  deriving DecidableEq, Repr

def fatreadUsage : Reaction := .usage "fatread <device> <boot_lba> </file> <offset> <count>"

/-- The branch of `fatread` behind the two numbers, with `rest` at the path. -/
def fatreadRest (deviceIndex bootLba : UInt32) (rest : List UInt8) : Reaction :=
  if rest.headD 0 = 0 ∨ rest.headD 0 ≠ 0x2F then fatreadUsage
  else
    let stop := keyboardSkipSpacesBackwards rest (keyboardStrlen rest)
    let countStart := keyboardFindTokenStartBackwards rest stop
    match keyboardParseU32Span rest countStart stop with
    | none => fatreadUsage
    | some count =>
      let offsetEnd := keyboardSkipSpacesBackwards rest countStart
      let offsetStart := keyboardFindTokenStartBackwards rest offsetEnd
      match keyboardParseU32Span rest offsetStart offsetEnd with
      | none => fatreadUsage
      | some offset =>
        let pathEnd := keyboardSkipSpacesBackwards rest offsetStart
        if pathEnd = 0 ∨ pathEnd ≥ 256 then .pathTooLong
        else .fatReadCommand deviceIndex bootLba (rest.take pathEnd) offset count

/-- The branch of `fatread`, with `args` behind `"fatread "`. -/
def fatreadBranch (args : List UInt8) : Reaction :=
  match keyboardParseU32Token args with
  | none => fatreadUsage
  | some (deviceIndex, next) =>
    match keyboardParseU32Token next with
    | none => fatreadUsage
    | some (bootLba, next) => fatreadRest deviceIndex bootLba (keyboardSkipSpaces next)

/-- `keyboard_process_command`, up to what a branch does. -/
def commandReaction (cmd : List UInt8) : Reaction :=
  if cmd.headD 0 = 0 then .prompt
  else
    match keyboardLookupUsageHint cmd with
    | some usage => .usage usage
    | none =>
      match commandTests.find? fun test => test.1.holds cmd with
      | none => .unknownCommand
      | some (_, .fatread) => fatreadBranch (cmd.drop 8)
      | some (_, branch) => .branch branch

theorem commandReaction_fatread (args : List UInt8) :
    commandReaction (ascii "fatread " ++ args) = fatreadBranch args := by
  rfl

theorem commandReaction_fatread_tab (args : List UInt8) :
    commandReaction (ascii "fatread" ++ 0x09 :: args) = .unknownCommand := by
  rfl

/-! ## Numbers in decimal -/

def decimalDigits (n : Nat) : List Nat := if n = 0 then [0] else (Nat.digits 10 n).reverse

def decimal (n : Nat) : List UInt8 := (decimalDigits n).map fun d => UInt8.ofNat (0x30 + d)

theorem decimalDigits_lt {n d : Nat} (h : d ∈ decimalDigits n) : d < 10 := by
  unfold decimalDigits at h
  split_ifs at h
  · simp at h
    omega
  · exact Nat.digits_lt_base (by decide) (List.mem_reverse.mp h)

theorem decimal_ne_nil (n : Nat) : decimal n ≠ [] := by
  unfold decimal decimalDigits
  by_cases hn : n = 0
  · simp [hn]
  · simp [hn, Nat.digits_ne_nil_iff_ne_zero]

theorem decimal_char (h : c ∈ decimal n) : 0x30 ≤ c.toNat ∧ c.toNat ≤ 0x39 := by
  obtain ⟨d, hd, rfl⟩ := List.mem_map.mp h
  have hlt := decimalDigits_lt hd
  rw [UInt8.toNat_ofNat']
  omega

theorem decimal_length (hn : n < 2 ^ 32) : (decimal n).length ≤ 10 := by
  rw [decimal, List.length_map, decimalDigits]
  split_ifs
  · simp
  · rw [List.length_reverse]
    exact (Nat.digits_length_le_iff (by decide) n).mpr (by omega)

theorem mapM_digits : ∀ {digits : List Nat}, (∀ d ∈ digits, d < 10) →
    (digits.map fun d => UInt8.ofNat (0x30 + d)).mapM (digitValue 10) = some digits := by
  intro digits
  induction digits with
  | nil => exact fun _ => rfl
  | cons d digits ih =>
    intro hlt
    have hd : d < 10 := hlt d (by simp)
    have hvalue : digitValue 10 (UInt8.ofNat (0x30 + d)) = some d := by
      rw [digitValue, hexDigitValue, UInt8.toNat_ofNat', Nat.mod_eq_of_lt (by omega), if_pos (by omega)]
      simp [hd]
    rw [List.map_cons, List.mapM_cons, hvalue, ih fun e he => hlt e (by simp [he])]
    rfl

theorem numeral_decimal (n : Nat) : numeral (decimal n) = some n := by
  have hdecimal : ¬((decimal n)[0]? = some 0x30 ∧
      ((decimal n)[1]? = some 0x78 ∨ (decimal n)[1]? = some 0x58)) := by
    rintro ⟨_, h | h⟩
    · exact absurd (decimal_char (List.mem_of_getElem? h)).2 (by decide)
    · exact absurd (decimal_char (List.mem_of_getElem? h)).2 (by decide)
  have hvalue : Nat.ofDigits 10 (decimalDigits n).reverse = n := by
    unfold decimalDigits
    split_ifs with hn
    · simp [hn]
    · rw [List.reverse_reverse, Nat.ofDigits_digits]
  rw [numeral, if_neg hdecimal, digitsValue, if_neg (decimal_ne_nil n), decimal,
    mapM_digits fun _ => decimalDigits_lt, Option.map_some, hvalue]

theorem inToken_decimal (h : c ∈ decimal n) : inToken c = true := by
  have hchar := decimal_char h
  rw [inToken_iff]
  constructor
  · rintro rfl
    exact absurd hchar.1 (by decide)
  · rw [keyboardIsSpace, Bool.or_eq_false_iff, decide_eq_false_iff_not, decide_eq_false_iff_not]
    constructor
    · rintro rfl
      exact absurd hchar.1 (by decide)
    · rintro rfl
      exact absurd hchar.1 (by decide)

/-! ## The round trip -/

theorem keyboardIsSpace_decimal (h : c ∈ decimal n) : keyboardIsSpace c = false :=
  (inToken_iff.mp (inToken_decimal h)).2

theorem keyboardParseU32Token_decimal {blanks tail : List UInt8}
    (hblanks : ∀ c ∈ blanks, keyboardIsSpace c = true) (value : UInt32)
    (htail : ∀ c, tail.head? = some c → inToken c = false) :
    keyboardParseU32Token (blanks ++ decimal value.toNat ++ tail) = some (value, tail) := by
  have hstop : tail.takeWhile inToken = [] ∧ tail.dropWhile inToken = tail := by
    cases tail with
    | nil => exact ⟨rfl, rfl⟩
    | cons c tail => simp [htail c rfl]
  have hafter : afterBlanks (blanks ++ decimal value.toNat ++ tail) = decimal value.toNat ++ tail := by
    rw [afterBlanks, List.append_assoc, List.dropWhile_append_of_pos hblanks]
    cases hdecimal : decimal value.toNat with
    | nil => exact absurd hdecimal (decimal_ne_nil _)
    | cons c digits =>
      have hc : keyboardIsSpace c = false := keyboardIsSpace_decimal (n := value.toNat) (by simp [hdecimal])
      rw [List.cons_append, List.dropWhile_cons, hc]
      rfl
  have htoken : ∀ c ∈ decimal value.toNat, inToken c = true := fun _ => inToken_decimal
  rw [keyboardParseU32Token_eq, token, afterToken, hafter, List.takeWhile_append_of_pos htoken,
    List.dropWhile_append_of_pos htoken, hstop.1, hstop.2, List.append_nil, numeral_decimal,
    Option.map_some, UInt32.ofNat_toNat]

theorem keyboardParseU32Span_decimal (front back : List UInt8) (value : UInt32) :
    keyboardParseU32Span (front ++ decimal value.toNat ++ back) front.length
      (front.length + (decimal value.toNat).length) = some value := by
  have hpos := List.length_pos_of_ne_nil (decimal_ne_nil value.toNat)
  have hle := decimal_length value.toNat_lt
  have hstretch : ((front ++ decimal value.toNat ++ back).drop front.length).take
      (front.length + (decimal value.toNat).length - front.length) = [] ++ decimal value.toNat ++ [] := by
    rw [Nat.add_sub_cancel_left, List.append_assoc, List.drop_left, List.take_left]
    simp
  rw [keyboardParseU32Span, if_neg (by omega), if_neg (by omega), hstretch,
    keyboardParseU32Token_decimal (by simp) value (by simp)]
  rfl

structure Blanks (text : List UInt8) : Prop where
  nonempty : text ≠ []
  blank : ∀ c ∈ text, keyboardIsSpace c = true

/-- A path that starts with a slash, has no zero and does not end with a blank. -/
structure IsPath (path : List UInt8) : Prop where
  slash : path.head? = some 0x2F
  nonzero : ∀ c ∈ path, c ≠ 0
  last : ∀ c, path.getLast? = some c → keyboardIsSpace c = false

theorem Blanks.head_stops {blanks : List UInt8} (h : Blanks blanks) (tail : List UInt8) :
    ∀ c, (blanks ++ tail).head? = some c → inToken c = false := by
  intro c hc
  cases blanks with
  | nil => exact absurd rfl h.nonempty
  | cons b blanks =>
    obtain rfl : b = c := by simpa using hc
    simp [inToken, h.blank b (by simp)]

theorem Blanks.last {blanks : List UInt8} (h : Blanks blanks) (front : List UInt8) :
    ∀ c, (front ++ blanks).getLast? = some c → (!keyboardIsSpace c) = false := by
  intro c hc
  rw [List.getLast?_append_of_ne_nil _ h.nonempty] at hc
  rw [h.blank c (List.mem_of_getLast? hc)]
  rfl

theorem last_decimal (front : List UInt8) (n : Nat) :
    ∀ c, (front ++ decimal n).getLast? = some c → keyboardIsSpace c = false := by
  intro c hc
  rw [List.getLast?_append_of_ne_nil _ (decimal_ne_nil n)] at hc
  exact keyboardIsSpace_decimal (List.mem_of_getLast? hc)

theorem keyboardStrlen_eq :
    ∀ {text : List UInt8}, (∀ c ∈ text, c ≠ 0) → keyboardStrlen text = text.length := by
  intro text
  induction text with
  | nil => exact fun _ => rfl
  | cons c text ih =>
    intro hne
    rw [keyboardStrlen, if_neg (hne c (by simp)), ih fun d hd => hne d (by simp [hd]), List.length_cons]

theorem blank_ne_zero (h : keyboardIsSpace c = true) : c ≠ 0 := by
  rintro rfl
  exact absurd h (by decide)

theorem fatreadRest_eq {path b4 b5 : List UInt8} (hpath : IsPath path) (hb4 : Blanks b4) (hb5 : Blanks b5)
    (offset count deviceIndex bootLba : UInt32) (hshort : path.length < 256) :
    fatreadRest deviceIndex bootLba (path ++ b4 ++ decimal offset.toNat ++ b5 ++ decimal count.toNat) =
      .fatReadCommand deviceIndex bootLba path offset count := by
  set o := decimal offset.toNat
  set c := decimal count.toNat
  have hnonzero : ∀ x ∈ path ++ b4 ++ o ++ b5 ++ c, x ≠ 0 := by
    intro x hx
    simp only [List.mem_append] at hx
    rcases hx with (((hx | hx) | hx) | hx) | hx
    · exact hpath.nonzero x hx
    · exact blank_ne_zero (hb4.blank x hx)
    · exact (inToken_iff.mp (inToken_decimal hx)).1
    · exact blank_ne_zero (hb5.blank x hx)
    · exact (inToken_iff.mp (inToken_decimal hx)).1
  have hword : ∀ n, ∀ x ∈ decimal n, (!keyboardIsSpace x) = true := by
    intro n x hx
    rw [keyboardIsSpace_decimal hx]
    rfl
  -- The five scans, each with the part of the line that it crosses.
  have hstop : keyboardSkipSpacesBackwards (path ++ b4 ++ o ++ b5 ++ c)
      (path ++ b4 ++ o ++ b5 ++ c).length = (path ++ b4 ++ o ++ b5).length + c.length := by
    have hstay := backWhile_stay [] (last_decimal (path ++ b4 ++ o ++ b5) count.toNat)
    rw [List.append_nil] at hstay
    rw [keyboardSkipSpacesBackwards, hstay, List.length_append]
  have hcount : keyboardFindTokenStartBackwards (path ++ b4 ++ o ++ b5 ++ c)
      ((path ++ b4 ++ o ++ b5).length + c.length) = (path ++ b4 ++ o).length + b5.length := by
    have hscan := backWhile_append [] (hb5.last (path ++ b4 ++ o)) (hword count.toNat)
    rw [List.append_nil] at hscan
    rw [keyboardFindTokenStartBackwards, hscan, List.length_append]
  have hoffsetEnd : keyboardSkipSpacesBackwards (path ++ b4 ++ o ++ b5 ++ c)
      ((path ++ b4 ++ o).length + b5.length) = (path ++ b4).length + o.length := by
    rw [keyboardSkipSpacesBackwards, backWhile_append c (last_decimal (path ++ b4) offset.toNat) hb5.blank,
      List.length_append]
  have hoffsetStart : keyboardFindTokenStartBackwards (path ++ b4 ++ o ++ b5 ++ c)
      ((path ++ b4).length + o.length) = path.length + b4.length := by
    have hscan := backWhile_append (b5 ++ c) (hb4.last path) (hword offset.toNat)
    rw [keyboardFindTokenStartBackwards, List.append_assoc, hscan, List.length_append]
  have hpathEnd : keyboardSkipSpacesBackwards (path ++ b4 ++ o ++ b5 ++ c)
      (path.length + b4.length) = path.length := by
    have hscan := backWhile_append (o ++ (b5 ++ c)) hpath.last hb4.blank
    rw [keyboardSkipSpacesBackwards, List.append_assoc (path ++ b4 ++ o),
      List.append_assoc (path ++ b4), hscan]
  have hcountSpan : keyboardParseU32Span (path ++ b4 ++ o ++ b5 ++ c) ((path ++ b4 ++ o).length + b5.length)
      ((path ++ b4 ++ o ++ b5).length + c.length) = some count := by
    have hspan := keyboardParseU32Span_decimal (path ++ b4 ++ o ++ b5) [] count
    rw [List.append_nil] at hspan
    have hlength : (path ++ b4 ++ o ++ b5).length = (path ++ b4 ++ o).length + b5.length :=
      List.length_append
    rw [← hlength]
    exact hspan
  have hoffsetSpan : keyboardParseU32Span (path ++ b4 ++ o ++ b5 ++ c) (path.length + b4.length)
      ((path ++ b4).length + o.length) = some offset := by
    have hspan := keyboardParseU32Span_decimal (path ++ b4) (b5 ++ c) offset
    have hlength : (path ++ b4).length = path.length + b4.length := List.length_append
    rw [← hlength, List.append_assoc (path ++ b4 ++ o)]
    exact hspan
  have hslash : (path ++ b4 ++ o ++ b5 ++ c).headD 0 = 0x2F := by
    rw [List.headD_eq_head?_getD]
    simp [hpath.slash]
  have hpos : path.length ≠ 0 := by
    intro h0
    rw [List.length_eq_zero_iff] at h0
    rw [h0] at hpath
    exact absurd hpath.slash (by simp)
  have htake : (path ++ b4 ++ o ++ b5 ++ c).take path.length = path := by
    simp [List.append_assoc]
  unfold fatreadRest
  rw [hslash, if_neg (by decide), keyboardStrlen_eq hnonzero]
  simp only [hstop, hcount, hcountSpan, hoffsetEnd, hoffsetStart, hoffsetSpan, hpathEnd, htake]
  rw [if_neg (by omega)]

def fatreadLine (deviceIndex bootLba : UInt32) (path : List UInt8) (offset count : UInt32)
    (b1 b2 b3 b4 b5 : List UInt8) : List UInt8 :=
  ascii "fatread" ++ b1 ++ decimal deviceIndex.toNat ++ b2 ++ decimal bootLba.toNat ++ b3 ++ path ++ b4 ++
    decimal offset.toNat ++ b5 ++ decimal count.toNat

/-- **The arguments of `fatread`.** For all decimal numbers, every path and all blanks between them
in a line of fewer than 256 characters, the call gets exactly these numbers and this path if and
only if a space follows the name of the command. A tab there is a blank for the rest of the line,
but not for the dispatcher. -/
theorem fatread_round_trip_iff (deviceIndex bootLba offset count : UInt32)
    {path b1 b2 b3 b4 b5 : List UInt8} (hpath : IsPath path) (hb1 : Blanks b1) (hb2 : Blanks b2)
    (hb3 : Blanks b3) (hb4 : Blanks b4) (hb5 : Blanks b5)
    (hlength : (fatreadLine deviceIndex bootLba path offset count b1 b2 b3 b4 b5).length < 256) :
    commandReaction (fatreadLine deviceIndex bootLba path offset count b1 b2 b3 b4 b5) =
        .fatReadCommand deviceIndex bootLba path offset count ↔
      b1.head? = some 0x20 := by
  obtain ⟨b, b1, rfl⟩ := List.exists_cons_of_ne_nil hb1.nonempty
  set rest := path ++ b4 ++ decimal offset.toNat ++ b5 ++ decimal count.toNat with hrest
  have hline : fatreadLine deviceIndex bootLba path offset count (b :: b1) b2 b3 b4 b5 =
      ascii "fatread" ++ b :: (b1 ++ decimal deviceIndex.toNat ++
        (b2 ++ decimal bootLba.toNat ++ (b3 ++ rest))) := by
    simp [fatreadLine, hrest, List.append_assoc]
  have hshort : path.length < 256 := by
    have hlen := congrArg List.length hline
    simp only [List.length_append, List.length_cons, hrest] at hlen hlength
    omega
  rw [hline, List.head?_cons, Option.some.injEq]
  have hblank := hb1.blank b (by simp)
  rw [keyboardIsSpace, Bool.or_eq_true, decide_eq_true_iff, decide_eq_true_iff] at hblank
  rcases hblank with rfl | rfl
  · refine iff_of_true ?_ rfl
    have hdispatch := commandReaction_fatread
      (b1 ++ decimal deviceIndex.toNat ++ (b2 ++ decimal bootLba.toNat ++ (b3 ++ rest)))
    have hskip : keyboardSkipSpaces (b3 ++ rest) = rest := by
      obtain ⟨path', rfl⟩ := List.head?_eq_some_iff.mp hpath.slash
      rw [keyboardSkipSpaces_eq, afterBlanks, List.dropWhile_append_of_pos hb3.blank]
      rfl
    rw [show ascii "fatread " = ascii "fatread" ++ [0x20] from rfl, List.append_assoc,
      List.singleton_append] at hdispatch
    rw [hdispatch, fatreadBranch,
      keyboardParseU32Token_decimal (fun c hc => hb1.blank c (by simp [hc])) deviceIndex]
    · dsimp only
      rw [keyboardParseU32Token_decimal hb2.blank bootLba (hb3.head_stops rest)]
      dsimp only
      rw [hskip]
      exact fatreadRest_eq hpath hb4 hb5 offset count deviceIndex bootLba hshort
    · rw [List.append_assoc]
      exact hb2.head_stops _
  · rw [commandReaction_fatread_tab]
    exact iff_of_false (by simp) (by decide)

/-- A path with blanks and digits, and tabs between the parts. -/
theorem fatread_round_trip_tabs :
    commandReaction (ascii "fatread \t7  2048 /a 5 9 0\t4294967295") =
      .fatReadCommand 7 2048 (ascii "/a 5 9") 0 4294967295 := by
  have hpath : IsPath (ascii "/a 5 9") := by
    refine ⟨rfl, fun c hc h0 => ?_, fun c hc => ?_⟩
    · rw [h0] at hc
      exact absurd hc (by decide)
    · obtain rfl : 0x39 = c := Option.some.inj hc
      rfl
  have hblanks : ∀ text : List UInt8, text ≠ [] → text.all keyboardIsSpace = true → Blanks text :=
    fun _ hne hall => ⟨hne, List.all_eq_true.mp hall⟩
  have hline : ascii "fatread \t7  2048 /a 5 9 0\t4294967295" =
      fatreadLine 7 2048 (ascii "/a 5 9") 0 4294967295 (ascii " \t") (ascii "  ") (ascii " ") (ascii " ")
        (ascii "\t") := by decide +kernel
  rw [hline]
  exact (fatread_round_trip_iff 7 2048 0 4294967295 hpath (hblanks _ (by decide) rfl)
    (hblanks _ (by decide) rfl)
    (hblanks _ (by decide) rfl) (hblanks _ (by decide) rfl) (hblanks _ (by decide) rfl)
      (by decide +kernel)).mpr rfl

/-- A tab behind the name: the command is unknown. -/
theorem fatread_tab_unknown :
    fatreadLine 0 0 (ascii "/a") 0 1 (ascii "\t") (ascii " ") (ascii " ") (ascii " ") (ascii " ") =
        ascii "fatread\t0 0 /a 0 1" ∧
      commandReaction (ascii "fatread\t0 0 /a 0 1") = .unknownCommand := by
  decide +kernel

end TermobKernel.Shell

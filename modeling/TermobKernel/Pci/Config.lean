import TermobKernel.Library.Word

/-!
# PCI configuration space

The accessors of `core/pci.c` on a host bridge with configuration mechanism 1: a write to port
`0xCF8` selects a register, and port `0xCFC` is the register. `store` says what a register makes of
a write; an ordinary register takes it, and some bits of others are read-only or cleared by writing
a one.
-/

namespace TermobKernel.Pci

structure Location where
  bus : UInt8
  slot : UInt8
  function : UInt8
  register : UInt8
  deriving DecidableEq, Repr

abbrev Store := Location → UInt32 → UInt32 → UInt32

structure Bridge where
  address : UInt32
  registers : Location → UInt32

/-- The register that the bridge selects. -/
def decode (address : UInt32) : Location where
  bus := ((address >>> 16) &&& 0xFF).toUInt8
  slot := ((address >>> 11) &&& 0x1F).toUInt8
  function := ((address >>> 8) &&& 0x07).toUInt8
  register := (address &&& 0xFC).toUInt8

def pciConfigAddressPort : UInt16 := 0xCF8
def pciConfigDataPort : UInt16 := 0xCFC

def pciOutl (store : Store) (b : Bridge) (port : UInt16) (value : UInt32) : Bridge :=
  if port = pciConfigAddressPort then { b with address := value }
  else if port = pciConfigDataPort ∧ b.address &&& 0x80000000 ≠ 0 then
    let l := decode b.address
    { b with registers := Function.update b.registers l (store l (b.registers l) value) }
  else b

def pciInl (b : Bridge) (port : UInt16) : UInt32 :=
  if port = pciConfigDataPort ∧
      b.address &&& 0x80000000 ≠ 0 then b.registers (decode b.address) else 0xFFFFFFFF

/-! ### The accessors -/

/-- The address that `pci_config_write32_internal` and `pci_config_read32` compose. -/
def pciAddress (bus slot function offset : UInt8) : UInt32 :=
  (0x80000000 : UInt32) ||| bus.toUInt32 <<< 16 ||| slot.toUInt32 <<< 11 ||| function.toUInt32 <<< 8 |||
    (offset.toUInt32 &&& 0xFC)

def pciConfigWrite32 (store : Store) (bus slot function offset : UInt8) (value : UInt32)
    (b : Bridge) : Bridge :=
  let b := pciOutl store b pciConfigAddressPort (pciAddress bus slot function offset)
  pciOutl store b pciConfigDataPort value

def pciConfigRead32 (store : Store) (bus slot function offset : UInt8) (b : Bridge) : UInt32 × Bridge :=
  let b := pciOutl store b pciConfigAddressPort (pciAddress bus slot function offset)
  (pciInl b pciConfigDataPort, b)

def pciConfigRead16 (store : Store) (bus slot function offset : UInt8) (b : Bridge) : UInt16 × Bridge :=
  let (value, b) := pciConfigRead32 store bus slot function offset b
  let shift := (offset.toUInt32 &&& 0x02) * 8
  (((value >>> shift) &&& 0xFFFF).toUInt16, b)

def pciConfigRead8 (store : Store) (bus slot function offset : UInt8) (b : Bridge) : UInt8 × Bridge :=
  let (value, b) := pciConfigRead32 store bus slot function offset b
  let shift := (offset.toUInt32 &&& 0x03) * 8
  (((value >>> shift) &&& 0xFF).toUInt8, b)

def pciConfigWrite16 (store : Store) (bus slot function offset : UInt8) (value : UInt16)
    (b : Bridge) : Bridge :=
  let alignedOffset := offset.toUInt32 &&& 0xFC
  let (currentValue, b) := pciConfigRead32 store bus slot function alignedOffset.toUInt8 b
  let shift := (offset.toUInt32 &&& 0x02) * 8
  let mask : UInt32 := 0xFFFF <<< shift
  let currentValue := (currentValue &&& ~~~mask) ||| (value.toUInt32 <<< shift)
  pciConfigWrite32 store bus slot function alignedOffset.toUInt8 currentValue b

/-! ### Addresses -/

theorem or_eq_add {k x y : Nat} (hx : 2 ^ k ∣ x) (hy : y < 2 ^ k) : x ||| y = x + y := by
  obtain ⟨a, rfl⟩ := hx
  exact (Nat.two_pow_add_eq_or_of_lt hy a).symm

theorem and_fc : ∀ n < 256, n &&& 252 = n / 4 * 4 := by
  decide +kernel

theorem toNat_shift (x : UInt8) (k : UInt32) (hk : k.toNat ≤ 16) :
    (x.toUInt32 <<< k).toNat = x.toNat * 2 ^ k.toNat := by
  have hx := x.toNat_lt
  have hpow : 2 ^ k.toNat ≤ 2 ^ 16 := Nat.pow_le_pow_right (by decide) hk
  have hle : x.toNat * 2 ^ k.toNat ≤ 255 * 2 ^ 16 := Nat.mul_le_mul (by omega) hpow
  rw [UInt32.toNat_shiftLeft, UInt8.toNat_toUInt32, Nat.mod_eq_of_lt (show k.toNat < 32 by omega),
    Nat.shiftLeft_eq, Nat.mod_eq_of_lt (by omega)]

theorem toNat_aligned (offset : UInt8) : (offset.toUInt32 &&& 0xFC).toNat = offset.toNat / 4 * 4 := by
  rw [UInt32.toNat_and, UInt8.toNat_toUInt32]
  exact and_fc _ offset.toNat_lt

section address
variable {bus slot function : UInt8} (offset : UInt8)

theorem pciAddress_toNat (hslot : slot.toNat < 32) (hfunction : function.toNat < 8) :
    (pciAddress bus slot function offset).toNat =
      2 ^ 31 + bus.toNat * 2 ^ 16 + slot.toNat * 2 ^ 11 + function.toNat * 2 ^ 8 +
        offset.toNat / 4 * 4 := by
  have hbus := bus.toNat_lt
  have hoffset := offset.toNat_lt
  rw [pciAddress, UInt32.toNat_or, UInt32.toNat_or, UInt32.toNat_or, UInt32.toNat_or, toNat_aligned,
    toNat_shift bus 16 (by decide), toNat_shift slot 11 (by decide), toNat_shift function 8 (by decide)]
  change (((2 ^ 31 ||| bus.toNat * 2 ^ 16) ||| slot.toNat * 2 ^ 11) ||| function.toNat * 2 ^ 8) |||
    offset.toNat / 4 * 4 = _
  rw [@or_eq_add 24 (2 ^ 31) _ (by decide) (by omega),
    @or_eq_add 16 _ (slot.toNat * 2 ^ 11) (by omega) (by omega),
    @or_eq_add 11 _ (function.toNat * 2 ^ 8) (by omega) (by omega), @or_eq_add 8 _ _ (by omega) (by omega)]

theorem toNat_field (x : UInt32) (shift mask : UInt32) (k : Nat) (hk : k ≤ 8)
    (hmask : mask = UInt32.ofNat (2 ^ k - 1)) :
    ((x >>> shift) &&& mask).toUInt8.toNat = x.toNat / 2 ^ (shift.toNat % 32) % 2 ^ k := by
  have hpow : 2 ^ k ≤ 2 ^ 8 := Nat.pow_le_pow_right (by decide) hk
  rw [hmask, UInt32.toNat_toUInt8, Word.toNat_and_mask _ k (by omega), UInt32.toNat_shiftRight,
    Nat.shiftRight_eq_div_pow]
  exact Nat.mod_eq_of_lt (Nat.lt_of_lt_of_le (Nat.mod_lt _ (Nat.two_pow_pos k)) hpow)

theorem decode_pciAddress (hslot : slot.toNat < 32) (hfunction : function.toNat < 8) :
    decode (pciAddress bus slot function offset) =
        ⟨bus, slot, function, (offset.toUInt32 &&& 0xFC).toUInt8⟩ := by
  have hbus := bus.toNat_lt
  have hoffset := offset.toNat_lt
  have haddress := @pciAddress_toNat bus slot function offset hslot hfunction
  rw [decode, Location.mk.injEq]
  refine ⟨?_, ?_, ?_, ?_⟩
  · rw [← UInt8.toNat_inj, toNat_field _ 16 0xFF 8 (by decide) rfl, haddress]
    change _ / 2 ^ 16 % 2 ^ 8 = _
    omega
  · rw [← UInt8.toNat_inj, toNat_field _ 11 0x1F 5 (by decide) rfl, haddress]
    change _ / 2 ^ 11 % 2 ^ 5 = _
    omega
  · rw [← UInt8.toNat_inj, toNat_field _ 8 0x07 3 (by decide) rfl, haddress]
    change _ / 2 ^ 8 % 2 ^ 3 = _
    omega
  · rw [← UInt8.toNat_inj, UInt32.toNat_toUInt8, UInt32.toNat_toUInt8, toNat_aligned, UInt32.toNat_and,
      Nat.and_mod_two_pow, haddress]
    rw [show (2 ^ 31 + bus.toNat * 2 ^ 16 + slot.toNat * 2 ^ 11 + function.toNat * 2 ^ 8 +
      offset.toNat / 4 * 4) % 2 ^ 8 = offset.toNat / 4 * 4 by omega]
    change offset.toNat / 4 * 4 &&& 252 = _
    rw [and_fc _ (by omega)]
    omega

theorem pciAddress_enabled (bus slot function : UInt8) :
    pciAddress bus slot function offset &&& 0x80000000 ≠ 0 := by
  intro h
  have hbit := congrArg (fun x : UInt32 => x.toNat.testBit 31) h
  simp only [pciAddress, UInt32.toNat_and, UInt32.toNat_or, Nat.testBit_and, Nat.testBit_or] at hbit
  rw [show (0x80000000 : UInt32).toNat.testBit 31 = true from rfl] at hbit
  simp at hbit

/-- The number of the slot and of the function do not reach the bits of the register, whatever they are. -/
theorem decode_register (bus slot function : UInt8) :
    (decode (pciAddress bus slot function offset)).register = (offset.toUInt32 &&& 0xFC).toUInt8 := by
  have hhigh : ∀ (x : UInt32) (k : UInt32) (i : Nat), 8 ≤ k.toNat → k.toNat < 32 → i < 8 →
      (x <<< k).toNat.testBit i = false := by
    intro x k i hk hk' hi
    rw [UInt32.toNat_shiftLeft, Nat.mod_eq_of_lt hk', Nat.testBit_mod_two_pow, Nat.testBit_shiftLeft]
    simp [show ¬k.toNat ≤ i by omega]
  rw [decode, ← UInt8.toNat_inj, UInt32.toNat_toUInt8, UInt32.toNat_toUInt8]
  apply Nat.eq_of_testBit_eq
  intro i
  rw [Nat.testBit_mod_two_pow, Nat.testBit_mod_two_pow]
  by_cases hi : i < 8
  · have htop : (0x80000000 : UInt32).toNat.testBit i = false := by
      change (2 ^ 31).testBit i = false
      rw [Nat.testBit_two_pow]
      simp [show ¬31 = i by omega]
    simp only [pciAddress, UInt32.toNat_and, UInt32.toNat_or, Nat.testBit_and, Nat.testBit_or, htop,
      hhigh _ 16 i (by decide) (by decide) hi, hhigh _ 11 i (by decide) (by decide) hi,
      hhigh _ 8 i (by decide) (by decide) hi, Bool.false_or, Bool.and_assoc, Bool.and_self]
  · simp [hi]

end address

theorem pciConfigWrite32_decode (store : Store) (bus slot function offset : UInt8) (value : UInt32)
    (b : Bridge) :
    (pciConfigWrite32 store bus slot function offset value b).registers =
      Function.update b.registers (decode (pciAddress bus slot function offset))
        (store (decode (pciAddress bus slot function offset))
          (b.registers (decode (pciAddress bus slot function offset))) value) := by
  have henabled := pciAddress_enabled offset bus slot function
  have hport : pciConfigDataPort ≠ pciConfigAddressPort := by decide
  simp only [pciConfigWrite32, pciOutl, if_true, hport, if_false, henabled, ne_eq,
    not_false_eq_true, and_self]

theorem pciConfigRead32_registers (store : Store) (bus slot function offset : UInt8) (b : Bridge) :
    (pciConfigRead32 store bus slot function offset b).2.registers = b.registers := by
  simp only [pciConfigRead32, pciOutl, if_true]

theorem pciConfigRead8_registers (store : Store) (bus slot function offset : UInt8) (b : Bridge) :
    (pciConfigRead8 store bus slot function offset b).2.registers = b.registers :=
  pciConfigRead32_registers store bus slot function offset b

theorem pciConfigRead16_registers (store : Store) (bus slot function offset : UInt8) (b : Bridge) :
    (pciConfigRead16 store bus slot function offset b).2.registers = b.registers :=
  pciConfigRead32_registers store bus slot function offset b

/-! ### Reading -/

section access
variable {bus slot function : UInt8} (hslot : slot.toNat < 32) (hfunction : function.toNat < 8)
  (store : Store)
  (offset : UInt8) (b : Bridge)
include hslot hfunction

def location (bus slot function offset : UInt8) : Location :=
  ⟨bus, slot, function, (offset.toUInt32 &&& 0xFC).toUInt8⟩

theorem pciConfigRead32_eq :
    pciConfigRead32 store bus slot function offset b =
      (b.registers (location bus slot function offset),
        { b with address := pciAddress bus slot function offset }) := by
  have henabled := pciAddress_enabled offset bus slot function
  simp only [pciConfigRead32, pciOutl, pciInl, if_true, henabled, ne_eq, not_false_eq_true, and_self,
    decode_pciAddress offset hslot hfunction, location]

theorem pciConfigWrite32_registers (value : UInt32) :
    (pciConfigWrite32 store bus slot function offset value b).registers =
      Function.update b.registers (location bus slot function offset)
        (store (location bus slot function offset)
          (b.registers (location bus slot function offset)) value) := by
  rw [pciConfigWrite32_decode, decode_pciAddress offset hslot hfunction, location]

theorem pciConfigRead8_toNat :
    (pciConfigRead8 store bus slot function offset b).1.toNat =
      (b.registers (location bus slot function offset)).toNat / 2 ^ (offset.toNat % 4 * 8) % 2 ^ 8 := by
  have hshift : ((offset.toUInt32 &&& 0x03) * 8).toNat = offset.toNat % 4 * 8 := by
    have hmask := Word.toNat_and_mask offset.toUInt32 2 (by decide)
    change (offset.toUInt32 &&& 0x03).toNat = _ at hmask
    rw [Word.toNat_mul_of_lt (by rw [hmask]; change _ * 8 < _; omega), hmask, UInt8.toNat_toUInt32]
    rfl
  rw [pciConfigRead8, pciConfigRead32_eq hslot hfunction]
  dsimp only
  rw [toNat_field _ _ 0xFF 8 (by decide) rfl, hshift,
    Nat.mod_eq_of_lt (show offset.toNat % 4 * 8 < 32 by omega)]

end access

/-! ### Writing half a register -/

theorem and_two : ∀ n < 256, n &&& 2 = n / 2 % 2 * 2 := by
  decide +kernel

theorem half_shift (offset : UInt8) :
    (offset.toUInt32 &&& 0x02) * 8 = if offset.toNat / 2 % 2 = 0 then 0 else 16 := by
  have htwo : (offset.toUInt32 &&& 0x02).toNat = offset.toNat / 2 % 2 * 2 := by
    rw [UInt32.toNat_and, UInt8.toNat_toUInt32]
    exact and_two _ offset.toNat_lt
  rw [← UInt32.toNat_inj, Word.toNat_mul_of_lt (by rw [htwo]; change _ * 8 < _; omega), htwo]
  change _ * 8 = _
  split
  · next h => rw [h]; rfl
  · next h => rw [show offset.toNat / 2 % 2 = 1 by omega]; rfl

theorem replaced_half (current : UInt32) (value : UInt16) (offset : UInt8) :
    ((current &&& ~~~((0xFFFF : UInt32) <<< ((offset.toUInt32 &&& 0x02) * 8))) |||
        (value.toUInt32 <<< ((offset.toUInt32 &&& 0x02) * 8))).toNat =
      if offset.toNat / 2 % 2 = 0 then current.toNat / 2 ^ 16 * 2 ^ 16 + value.toNat
      else current.toNat % 2 ^ 16 + value.toNat * 2 ^ 16 := by
  have hvalue := value.toNat_lt
  have hcurrent := current.toNat_lt
  rw [half_shift, UInt32.toNat_or, UInt32.toNat_shiftLeft, UInt16.toNat_toUInt32]
  by_cases h : offset.toNat / 2 % 2 = 0
  · rw [if_pos h, if_pos h]
    have hlow := Word.toNat_and_not_mask current 16 (by decide)
    change (current &&& ~~~((0xFFFF : UInt32) <<< 0)).toNat = _ at hlow
    rw [hlow]
    change _ ||| value.toNat <<< 0 % 2 ^ 32 = _
    rw [Nat.shiftLeft_zero, Nat.mod_eq_of_lt (by omega), @or_eq_add 16 _ _ (by omega) (by omega)]
  · rw [if_neg h, if_neg h]
    have hlow := Word.toNat_and_mask current 16 (by decide)
    change (current &&& ~~~((0xFFFF : UInt32) <<< 16)).toNat = _ at hlow
    rw [hlow]
    change _ ||| value.toNat <<< 16 % 2 ^ 32 = _
    rw [Nat.shiftLeft_eq, Nat.mod_eq_of_lt (show value.toNat * 2 ^ 16 < 2 ^ 32 by omega), Nat.or_comm,
      @or_eq_add 16 _ _ (by omega) (by omega), Nat.add_comm]

theorem location_eq_iff (bus slot function bus' slot' function' offset offset' : UInt8) :
    location bus' slot' function' offset' = location bus slot function offset ↔
      (bus' = bus ∧ slot' = slot ∧ function' = function) ∧ offset'.toNat / 4 = offset.toNat / 4 := by
  have hoffset := offset.toNat_lt
  have hoffset' := offset'.toNat_lt
  have hregister : (offset'.toUInt32 &&& 0xFC).toUInt8 = (offset.toUInt32 &&& 0xFC).toUInt8 ↔
      offset'.toNat / 4 = offset.toNat / 4 := by
    rw [← UInt8.toNat_inj, UInt32.toNat_toUInt8, UInt32.toNat_toUInt8, toNat_aligned, toNat_aligned]
    omega
  rw [location, location, Location.mk.injEq, hregister]
  tauto

/-- What `pci_config_write16` writes to a register that holds `current`. -/
def replacedHalf (current : UInt32) (offset : UInt8) (value : UInt16) : UInt32 :=
  (current &&& ~~~((0xFFFF : UInt32) <<< ((offset.toUInt32 &&& 0x02) * 8))) |||
    (value.toUInt32 <<< ((offset.toUInt32 &&& 0x02) * 8))

theorem replacedHalf_byte (current : UInt32) (offset : UInt8) (value : UInt16) {k : Nat} (hk : k < 4) :
    (replacedHalf current offset value).toNat / 2 ^ (k * 8) % 2 ^ 8 =
      if k / 2 = offset.toNat / 2 % 2 then value.toNat / 2 ^ (k % 2 * 8) % 2 ^ 8
      else current.toNat / 2 ^ (k * 8) % 2 ^ 8 := by
  have hvalue := value.toNat_lt
  have hbyte : k = 0 ∧ k % 2 = 0 ∨ k = 1 ∧ k % 2 = 1 ∨ k = 2 ∧ k % 2 = 0 ∨ k = 3 ∧ k % 2 = 1 := by omega
  rw [replacedHalf, replaced_half]
  rcases hbyte with ⟨hk, h2⟩ | ⟨hk, h2⟩ | ⟨hk, h2⟩ | ⟨hk, h2⟩ <;> rw [h2, hk] <;> split <;> split <;> omega

section write
variable {bus slot function : UInt8} (hslot : slot.toNat < 32) (hfunction : function.toNat < 8)
  (store : Store)
  (offset : UInt8) (value : UInt16) (b : Bridge)
include hslot hfunction

theorem pciConfigWrite16_registers :
    (pciConfigWrite16 store bus slot function offset value b).registers =
      Function.update b.registers (location bus slot function offset)
        (store (location bus slot function offset) (b.registers (location bus slot function offset))
          (replacedHalf (b.registers (location bus slot function offset)) offset value)) := by
  -- the aligned offset names the same register
  have haligned : location bus slot function (offset.toUInt32 &&& 0xFC).toUInt8 =
      location bus slot function offset := by
    have hoffset := offset.toNat_lt
    rw [location_eq_iff, UInt32.toNat_toUInt8, toNat_aligned]
    exact ⟨⟨rfl, rfl, rfl⟩, by omega⟩
  rw [pciConfigWrite16, pciConfigRead32_eq hslot hfunction]
  dsimp only
  rw [pciConfigWrite32_registers hslot hfunction, haligned]
  rfl

theorem pciConfigWrite16_ordinary
    (hstore : ∀ old new, store (location bus slot function offset) old new = new)
    {bus' slot' function' offset' : UInt8} (hslot' : slot'.toNat < 32)
    (hfunction' : function'.toNat < 8) :
    (pciConfigRead8 store bus' slot' function' offset'
        (pciConfigWrite16 store bus slot function offset value b)).1 =
      if (bus' = bus ∧ slot' = slot ∧ function' = function) ∧ offset'.toNat / 2 = offset.toNat / 2 then
        (value >>> (if offset'.toNat % 2 = 0 then 0 else 8)).toUInt8
      else (pciConfigRead8 store bus' slot' function' offset' b).1 := by
  have hbyte : (value >>> (if offset'.toNat % 2 = 0 then 0 else 8)).toUInt8.toNat =
      value.toNat / 2 ^ (offset'.toNat % 4 % 2 * 8) % 2 ^ 8 := by
    rw [UInt16.toNat_toUInt8, UInt16.toNat_shiftRight, Nat.shiftRight_eq_div_pow,
      Nat.mod_mod_of_dvd _ (show 2 ∣ 4 by decide)]
    rcases Nat.mod_two_eq_zero_or_one offset'.toNat with h | h
    · rw [h]
      rfl
    · rw [h]
      rfl
  rw [← UInt8.toNat_inj, pciConfigRead8_toNat hslot' hfunction',
    pciConfigWrite16_registers hslot hfunction, hstore, Function.update_apply]
  by_cases hloc : location bus' slot' function' offset' = location bus slot function offset
  · obtain ⟨⟨rfl, rfl, rfl⟩, hquad⟩ := (location_eq_iff ..).mp hloc
    rw [if_pos hloc, replacedHalf_byte _ _ _ (Nat.mod_lt _ (by decide))]
    simp only [and_self, true_and]
    by_cases hhalf : offset'.toNat / 2 = offset.toNat / 2
    · rw [if_pos hhalf, if_pos (by omega), hbyte]
    · rw [if_neg hhalf, if_neg (by omega), pciConfigRead8_toNat hslot' hfunction', hloc]
  · rw [if_neg hloc, if_neg, pciConfigRead8_toNat hslot' hfunction']
    rintro ⟨hsame, hhalf⟩
    exact hloc ((location_eq_iff ..).mpr ⟨hsame, by omega⟩)

end write

/-- A write of 16 bits, whatever the registers make of a write. The register of the offset is given
32 bits: the value in the half of the offset, and in the other half what it held before. No other
register is written. A register that takes what it is given changes in the two bytes alone. -/
theorem config_write16_exact (store : Store) (b : Bridge) {bus slot function : UInt8}
    (offset : UInt8) (value : UInt16) (hslot : slot.toNat < 32) (hfunction : function.toNat < 8) :
    (∃ written : UInt32,
      (pciConfigWrite16 store bus slot function offset value b).registers =
        Function.update b.registers (location bus slot function offset)
          (store (location bus slot function offset)
            (b.registers (location bus slot function offset)) written) ∧
      ∀ k < 4, written.toNat / 2 ^ (k * 8) % 2 ^ 8 =
        if k / 2 = offset.toNat / 2 % 2 then value.toNat / 2 ^ (k % 2 * 8) % 2 ^ 8
        else (b.registers (location bus slot function offset)).toNat / 2 ^ (k * 8) % 2 ^ 8) ∧
      ((∀ old new, store (location bus slot function offset) old new = new) →
        ∀ bus' slot' function' offset' : UInt8, slot'.toNat < 32 → function'.toNat < 8 →
          (pciConfigRead8 store bus' slot' function' offset'
              (pciConfigWrite16 store bus slot function offset value b)).1 =
            if (bus' = bus ∧ slot' = slot ∧ function' = function) ∧
                offset'.toNat / 2 = offset.toNat / 2 then
              (value >>> (if offset'.toNat % 2 = 0 then 0 else 8)).toUInt8
            else (pciConfigRead8 store bus' slot' function' offset' b).1) := by
  refine ⟨⟨_, pciConfigWrite16_registers hslot hfunction store offset value b, ?_⟩, ?_⟩
  · intro k hk
    exact replacedHalf_byte _ offset value hk
  · intro hstore bus' slot' function' offset' hslot' hfunction'
    exact pciConfigWrite16_ordinary hslot hfunction store offset value b hstore hslot' hfunction'

/-- The command and status register: the command takes what is written, a one clears the error bits
of the status, and its other bits are read-only. -/
def commandStatus : Store := fun _ old new =>
  (new &&& 0x0000FFFF) ||| (old &&& 0xFFFF0000 &&& ~~~(new &&& 0xF9000000))

/-- Setting the command register writes the status back, and so clears the error that the status reports. -/
theorem config_write16_exact_command :
    (3 : UInt8).toNat < 32 ∧ (1 : UInt8).toNat < 8 ∧
      (∃ written : UInt32,
        (pciConfigWrite16 commandStatus 0 3 1 4 0x0105 ⟨0, fun _ => 0x82800001⟩).registers =
          Function.update (fun _ => 0x82800001) (location 0 3 1 4)
            (commandStatus (location 0 3 1 4) 0x82800001 written) ∧
        ∀ k < 4, written.toNat / 2 ^ (k * 8) % 2 ^ 8 =
          if k / 2 = (4 : UInt8).toNat / 2 % 2 then (0x0105 : UInt16).toNat / 2 ^ (k % 2 * 8) % 2 ^ 8
          else (0x82800001 : UInt32).toNat / 2 ^ (k * 8) % 2 ^ 8) ∧
      (pciConfigWrite16 commandStatus 0 3 1 4 0x0105 ⟨0, fun _ => 0x82800001⟩).registers
        (location 0 3 1 4) = 0x02800105 :=
  ⟨by decide, by decide,
    (config_write16_exact commandStatus ⟨0, fun _ => 0x82800001⟩ 4 0x0105 (by decide) (by decide)).1,
    by decide +kernel⟩

end TermobKernel.Pci

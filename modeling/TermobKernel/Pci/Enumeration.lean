import TermobKernel.Pci.Config
import TermobKernel.Driver.Binding

/-!
# Enumeration of the PCI bus

`pci_init` of `core/pci.c` asks every slot of every bus for its functions and registers what it
finds with the driver model. A registration calls probes, and these may write to the configuration
space. The result is stated for probes that leave alone what the enumeration reads. `kmalloc` always
succeeds, as in the driver model.
-/

namespace TermobKernel.Pci
open Driver

variable {π : Type}

/-- The statics of `core/pci.c`, with the bridge and the driver model. -/
structure Scan (π : Type) where
  bridge : Bridge
  registry : Driver.State π
  pciReady : Bool
  pciDeviceCountValue : Nat

/-- The machine and the drivers of a kernel. -/
structure Platform (π : Type) where
  store : Store
  /-- What the probes register for a device. -/
  registers : TermobDevice → π → List (Registration π)
  /-- What a probe does to the configuration space when it is called for a device. -/
  probe : π → TermobDevice → Bridge → Bridge

/-- The calls of probes among the events, in their order. -/
def probeCalls (s : Driver.State π) (events : List Event) : List (π × TermobDevice) :=
  events.filterMap fun e => match e with
    | .bound _ _ => none
    | .probed i k =>
      ((s.driverDriverList[k]?).bind (·.probe)).bind fun callback =>
        (s.driverDeviceList[i]?).map fun node => (callback, node.device)

/-- The configuration space after the probes that a registration called. -/
def Platform.probed (p : Platform π) (s s' : Driver.State π) (b : Bridge) : Bridge :=
  (probeCalls s' (s'.events.drop s.events.length)).foldl (fun b call => p.probe call.1 call.2 b) b

def pciBuildDeviceName (bus slot function : UInt8) : String :=
  String.ofList ['p', 'c', 'i', '-', hexDigit ((bus >>> 4) &&& 0x0F), hexDigit (bus &&& 0x0F), ':',
    hexDigit ((slot >>> 4) &&& 0x0F), hexDigit (slot &&& 0x0F), '.', hexDigit (function &&& 0x07)]

def pciRegisterFunction (p : Platform π) (bus slot function : UInt8) (s : Scan π) : Scan π :=
  let (vendorId, bridge) := pciConfigRead16 p.store bus slot function 0x00 s.bridge
  if vendorId = 0xFFFF then { s with bridge }
  else
    let (deviceId, bridge) := pciConfigRead16 p.store bus slot function 0x02 bridge
    let (revision, bridge) := pciConfigRead8 p.store bus slot function 0x08 bridge
    let (progIf, bridge) := pciConfigRead8 p.store bus slot function 0x09 bridge
    let (subclass, bridge) := pciConfigRead8 p.store bus slot function 0x0A bridge
    let (classCode, bridge) := pciConfigRead8 p.store bus slot function 0x0B bridge
    let device : TermobDevice :=
      { name := some (pciBuildDeviceName bus slot function)
        busType := .pci
        busRef := driverBusByType s.registry.driverBusList .pci
        driver := none
        boundDriverName := none
        driverData := 0
        data := 0
        vendorId, deviceId, classCode, subclass, progIf, revision, bus, slot, function }
    let r := driverRegisterDevice (.mk device (p.registers device)) s.registry
    { s with
      bridge := p.probed s.registry r.2 bridge
      registry := r.2
      pciDeviceCountValue := if r.1 then s.pciDeviceCountValue + 1 else s.pciDeviceCountValue }

def pciScanSlot (p : Platform π) (bus slot : UInt8) (s : Scan π) : Scan π :=
  let (vendorId, bridge) := pciConfigRead16 p.store bus slot 0 0x00 s.bridge
  let s := { s with bridge }
  if vendorId = 0xFFFF then s
  else
    let s := pciRegisterFunction p bus slot 0 s
    let (headerType, bridge) := pciConfigRead8 p.store bus slot 0 0x0E s.bridge
    let s := { s with bridge }
    if headerType &&& 0x80 = 0 then s
    else [1, 2, 3, 4, 5, 6, 7].foldl (fun s function => pciRegisterFunction p bus slot function s) s

def pciInit (p : Platform π) (s : Scan π) : Scan π :=
  (List.range 256).foldl
    (fun s bus =>
      (List.range 32).foldl (fun s slot => pciScanSlot p (UInt8.ofNat bus) (UInt8.ofNat slot) s) s)
    { s with pciReady := true, pciDeviceCountValue := 0 }

/-! ### What there is to find -/

section found
variable (store : Store) (b : Bridge)

def vendorOf (bus slot function : UInt8) : UInt16 := (pciConfigRead16 store bus slot function 0x00 b).1

def multifunction (bus slot : UInt8) : Bool :=
  decide ((pciConfigRead8 store bus slot 0 0x0E b).1 &&& 0x80 ≠ 0)

/-- Functions of a slot. The others are looked for only when function 0 says that there are some. -/
def functionsOf (bus slot : UInt8) : List UInt8 :=
  if vendorOf store b bus slot 0 = 0xFFFF then []
  else 0 :: if multifunction store b bus slot then
    [1, 2, 3, 4, 5, 6, 7].filter fun function => vendorOf store b bus slot function ≠ 0xFFFF
  else []

/-- Functions of all slots of all buses, in the order of their addresses. -/
def found : List (UInt8 × UInt8 × UInt8) :=
  (List.range 256).flatMap fun bus => (List.range 32).flatMap fun slot =>
    (functionsOf store b (UInt8.ofNat bus) (UInt8.ofNat slot)).map fun function =>
      (UInt8.ofNat bus, UInt8.ofNat slot, function)

/-- The device record of a function. -/
def describe (buses : List Bus) (l : UInt8 × UInt8 × UInt8) : TermobDevice where
  name := some (pciBuildDeviceName l.1 l.2.1 l.2.2)
  busType := .pci
  busRef := driverBusByType buses .pci
  driver := none
  boundDriverName := none
  driverData := 0
  data := 0
  vendorId := vendorOf store b l.1 l.2.1 l.2.2
  deviceId := (pciConfigRead16 store l.1 l.2.1 l.2.2 0x02 b).1
  classCode := (pciConfigRead8 store l.1 l.2.1 l.2.2 0x0B b).1
  subclass := (pciConfigRead8 store l.1 l.2.1 l.2.2 0x0A b).1
  progIf := (pciConfigRead8 store l.1 l.2.1 l.2.2 0x09 b).1
  revision := (pciConfigRead8 store l.1 l.2.1 l.2.2 0x08 b).1
  bus := l.1
  slot := l.2.1
  function := l.2.2

end found

/-- The part of the configuration space that the enumeration reads. -/
def SameHeaders (b b' : Bridge) : Prop :=
  ∀ bus slot function, ∀ offset ∈ [(0x00 : UInt8), 0x08, 0x0C],
    b'.registers (location bus slot function offset) = b.registers (location bus slot function offset)

theorem SameHeaders.refl (b : Bridge) : SameHeaders b b := fun _ _ _ _ _ => rfl

theorem SameHeaders.trans {b b' b'' : Bridge} (h : SameHeaders b b') (h' : SameHeaders b' b'') :
    SameHeaders b b'' :=
  fun bus slot function offset ho => (h' bus slot function offset ho).trans (h bus slot function offset ho)

theorem sameHeaders_read16 {b b' : Bridge} (h : SameHeaders b b') (store : Store)
    (bus slot function offset : UInt8) :
    SameHeaders b (pciConfigRead16 store bus slot function offset b').2 :=
  h.trans fun _ _ _ _ _ => by rw [pciConfigRead16_registers]

theorem sameHeaders_read8 {b b' : Bridge} (h : SameHeaders b b') (store : Store)
    (bus slot function offset : UInt8) :
    SameHeaders b (pciConfigRead8 store bus slot function offset b').2 :=
  h.trans fun _ _ _ _ _ => by rw [pciConfigRead8_registers]

theorem sameHeaders_command (store : Store) (bus slot function : UInt8) (value : UInt16) (b : Bridge) :
    SameHeaders b (pciConfigWrite16 store bus slot function 0x04 value b) := by
  intro bus' slot' function' offset hoffset
  rw [pciConfigWrite16]
  dsimp only
  rw [pciConfigWrite32_decode, pciConfigRead32_registers, Function.update_of_ne]
  intro heq
  have hregister : (offset.toUInt32 &&& 0xFC).toUInt8 = _ := congrArg Location.register heq
  rw [decode_register] at hregister
  simp only [List.mem_cons, List.not_mem_nil, or_false] at hoffset
  rcases hoffset with rfl | rfl | rfl
  · exact absurd hregister (by decide)
  · exact absurd hregister (by decide)
  · exact absurd hregister (by decide)

section reads
variable {bus slot function : UInt8} (hslot : slot.toNat < 32) (hfunction : function.toNat < 8)
  (store : Store)
  {b b' : Bridge}
include hslot hfunction

theorem read16_congr {offset : UInt8}
    (h : b'.registers (location bus slot function offset) =
      b.registers (location bus slot function offset)) :
    (pciConfigRead16 store bus slot function offset b').1 =
        (pciConfigRead16 store bus slot function offset b).1 := by
  rw [pciConfigRead16, pciConfigRead16, pciConfigRead32_eq hslot hfunction,
    pciConfigRead32_eq hslot hfunction, h]

theorem read8_congr {offset : UInt8}
    (h : b'.registers (location bus slot function offset) =
      b.registers (location bus slot function offset)) :
    (pciConfigRead8 store bus slot function offset b').1 =
        (pciConfigRead8 store bus slot function offset b).1 := by
  rw [pciConfigRead8, pciConfigRead8, pciConfigRead32_eq hslot hfunction,
    pciConfigRead32_eq hslot hfunction, h]

theorem SameHeaders.vendorOf (h : SameHeaders b b') :
    vendorOf store b' bus slot function = vendorOf store b bus slot function :=
  read16_congr hslot hfunction store (h bus slot function 0x00 (by decide))

theorem SameHeaders.describe (h : SameHeaders b b') (buses : List Bus) :
    describe store b' buses (bus, slot, function) = describe store b buses (bus, slot, function) := by
  have h0 := h bus slot function 0x00 (by decide)
  have h8 := h bus slot function 0x08 (by decide)
  simp only [Pci.describe, h.vendorOf hslot hfunction store,
    @read16_congr bus slot function hslot hfunction store b b' 0x02 h0,
    @read8_congr bus slot function hslot hfunction store b b' 0x08 h8,
    @read8_congr bus slot function hslot hfunction store b b' 0x09 h8,
    @read8_congr bus slot function hslot hfunction store b b' 0x0A h8,
    @read8_congr bus slot function hslot hfunction store b b' 0x0B h8]

theorem pciRegisterFunction_eq (p : Platform π) (s : Scan π) :
    pciRegisterFunction p bus slot function s =
      if vendorOf p.store s.bridge bus slot function = 0xFFFF then
        { s with bridge := { s.bridge with address := pciAddress bus slot function 0x00 } }
      else
        let device := Pci.describe p.store s.bridge s.registry.driverBusList (bus, slot, function)
        let r := driverRegisterDevice (.mk device (p.registers device)) s.registry
        { s with
          bridge := p.probed s.registry r.2 { s.bridge with address := pciAddress bus slot function 0x0B }
          registry := r.2
          pciDeviceCountValue := if r.1 then s.pciDeviceCountValue + 1 else s.pciDeviceCountValue } := by
  simp only [pciRegisterFunction, Pci.vendorOf, Pci.describe, pciConfigRead16, pciConfigRead8,
    pciConfigRead32_eq hslot hfunction]

end reads

/-! ### The scan -/

/-- The driver model after the registration of some functions. -/
def registered (p : Platform π) (b : Bridge) (r : Driver.State π) (done : List (UInt8 × UInt8 × UInt8)) :
    Driver.State π :=
  (done.map (describe p.store b r.driverBusList)).foldl
    (fun r device => (driverRegisterDevice (.mk device (p.registers device)) r).2) r

/-- The functions `done` have been registered, and no others. -/
structure Scanned (p : Platform π) (b : Bridge) (r : Driver.State π) (done : List (UInt8 × UInt8 × UInt8))
    (s : Scan π) : Prop where
  headers : SameHeaders b s.bridge
  registry : s.registry = registered p b r done
  count : s.pciDeviceCountValue = done.length
  quiet : Quiet s.registry
  buses : s.registry.driverBusList = r.driverBusList
  ready : s.pciReady = true

def Platform.KeepsHeaders (p : Platform π) : Prop :=
  ∀ callback device b, SameHeaders b (p.probe callback device b)

theorem Platform.KeepsHeaders.probed {p : Platform π} (hp : p.KeepsHeaders) (s s' : Driver.State π)
    (b : Bridge) :
    SameHeaders b (p.probed s s' b) := by
  unfold Platform.probed
  generalize probeCalls s' (s'.events.drop s.events.length) = calls
  induction calls generalizing b with
  | nil => exact SameHeaders.refl b
  | cons call calls ih => exact (hp call.1 call.2 b).trans (ih (p.probe call.1 call.2 b))

theorem foldl_collects {σ α β : Type*} {P : List β → σ → Prop} {f : σ → α → σ} {g : α → List β}
    {xs : List α} (hstep : ∀ x ∈ xs, ∀ done s, P done s → P (done ++ g x) (f s x)) {done : List β}
    {s : σ} (h : P done s) :
    P (done ++ xs.flatMap g) (xs.foldl f s) := by
  induction xs generalizing done s with
  | nil => simpa using h
  | cons x xs ih =>
    rw [List.flatMap_cons, ← List.append_assoc]
    exact ih (fun y hy => hstep y (List.mem_cons_of_mem x hy)) (hstep x List.mem_cons_self done s h)

section scan
variable {p : Platform π} {b : Bridge} {r : Driver.State π} {done : List (UInt8 × UInt8 × UInt8)}
  {s : Scan π} {bus slot : UInt8}

theorem Scanned.moved (h : Scanned p b r done s) {bridge : Bridge} (hb : SameHeaders b bridge) :
    Scanned p b r done { s with bridge } := ⟨hb, h.registry, h.count, h.quiet, h.buses, h.ready⟩

theorem driverRegisterDevice_true (hr : Quiet r) {device : TermobDevice} (hname : device.name ≠ none)
    (registers : π → List (Registration π)) : (driverRegisterDevice (.mk device registers) r).1 = true := by
  rw [driverRegisterDevice, if_neg]
  rw [hr.ready]
  exact not_or.mpr ⟨Bool.noConfusion, hname⟩

theorem Scanned.register (h : Scanned p b r done s) (hp : p.KeepsHeaders) (hslot : slot.toNat < 32)
    {function : UInt8} (hfunction : function.toNat < 8) :
    Scanned p b r (done ++ if vendorOf p.store b bus slot function =
      0xFFFF then [] else [(bus, slot, function)])
      (pciRegisterFunction p bus slot function s) := by
  rw [pciRegisterFunction_eq hslot hfunction, h.headers.vendorOf hslot hfunction p.store]
  by_cases hvendor : vendorOf p.store b bus slot function = 0xFFFF
  · rw [if_pos hvendor, if_pos hvendor, List.append_nil]
    exact h.moved fun bus slot function offset ho => h.headers bus slot function offset ho
  · rw [if_neg hvendor, if_neg hvendor]
    dsimp only
    rw [h.headers.describe hslot hfunction p.store, h.buses,
      driverRegisterDevice_true h.quiet (by rw [describe]; exact Option.some_ne_none _)]
    obtain ⟨hquiet, hgrown⟩ :=
      h.quiet.registerDevice (.mk (describe p.store b r.driverBusList (bus, slot, function))
        (p.registers (describe p.store b r.driverBusList (bus, slot, function))))
    refine ⟨?_, ?_, ?_, hquiet, hgrown.buses.trans h.buses, h.ready⟩
    · exact SameHeaders.trans h.headers (hp.probed _ _ _)
    · rw [h.registry, registered, registered, List.map_append, List.foldl_append]
      rfl
    · rw [if_pos rfl, h.count, List.length_append, List.length_singleton]

theorem flatMap_skip {α β : Type*} (q : α → Prop) [DecidablePred q] (h : α → β) (xs : List α) :
    (xs.flatMap fun x => if q x then [] else [h x]) = (xs.filter fun x => ¬q x).map h := by
  induction xs with
  | nil => rfl
  | cons x xs ih =>
    rw [List.flatMap_cons, ih]
    by_cases hx : q x
    · simp [hx]
    · simp [hx]

theorem Scanned.scanSlot (h : Scanned p b r done s) (hp : p.KeepsHeaders) (hslot : slot.toNat < 32) :
    Scanned p b r (done ++ (functionsOf p.store b bus slot).map fun function => (bus, slot, function))
      (pciScanSlot p bus slot s) := by
  have hzero : (0 : UInt8).toNat < 8 := by decide
  have hstart : Scanned p b r done { s with
      bridge := (pciConfigRead16 p.store bus slot 0 0x00 s.bridge).2 } :=
    h.moved (sameHeaders_read16 h.headers p.store bus slot 0 0x00)
  have hvendor : (pciConfigRead16 p.store bus slot 0 0x00 s.bridge).1 = vendorOf p.store b bus slot 0 :=
    h.headers.vendorOf hslot hzero p.store
  unfold pciScanSlot functionsOf
  dsimp only
  rw [hvendor]
  by_cases hnone : vendorOf p.store b bus slot 0 = 0xFFFF
  · rw [if_pos hnone, if_pos hnone, List.map_nil, List.append_nil]
    exact hstart
  rw [if_neg hnone, if_neg hnone]
  have hfirst : Scanned p b r (done ++ [(bus, slot, 0)]) (pciRegisterFunction p bus slot 0
      { s with bridge := (pciConfigRead16 p.store bus slot 0 0x00 s.bridge).2 }) := by
    have hregister := @Scanned.register π p b r done _ bus slot hstart hp hslot 0 hzero
    rwa [if_neg hnone] at hregister
  generalize pciRegisterFunction p bus slot 0 _ = s₁ at hfirst ⊢
  have hheader : (pciConfigRead8 p.store bus slot 0 0x0E s₁.bridge).1 =
      (pciConfigRead8 p.store bus slot 0 0x0E b).1 :=
    read8_congr hslot hzero p.store (hfirst.headers bus slot 0 0x0C (by decide))
  have hread := hfirst.moved (sameHeaders_read8 hfirst.headers p.store bus slot 0 0x0E)
  rw [hheader, multifunction]
  by_cases hsingle : (pciConfigRead8 p.store bus slot 0 0x0E b).1 &&& 0x80 = 0
  · simp only [hsingle, if_true, ne_eq, not_true_eq_false, decide_false, Bool.false_eq_true,
      if_false, List.map_cons, List.map_nil]
    exact hread
  · simp only [hsingle, if_false, ne_eq, not_false_eq_true, decide_true, if_true, List.map_cons]
    rw [← flatMap_skip, List.append_cons]
    refine foldl_collects (fun function hmem done s hs => hs.register hp hslot ?_) hread
    simp only [List.mem_cons, List.not_mem_nil, or_false] at hmem
    rcases hmem with rfl | rfl | rfl | rfl | rfl | rfl | rfl <;> decide

theorem scanned_pciInit (hp : p.KeepsHeaders) (hr : Quiet s.registry) :
    Scanned p s.bridge s.registry (found p.store s.bridge) (pciInit p s) := by
  have hstart : Scanned p s.bridge s.registry [] { s with pciReady := true, pciDeviceCountValue := 0 } :=
    ⟨SameHeaders.refl _, rfl, rfl, hr, rfl, rfl⟩
  rw [pciInit, found, ← List.nil_append (List.flatMap _ _)]
  refine foldl_collects (fun bus _ done s₁ hbus => ?_) hstart
  refine foldl_collects (fun slot hslot done s₂ hs => hs.scanSlot hp ?_) hbus
  have hlt := List.mem_range.mp hslot
  rw [UInt8.toNat_ofNat']
  omega

end scan

/-! ### The functions found -/

section results
variable (store : Store) (b : Bridge)

theorem mem_functionsOf (bus slot function : UInt8) :
    function ∈ functionsOf store b bus slot ↔ function.toNat < 8 ∧ vendorOf store b bus slot 0 ≠ 0xFFFF ∧
      (function = 0 ∨
        multifunction store b bus slot = true ∧ vendorOf store b bus slot function ≠ 0xFFFF) := by
  have hlist : ∀ function : UInt8, function ∈ [(1 : UInt8), 2, 3, 4, 5, 6, 7] ↔ function ≠ 0 ∧
      function.toNat < 8 := by
    intro function
    simp only [List.mem_cons, List.not_mem_nil, or_false, ne_eq, ← UInt8.toNat_inj]
    change _ = 1 ∨ _ = 2 ∨ _ = 3 ∨ _ = 4 ∨ _ = 5 ∨ _ = 6 ∨ _ = 7 ↔ ¬ _ = 0 ∧ _
    omega
  unfold functionsOf
  by_cases hnone : vendorOf store b bus slot 0 = 0xFFFF
  · simp [hnone]
  · by_cases hfirst : function = 0
    · subst hfirst
      simp [hnone]
    · cases multifunction store b bus slot with
      | false => simp [hnone, hfirst]
      | true =>
        simp only [hnone, if_false, if_true, List.mem_cons, List.mem_filter, hlist,
          decide_eq_true_eq, hfirst, false_or]
        constructor
        · rintro ⟨⟨-, hlt⟩, hvendor⟩
          exact ⟨hlt, hnone, trivial, hvendor⟩
        · rintro ⟨hlt, -, -, hvendor⟩
          exact ⟨⟨hfirst, hlt⟩, hvendor⟩

theorem mem_found (bus slot function : UInt8) :
    (bus, slot, function) ∈ found store b ↔ slot.toNat < 32 ∧ function.toNat < 8 ∧
      vendorOf store b bus slot 0 ≠ 0xFFFF ∧
      (function = 0 ∨
        multifunction store b bus slot = true ∧ vendorOf store b bus slot function ≠ 0xFFFF) := by
  have hbus := bus.toNat_lt
  simp only [found, List.mem_flatMap, List.mem_range, List.mem_map, Prod.mk.injEq, ← mem_functionsOf]
  constructor
  · rintro ⟨i, hi, j, hj, f, hf, rfl, rfl, rfl⟩
    refine ⟨?_, hf⟩
    rw [UInt8.toNat_ofNat']
    omega
  · rintro ⟨hslot, hf⟩
    exact ⟨bus.toNat, hbus, slot.toNat, hslot, function,
      by rwa [UInt8.ofNat_toNat, UInt8.ofNat_toNat], by simp, by simp, rfl⟩

def scanKey (l : UInt8 × UInt8 × UInt8) : Nat := l.1.toNat * 256 + l.2.1.toNat * 8 + l.2.2.toNat

theorem functionsOf_increasing (bus slot : UInt8) :
    (functionsOf store b bus slot).Pairwise fun f g => f.toNat < g.toNat := by
  have hall : [(0 : UInt8), 1, 2, 3, 4, 5, 6, 7].Pairwise fun f g => f.toNat < g.toNat := by decide
  refine hall.sublist ?_
  unfold functionsOf
  split
  · exact List.nil_sublist _
  · refine List.Sublist.cons_cons _ ?_
    split
    · exact List.filter_sublist
    · exact List.nil_sublist _

theorem found_increasing : (found store b).Pairwise fun l l' => scanKey l < scanKey l' := by
  have hkey : ∀ {i j : Nat}, i < 256 → j < 32 → ∀ f ∈ functionsOf store b (UInt8.ofNat i) (UInt8.ofNat j),
      scanKey (UInt8.ofNat i, UInt8.ofNat j, f) = i * 256 + j * 8 + f.toNat ∧ f.toNat < 8 := by
    intro i j hi hj f hf
    refine ⟨?_, ((mem_functionsOf store b _ _ f).mp hf).1⟩
    rw [scanKey, UInt8.toNat_ofNat_of_lt' hi, UInt8.toNat_ofNat_of_lt' (show j < 256 by omega)]
  rw [found, List.pairwise_flatMap]
  refine ⟨fun i hi => ?_, ?_⟩
  · have hi := List.mem_range.mp hi
    rw [List.pairwise_flatMap]
    refine ⟨fun j hj => ?_, ?_⟩
    · have hj := List.mem_range.mp hj
      rw [List.pairwise_map]
      refine (functionsOf_increasing store b _ _).imp_of_mem fun {f g} hf hg hlt => ?_
      rw [(hkey hi hj f hf).1, (hkey hi hj g hg).1]
      omega
    · refine List.pairwise_lt_range.imp_of_mem fun {j j'} hj hj' hlt => ?_
      simp only [List.mem_map]
      rintro _ ⟨f, hf, rfl⟩ _ ⟨g, hg, rfl⟩
      obtain ⟨hf, hf8⟩ := hkey hi (List.mem_range.mp hj) f hf
      obtain ⟨hg, hg8⟩ := hkey hi (List.mem_range.mp hj') g hg
      rw [hf, hg]
      omega
  · refine List.pairwise_lt_range.imp_of_mem fun {i i'} hi hi' hlt => ?_
    simp only [List.mem_flatMap, List.mem_map]
    rintro _ ⟨j, hj, f, hf, rfl⟩ _ ⟨j', hj', g, hg, rfl⟩
    have hj := List.mem_range.mp hj
    have hj' := List.mem_range.mp hj'
    obtain ⟨hf, hf8⟩ := hkey (List.mem_range.mp hi) hj f hf
    obtain ⟨hg, hg8⟩ := hkey (List.mem_range.mp hi') hj' g hg
    rw [hf, hg]
    omega

/-! ### Names -/

theorem hexDigit_inj : ∀ a < 16, ∀ b < 16, hexDigits.getD a '0' = hexDigits.getD b '0' → a = b := by
  decide

theorem toNat_low (x : UInt8) (k : Nat) (hk : k ≤ 8) :
    (x &&& UInt8.ofNat (2 ^ k - 1)).toNat = x.toNat % 2 ^ k := by
  have hpow : 2 ^ k ≤ 2 ^ 8 := Nat.pow_le_pow_right (by decide) hk
  have hpos : 0 < 2 ^ k := Nat.two_pow_pos k
  rw [UInt8.toNat_and, UInt8.toNat_ofNat_of_lt' (show 2 ^ k - 1 < 2 ^ 8 by omega),
    Nat.and_two_pow_sub_one_eq_mod]

theorem toNat_low_nibble (x : UInt8) : (x &&& 0x0F).toNat = x.toNat % 16 := toNat_low x 4 (by decide)

theorem toNat_high_nibble (x : UInt8) : ((x >>> 4) &&& 0x0F).toNat = x.toNat / 16 := by
  have hx := x.toNat_lt
  rw [toNat_low_nibble, UInt8.toNat_shiftRight, Nat.shiftRight_eq_div_pow]
  change x.toNat / 2 ^ 4 % 16 = _
  omega

theorem byte_of_digits {x y : UInt8} (hhigh : hexDigit ((x >>> 4) &&& 0x0F) = hexDigit ((y >>> 4) &&& 0x0F))
    (hlow : hexDigit (x &&& 0x0F) = hexDigit (y &&& 0x0F)) : x = y := by
  have hx := x.toNat_lt
  have hy := y.toNat_lt
  rw [hexDigit, hexDigit, toNat_high_nibble, toNat_high_nibble] at hhigh
  rw [hexDigit, hexDigit, toNat_low_nibble, toNat_low_nibble] at hlow
  have hhigh := hexDigit_inj _ (by omega) _ (by omega) hhigh
  have hlow := hexDigit_inj _ (by omega) _ (by omega) hlow
  rw [← UInt8.toNat_inj]
  omega

theorem pciBuildDeviceName_inj {bus slot function bus' slot' function' : UInt8}
    (hfunction : function.toNat < 8) (hfunction' : function'.toNat < 8)
    (h : pciBuildDeviceName bus slot function = pciBuildDeviceName bus' slot' function') :
    (bus, slot, function) = (bus', slot', function') := by
  have hchars := congrArg String.toList h
  simp only [pciBuildDeviceName, String.toList_ofList, List.cons.injEq, true_and, and_true] at hchars
  obtain ⟨hbus, hbus', hslot, hslot', hf⟩ := hchars
  rw [byte_of_digits hbus hbus', byte_of_digits hslot hslot']
  have hdigit : function &&& 0x07 = function ∧ function' &&& 0x07 = function' := by
    refine ⟨?_, ?_⟩ <;> rw [← UInt8.toNat_inj, show (0x07 : UInt8) = UInt8.ofNat (2 ^ 3 - 1) from rfl,
      toNat_low _ 3 (by decide)] <;> omega
  rw [hexDigit, hexDigit, hdigit.1, hdigit.2] at hf
  rw [Prod.mk.injEq, Prod.mk.injEq]
  exact ⟨rfl, rfl, UInt8.toNat_inj.mp (hexDigit_inj _ (by omega) _ (by omega) hf)⟩

theorem found_names_nodup : ((found store b).map fun l => pciBuildDeviceName l.1 l.2.1 l.2.2).Nodup := by
  refine List.Nodup.map_on ?_ ((found_increasing store b).imp fun hlt heq => ?_)
  · rintro ⟨bus, slot, function⟩ h ⟨bus', slot', function'⟩ h' heq
    exact pciBuildDeviceName_inj ((mem_found store b ..).mp h).2.1 ((mem_found store b ..).mp h').2.1 heq
  · rw [heq] at hlt
    exact lt_irrefl _ hlt

end results

/-- For drivers whose probes leave the headers alone: `pci_init` registers every function that the
headers announce, each once, in the order of the addresses and under a name of its own, and nothing
else. -/
theorem pci_enumeration_exact {p : Platform π} (hp : p.KeepsHeaders) {s : Scan π} (hr : Quiet s.registry) :
    ∃ ls, (pciInit p s).registry = registered p s.bridge s.registry ls ∧
      (pciInit p s).pciDeviceCountValue = ls.length ∧
      (∀ bus slot function, (bus, slot, function) ∈ ls ↔ slot.toNat < 32 ∧ function.toNat < 8 ∧
        vendorOf p.store s.bridge bus slot 0 ≠ 0xFFFF ∧ (function = 0 ∨
          multifunction p.store s.bridge bus slot = true ∧
          vendorOf p.store s.bridge bus slot function ≠ 0xFFFF)) ∧
      ls.Pairwise (fun l l' => scanKey l < scanKey l') ∧
      (ls.map fun l => pciBuildDeviceName l.1 l.2.1 l.2.2).Nodup := by
  have hscan := scanned_pciInit hp hr
  exact ⟨_, hscan.registry, hscan.count, mem_found p.store s.bridge, found_increasing p.store s.bridge,
    found_names_nodup p.store s.bridge⟩

/-- A bus with a bridge in slot 0, and a disk and nothing else in slot 4. -/
def smallBus : Bridge where
  address := 0
  registers l :=
    if l.bus = 0 ∧ l.function = 0 then
      if l.slot = 0 then (if l.register = 0 then 0x12378086 else 0x06000000)
      else if l.slot = 4 then (if l.register = 0 then 0x10011AF4 else if l.register =
          8 then 0x01000000 else 0)
      else 0xFFFFFFFF
    else 0xFFFFFFFF

/-- A driver for all functions on the bus, whose probe sets bits of the command register. -/
def busmasterPlatform : Platform Unit where
  store := commandStatus
  registers _ _ := []
  probe _ device b := pciConfigWrite16 commandStatus device.bus device.slot device.function 0x04 0x0005 b

def busmasterDriver : TermobDriver Unit := ⟨some "busmaster", .pci, none, some ()⟩

def busmasterRegistry : Driver.State Unit := { driverModelInit true with
  driverDriverList := [busmasterDriver], driverDriverCountValue := 1 }

theorem vendorOf_smallBus (store : Store) {bus slot : UInt8} (hslot : slot.toNat < 32) :
    vendorOf store smallBus bus slot 0 ≠ 0xFFFF ↔ bus = 0 ∧ (slot = 0 ∨ slot = 4) := by
  rw [vendorOf, pciConfigRead16, pciConfigRead32_eq hslot (by decide)]
  by_cases hbus : bus = 0
  · subst hbus
    by_cases hzero : slot = 0
    · subst hzero
      decide
    · by_cases hfour : slot = 4
      · subst hfour
        decide
      · simp [smallBus, location, hzero, hfour]
        rfl
  · simp [smallBus, location, hbus]
    rfl

theorem mem_found_smallBus (store : Store) (bus slot function : UInt8) :
    (bus, slot, function) ∈ found store smallBus ↔ bus = 0 ∧ (slot = 0 ∨ slot = 4) ∧ function = 0 := by
  rw [mem_found]
  constructor
  · rintro ⟨hslot, _, hvendor, hwhich⟩
    obtain ⟨rfl, hplace⟩ := (vendorOf_smallBus store hslot).mp hvendor
    refine ⟨rfl, hplace, ?_⟩
    rcases hwhich with hfirst | ⟨hmulti, _⟩
    · exact hfirst
    · rw [multifunction, pciConfigRead8, pciConfigRead32_eq hslot (by decide)] at hmulti
      rcases hplace with rfl | rfl
      · exact absurd hmulti (by decide +kernel)
      · exact absurd hmulti (by decide +kernel)
  · rintro ⟨rfl, hplace, rfl⟩
    have hslot : slot.toNat < 32 := by
      rcases hplace with rfl | rfl
      · decide
      · decide
    exact ⟨hslot, by decide, (vendorOf_smallBus store hslot).mpr ⟨rfl, hplace⟩, Or.inl rfl⟩

theorem pci_enumeration_exact_small :
    busmasterPlatform.KeepsHeaders ∧ Quiet busmasterRegistry ∧
      driverRegisterDriver 0 (driverModelInit true) busmasterDriver = some (true, busmasterRegistry) ∧
      (busmasterPlatform.probe () (describe commandStatus smallBus [] (0, 4, 0)) smallBus).registers
        (location 0 4 0 0x04) = 0x0005 ∧
      ∃ ls, (pciInit busmasterPlatform ⟨smallBus, busmasterRegistry, false, 0⟩).registry =
          registered busmasterPlatform smallBus busmasterRegistry ls ∧
        ∀ bus slot function, (bus, slot, function) ∈ ls ↔
          bus = 0 ∧ (slot = 0 ∨ slot = 4) ∧ function = 0 := by
  have hkeeps : busmasterPlatform.KeepsHeaders := fun _ _ b => sameHeaders_command _ _ _ _ _ b
  have hquiet : Quiet busmasterRegistry := quiet_of_no_devices rfl rfl rfl rfl rfl rfl
  obtain ⟨ls, hregistry, _, hmem, _⟩ :=
    @pci_enumeration_exact Unit busmasterPlatform hkeeps ⟨smallBus, busmasterRegistry, false, 0⟩ hquiet
  refine ⟨hkeeps, hquiet, rfl, by decide +kernel, ls, hregistry, fun bus slot function => ?_⟩
  rw [hmem, ← mem_found_smallBus commandStatus, mem_found]
  rfl

end TermobKernel.Pci

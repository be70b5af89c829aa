import TermobKernel.Pci.Enumeration
import TermobKernel.Fat.Device

/-!
# From the PCI bus to the block devices

The drivers of the kernel are registered before the bus is enumerated: `virtio_init`, `audio_init`
and then `pci_init`. The probe of a virtio function registers a logical device, and the probe of a
logical block device registers it with the block layer of `core/block.c`. Two of the probes write to
the configuration space, to the command register of their function alone, and so the enumeration
goes on as if they did not (`keepsHeaders_kernel`). The ports of a device are not those of the host
bridge.
-/

namespace TermobKernel.Pci
open Driver

/-! ### `core/block.c` -/

/-- `termob_block_device_t`; the `read` callback is the same for all. -/
structure TermobBlockDevice where
  name : Option String
  driverName : Option String
  sectorSizeBytes : UInt32
  sectorCount : UInt32
  privateData : UInt32
  deriving DecidableEq, Repr

structure BlockLayer where
  blockReady : Bool
  blockDeviceList : List TermobBlockDevice
  blockDeviceCountValue : Nat
  deriving DecidableEq, Repr

def blockInit (heapInitialized : Bool) : BlockLayer := ⟨heapInitialized, [], 0⟩

def blockRegisterDevice (layer : BlockLayer) (device : TermobBlockDevice) : Bool × BlockLayer :=
  if layer.blockReady = false ∨ device.name = none then (false, layer)
  else
    (true, { layer with
      blockDeviceList := layer.blockDeviceList ++ [device]
      blockDeviceCountValue := layer.blockDeviceCountValue + 1 })

def blockDeviceAtLoop (index : Nat) : List TermobBlockDevice → Nat → Option TermobBlockDevice
  | [], _ => none
  | node :: next, cursor => if cursor = index then some node else blockDeviceAtLoop index next (cursor + 1)

def blockDeviceAt (layer : BlockLayer) (index : Nat) : Option TermobBlockDevice :=
  if layer.blockReady = false then none else blockDeviceAtLoop index layer.blockDeviceList 0

theorem blockDeviceAtLoop_eq (nodes : List TermobBlockDevice) (cursor k : Nat) :
    blockDeviceAtLoop (cursor + k) nodes cursor = nodes[k]? := by
  induction nodes generalizing cursor k with
  | nil => rfl
  | cons node next ih =>
    cases k with
    | zero => exact if_pos rfl
    | succ k =>
      rw [blockDeviceAtLoop, if_neg (by omega), show cursor + (k + 1) = cursor + 1 + k by omega, ih]
      rfl

/-- The block layer as the file system sees it: the contents of the disks and their failures come
from the devices. -/
def BlockLayer.asDisks (layer : BlockLayer) (image : TermobBlockDevice → UInt32 → Fat.Buffer)
    (fails : TermobBlockDevice → Nat → UInt32 → Bool) : Fat.Disks :=
  ⟨layer.blockReady, layer.blockDeviceList.map fun r => ⟨r.sectorSizeBytes, true, image r, fails r⟩⟩

theorem blockDeviceAt_asDisks (layer : BlockLayer) (image : TermobBlockDevice → UInt32 → Fat.Buffer)
    (fails : TermobBlockDevice → Nat → UInt32 → Bool) (index : UInt32) :
    Fat.blockDeviceAt (layer.asDisks image fails) index =
      (blockDeviceAt layer index.toNat).map fun r => ⟨r.sectorSizeBytes, true, image r, fails r⟩ := by
  rw [Fat.blockDeviceAt, blockDeviceAt, BlockLayer.asDisks]
  by_cases hready : layer.blockReady = false
  · rw [if_pos hready, if_pos hready]
    rfl
  · rw [if_neg hready, if_neg hready, List.getElem?_map, ← blockDeviceAtLoop_eq _ 0, Nat.zero_add]

/-! ### The drivers of the kernel -/

inductive Probe where
  | virtioPci
  | virtioBlk
  | audioPci
  deriving DecidableEq, Repr

def audioPciMatch (device : TermobDevice) : Bool :=
  device.busType == .pci && device.classCode == 0x04 && (device.subclass == 0x01 || device.subclass == 0x03)

def kernelDrivers : List (TermobDriver Probe) :=
  [⟨some "virtio-pci", .pci, some virtioPciMatch, some .virtioPci⟩,
   ⟨some "virtio-blk", .virtio, some virtioBlkMatch, some .virtioBlk⟩,
   ⟨some "audio-pci", .pci, some audioPciMatch, some .audioPci⟩]

/-- `device_model_init`, `virtio_init` and `audio_init`. -/
def registerDrivers (rounds : Nat) : Option (Driver.State Probe) := do
  let r ← driverRegisterDriver rounds (driverModelInit true) kernelDrivers[0]
  let r ← if r.1 then driverRegisterDriver rounds r.2 kernelDrivers[1] else some r
  let r ← driverRegisterDriver rounds r.2 kernelDrivers[2]
  return r.2

def builtinBuses : List Bus := [⟨some "PCI", .pci⟩, ⟨some "VIRTIO", .virtio⟩]

/-- What the probes register; `info` is the address that `kmalloc` returns for the `info` of a
logical device. -/
def kernelRegisters (info : TermobDevice → UInt32) (device : TermobDevice) :
    Probe → List (Registration Probe)
  | .virtioPci => [.mk (virtioLogicalDevice builtinBuses (info device) device) fun _ => []]
  | .virtioBlk => []
  | .audioPci => []

/-- What `virtio_blk_probe` finds out about a device, and the address of its state. -/
structure BlkOutcome where
  capacitySectors : UInt32
  state : UInt32

/-- The record that `virtio_blk_probe` registers. -/
def virtioBlkRecord (outcome : UInt8 × UInt8 × UInt8 → BlkOutcome) (device : TermobDevice) :
    TermobBlockDevice where
  name := device.name
  driverName := some "virtio-blk"
  sectorSizeBytes := 512
  sectorCount := (outcome (device.bus, device.slot, device.function)).capacitySectors
  privateData := (outcome (device.bus, device.slot, device.function)).state

/-- The block layer after the calls of `virtio_blk_probe`. -/
def blockLayer (outcome : UInt8 × UInt8 × UInt8 → BlkOutcome) (s : Driver.State Probe) : BlockLayer :=
  ((probeCalls s s.events).filter (·.1 = .virtioBlk)).foldl
    (fun layer call => (blockRegisterDevice layer (virtioBlkRecord outcome call.2)).2) (blockInit true)

/-! ### What the probes do to the configuration space -/

section probes
variable (store : Store)

def pciCommandRegister : UInt8 := 0x04
def pciBar0Register : UInt8 := 0x10
def pciBar1Register : UInt8 := 0x14
def pciIrqLineRegister : UInt8 := 0x3C

/-- `virtio_pci_enable_io_busmaster`, and the same lines of `audio_ac97_try_init`. -/
def enableIoBusmaster (device : TermobDevice) (b : Bridge) : Bridge :=
  let (command, b) := pciConfigRead16 store device.bus device.slot device.function pciCommandRegister b
  pciConfigWrite16 store device.bus device.slot device.function pciCommandRegister (command ||| 0x0005) b

def virtioIsModernDeviceId (deviceId : UInt16) : Bool := 0x1040 ≤ deviceId && deviceId ≤ 0x107F

/-- The accesses of `virtio_blk_setup_queue`. The transport of a logical device is the function it
stands for, which has the same numbers. -/
def virtioBlkSetupQueue (device : TermobDevice) (b : Bridge) : Bridge :=
  if virtioIsModernDeviceId device.deviceId then b
  else
    let b := enableIoBusmaster store device b
    (pciConfigRead32 store device.bus device.slot device.function pciBar0Register b).2

def audioIsKnownAc97Device (vendorId deviceId : UInt16) : Bool :=
  vendorId == 0x8086 && (deviceId == 0x2415 || deviceId == 0x2425)

/-- The accesses of `audio_ac97_try_init`, which takes one device only: `detected` is the flag that
it finds. -/
def audioAc97TryInit (detected : Bool) (device : TermobDevice) (b : Bridge) : Bridge :=
  if detected then b
  else if audioIsKnownAc97Device device.vendorId device.deviceId = false then b
  else
    let b := (pciConfigRead8 store device.bus device.slot device.function pciIrqLineRegister b).2
    let b := enableIoBusmaster store device b
    let b := (pciConfigRead16 store device.bus device.slot device.function pciCommandRegister b).2
    let b := (pciConfigRead32 store device.bus device.slot device.function pciBar0Register b).2
    (pciConfigRead32 store device.bus device.slot device.function pciBar1Register b).2

/-- `virtio_pci_probe` registers the logical device and touches no register. -/
def kernelProbe (detected : TermobDevice → Bool) : Probe → TermobDevice → Bridge → Bridge
  | .virtioPci, _, b => b
  | .virtioBlk, device, b => virtioBlkSetupQueue store device b
  | .audioPci, device, b => audioAc97TryInit store (detected device) device b

def kernelPlatform (info : TermobDevice → UInt32) (detected : TermobDevice → Bool) : Platform Probe :=
  ⟨store, kernelRegisters info, kernelProbe store detected⟩

variable {store}

theorem sameHeaders_read32 {b b' : Bridge} (h : SameHeaders b b') (bus slot function offset : UInt8) :
    SameHeaders b (pciConfigRead32 store bus slot function offset b').2 :=
  h.trans fun _ _ _ _ _ => by rw [pciConfigRead32_registers]

theorem sameHeaders_enable {b b' : Bridge} (h : SameHeaders b b') (device : TermobDevice) :
    SameHeaders b (enableIoBusmaster store device b') :=
  (sameHeaders_read16 h store _ _ _ _).trans (sameHeaders_command store _ _ _ _ _)

theorem keepsHeaders_kernel (info : TermobDevice → UInt32) (detected : TermobDevice → Bool) :
    (kernelPlatform store info detected).KeepsHeaders := by
  intro callback device b
  have hrefl := SameHeaders.refl b
  cases callback with
  | virtioPci => exact hrefl
  | virtioBlk =>
    change SameHeaders b (virtioBlkSetupQueue store device b)
    unfold virtioBlkSetupQueue
    split
    · exact hrefl
    · exact sameHeaders_read32 (sameHeaders_enable hrefl device) _ _ _ _
  | audioPci =>
    change SameHeaders b (audioAc97TryInit store (detected device) device b)
    unfold audioAc97TryInit
    split
    · exact hrefl
    split
    · exact hrefl
    · have hcommand : SameHeaders b (enableIoBusmaster store device _) := sameHeaders_enable
        (sameHeaders_read8 hrefl store device.bus device.slot device.function pciIrqLineRegister) device
      exact sameHeaders_read32
        (sameHeaders_read32 (sameHeaders_read16 hcommand store _ _ _ _) _ _ _ _) _ _ _ _

end probes

/-! ### The registry before the enumeration -/

def bootRegistry : Driver.State Probe :=
  ⟨true, builtinBuses, [], kernelDrivers, 2, 0, 3, 0, [], []⟩

theorem registerDrivers_eq (rounds : Nat) : registerDrivers rounds = some bootRegistry := by
  cases rounds with
  | zero => rfl
  | succ rounds => rfl

theorem quiet_bootRegistry : Quiet bootRegistry := quiet_of_no_devices rfl rfl rfl rfl rfl rfl

theorem earliest_pci {device : TermobDevice} (h : device.busType = .pci) :
    earliest kernelDrivers device =
      if virtioPciMatch device then some 0 else if audioPciMatch device then some 2 else none := by
  simp only [earliest, kernelDrivers, List.findIdx?_cons, driverDeviceMatches, h, ne_eq,
    not_true_eq_false, if_false, List.findIdx?_nil]
  cases virtioPciMatch device <;> cases audioPciMatch device <;> rfl

theorem earliest_virtio {device : TermobDevice} (h : device.busType = .virtio) :
    earliest kernelDrivers device = if virtioBlkMatch device then some 1 else none := by
  simp only [earliest, kernelDrivers, List.findIdx?_cons, driverDeviceMatches, h, ne_eq,
    not_true_eq_false, if_false, List.findIdx?_nil]
  cases virtioBlkMatch device <;> rfl

section functions
variable (info : TermobDevice → UInt32)
variable {device : TermobDevice}

def logical (device : TermobDevice) : TermobDevice := virtioLogicalDevice builtinBuses (info device) device

def isDisk (device : TermobDevice) : Bool := virtioPciMatch device && virtioIsBlockDeviceId device.deviceId

def logicalNode (device : TermobDevice) : DeviceNode Probe :=
  if virtioIsBlockDeviceId device.deviceId then boundNode
      ⟨logical info device, fun _ => []⟩ 1 kernelDrivers[1]
  else ⟨logical info device, fun _ => []⟩

/-- The nodes that the registration of a function adds. -/
def newNodes (device : TermobDevice) : List (DeviceNode Probe) :=
  if virtioPciMatch device then
    [boundNode ⟨device, kernelRegisters info device⟩ 0 kernelDrivers[0], logicalNode info device]
  else if audioPciMatch device then [boundNode ⟨device, kernelRegisters info device⟩ 2 kernelDrivers[2]]
  else [⟨device, kernelRegisters info device⟩]

theorem virtioBlkMatch_logical (h : virtioPciMatch device = true) :
    virtioBlkMatch (logical info device) = virtioIsBlockDeviceId device.deviceId := by
  simp only [virtioPciMatch, Bool.and_eq_true] at h
  simp only [virtioBlkMatch, virtioLogicalMatch, logical, virtioLogicalDevice, h.1.2, h.2, Bool.and_true]
  rfl

theorem nodesOf_logical (h : virtioPciMatch device = true) :
    nodesOf builtinBuses kernelDrivers (.mk (logical info device) fun _ => []) =
        [logicalNode info device] := by
  have hstored : driverStoredDevice builtinBuses (logical info device) = logical info device := rfl
  have hname : (logical info device).name ≠ none := Option.some_ne_none _
  rw [nodesOf, if_neg hname, hstored, bindTo, probeFor, @earliest_virtio (logical info device) rfl,
    virtioBlkMatch_logical info h, logicalNode]
  cases virtioIsBlockDeviceId device.deviceId with
  | true => rfl
  | false => rfl

theorem nodesOf_function (hname : device.name ≠ none) (hbus : device.busType = .pci)
    (hstored : driverStoredDevice builtinBuses device = device) :
    nodesOf builtinBuses kernelDrivers (.mk device (kernelRegisters info device)) =
        newNodes info device := by
  have hfree : device.driver = none ∧ device.boundDriverName = none := by
    rw [← hstored]
    exact ⟨rfl, rfl⟩
  rw [nodesOf, if_neg hname, hstored, bindTo, probeFor, earliest_pci hbus, newNodes]
  cases hvirtio : virtioPciMatch device with
  | true =>
    have hlogical := nodesOf_logical info hvirtio
    refine congrArg (_ :: ·) ?_
    change nodesOfAll builtinBuses kernelDrivers [.mk (logical info device) fun _ => []] = _
    rw [nodesOfAll, hlogical]
    rfl
  | false =>
    cases audioPciMatch device with
    | true => rfl
    | false =>
      obtain ⟨⟩ := device
      obtain ⟨rfl, rfl⟩ := hfree
      rfl

/-- The probe that the binding of the node called, with the device. -/
def nodeCall (node : DeviceNode Probe) : Option (Probe × TermobDevice) :=
  ((node.device.driver.bind (kernelDrivers[·]?)).bind (·.probe)).map (·, node.device)

theorem newNodes_calls (hfree : device.driver = none) :
    ((newNodes info device).filterMap nodeCall).filter (·.1 = .virtioBlk) =
      if isDisk device then [(.virtioBlk, (logicalNode info device).device)] else [] := by
  unfold newNodes isDisk
  cases virtioPciMatch device with
  | true =>
    unfold logicalNode
    cases virtioIsBlockDeviceId device.deviceId with
    | true => rfl
    | false => rfl
  | false =>
    cases audioPciMatch device with
    | true => rfl
    | false =>
      simp [nodeCall, hfree]

end functions

theorem probeCalls_nodeEvents {s : Driver.State Probe} (hdrivers : s.driverDriverList = kernelDrivers)
    {nodes : List (DeviceNode Probe)} {i : Nat} (hnodes : s.driverDeviceList.drop i = nodes) :
    probeCalls s (nodeEvents kernelDrivers i nodes) = nodes.filterMap nodeCall := by
  induction nodes generalizing i with
  | nil => rfl
  | cons node nodes ih =>
    have hat : s.driverDeviceList[i]? = some node := by
      rw [← List.head?_drop, hnodes]
      rfl
    have hrest : s.driverDeviceList.drop (i + 1) = nodes := by
      rw [← List.drop_drop, hnodes]
      rfl
    rw [nodeEvents, probeCalls, List.filterMap_append, ← probeCalls, ← probeCalls, ih hrest,
      List.filterMap_cons]
    cases hk : node.device.driver with
    | none =>
      simp only [nodeCall, hk]
      rfl
    | some k =>
      simp only [nodeCall, hk, Option.bind_some, bindingEvents]
      cases hcallback : (kernelDrivers[k]?).bind (·.probe) with
      | none => simp [probeCalls]
      | some callback => simp [probeCalls, hdrivers, hcallback, hat]

/-! ### The block devices -/

section disks
variable (store : Store) (b : Bridge) (info : TermobDevice → UInt32)
variable {p : Platform Probe}

def disks : List (UInt8 × UInt8 × UInt8) :=
  (found store b).filter fun l => isDisk (describe store b builtinBuses l)

theorem registered_eq {π : Type} (p : Platform π) (r : Driver.State π)
    (done : List (UInt8 × UInt8 × UInt8)) :
    registered p b r done = driverRegisterDevices ((done.map (describe p.store b r.driverBusList)).map
      fun device => .mk device (p.registers device)) r := by
  rw [registered]
  generalize done.map (describe p.store b r.driverBusList) = devices
  induction devices generalizing r with
  | nil => rw [List.map_nil, driverRegisterDevices, List.foldl_nil]
  | cons device devices ih => rw [List.map_cons, driverRegisterDevices, List.foldl_cons, ih]

theorem registered_grown (hp : p.registers = kernelRegisters info)
    (done : List (UInt8 × UInt8 × UInt8)) :
    Grown bootRegistry (registered p b bootRegistry done)
      ((done.map (describe p.store b builtinBuses)).flatMap (newNodes info)) := by
  have hspec := (driverRegisterDevices_spec ((done.map (describe p.store b builtinBuses)).map
    fun device => .mk device (p.registers device)) bootRegistry quiet_bootRegistry.booked rfl).2
  have hnodes : ∀ ls : List (UInt8 × UInt8 × UInt8),
      nodesOfAll builtinBuses kernelDrivers ((ls.map (describe p.store b builtinBuses)).map
        fun device => .mk device (p.registers device)) =
        (ls.map (describe p.store b builtinBuses)).flatMap (newNodes info) := by
    intro ls
    induction ls with
    | nil => rfl
    | cons l ls ih =>
      rw [List.map_cons, List.map_cons, nodesOfAll, ih, List.flatMap_cons, hp,
        nodesOf_function info (Option.some_ne_none _) rfl rfl]
  rw [registered_eq]
  exact hnodes done ▸ hspec

theorem registered_calls (hp : p.registers = kernelRegisters info)
    (done : List (UInt8 × UInt8 × UInt8)) :
    (probeCalls (registered p b bootRegistry done) (registered p b bootRegistry done).events).filter
        (·.1 = .virtioBlk) =
      ((done.map (describe p.store b builtinBuses)).filter isDisk).map
        fun device => (.virtioBlk, (logicalNode info device).device) := by
  have hgrown := registered_grown b info hp done
  have hevents : (registered p b bootRegistry done).events = nodeEvents kernelDrivers 0 _ := hgrown.events
  have hnodes : (registered p b bootRegistry done).driverDeviceList.drop 0 =
      (done.map (describe p.store b builtinBuses)).flatMap (newNodes info) := hgrown.nodes
  rw [hevents, probeCalls_nodeEvents hgrown.drivers hnodes]
  generalize hdevices : done.map (describe p.store b builtinBuses) = devices
  have hfree : ∀ device ∈ devices, device.driver = none := by
    intro device hmem
    rw [← hdevices] at hmem
    obtain ⟨l, _, rfl⟩ := List.mem_map.mp hmem
    rfl
  clear hdevices hevents hnodes hgrown
  induction devices with
  | nil => rfl
  | cons device devices ih =>
    rw [List.flatMap_cons, List.filterMap_append, List.filter_append,
      newNodes_calls info (hfree device List.mem_cons_self),
      ih fun d hd => hfree d (List.mem_cons_of_mem _ hd), List.filter_cons]
    split
    · rfl
    · rfl

theorem newNodes_pci {device : TermobDevice} (hbus : device.busType = .pci)
    (hreleased : released device = device) :
    ((newNodes info device).filter (·.device.busType = .pci)).map
        (fun node => released node.device) = [device] := by
  have hlogical : (logicalNode info device).device.busType = .virtio := by
    unfold logicalNode
    split
    · rfl
    · rfl
  have hbound : ∀ k driver,
      released (boundNode ⟨device, kernelRegisters info device⟩ k driver).device = device :=
    fun _ _ => hreleased
  have hpci : ∀ k driver,
      (boundNode ⟨device, kernelRegisters info device⟩ k driver).device.busType = .pci :=
    fun _ _ => hbus
  unfold newNodes
  split
  · simp [hlogical, hbound, hpci]
  · split
    · simp [hbound, hpci]
    · simp [hbus, hreleased]

theorem registered_pci (hp : p.registers = kernelRegisters info)
    (done : List (UInt8 × UInt8 × UInt8)) :
    ((registered p b bootRegistry done).driverDeviceList.filter (·.device.busType = .pci)).map
        (fun node => released node.device) = done.map (describe p.store b builtinBuses) := by
  rw [(registered_grown b info hp done).nodes, show bootRegistry.driverDeviceList = [] from rfl,
    List.nil_append, List.filter_flatMap, List.map_flatMap, List.flatMap_map]
  calc done.flatMap (fun l => ((newNodes info (describe p.store b builtinBuses l)).filter
        (·.device.busType = .pci)).map fun node => released node.device)
      = done.flatMap fun l => [describe p.store b builtinBuses l] :=
        List.flatMap_congr fun l _ => newNodes_pci info rfl rfl
    _ = done.map (describe p.store b builtinBuses) := List.flatMap_pure_eq_map _ _

def diskRecord (outcome : UInt8 × UInt8 × UInt8 → BlkOutcome) (l : UInt8 × UInt8 × UInt8) :
    TermobBlockDevice where
  name := some (virtioBuildChildName (describe store b builtinBuses l).deviceId l.1 l.2.1 l.2.2)
  driverName := some "virtio-blk"
  sectorSizeBytes := 512
  sectorCount := (outcome l).capacitySectors
  privateData := (outcome l).state

theorem virtioBlkRecord_logical (outcome : UInt8 × UInt8 × UInt8 → BlkOutcome) (l : UInt8 × UInt8 × UInt8) :
    virtioBlkRecord outcome (logicalNode info (describe store b builtinBuses l)).device =
      diskRecord store b outcome l := by
  unfold logicalNode
  split
  · rfl
  · rfl

theorem foldl_blockRegisterDevice (records : List TermobBlockDevice) (hnames : ∀ r ∈ records, r.name ≠ none)
    (layer : BlockLayer) (hready : layer.blockReady = true) :
    records.foldl (fun layer r => (blockRegisterDevice layer r).2) layer =
      ⟨true, layer.blockDeviceList ++ records, layer.blockDeviceCountValue + records.length⟩ := by
  induction records generalizing layer with
  | nil =>
    obtain ⟨ready, list, count⟩ := layer
    cases hready
    simp
  | cons r records ih =>
    have hoff : ¬(layer.blockReady = false ∨ r.name = none) := by
      rw [hready]
      exact not_or.mpr ⟨Bool.noConfusion, hnames r List.mem_cons_self⟩
    rw [List.foldl_cons, blockRegisterDevice, if_neg hoff]
    refine (ih (fun r' hr => hnames r' (List.mem_cons_of_mem r hr)) ⟨layer.blockReady,
      layer.blockDeviceList ++ [r], layer.blockDeviceCountValue + 1⟩ hready).trans ?_
    simp only [List.append_assoc, List.singleton_append, List.length_cons, Nat.add_assoc, Nat.add_comm 1]

theorem diskName {deviceId : UInt16} (h : virtioIsBlockDeviceId deviceId = true)
    (bus slot function : UInt8) :
    (virtioBuildChildName deviceId bus slot function).toList = "virtio-block@".toList ++
      [hexDigit ((bus >>> 4) &&& 0x0F), hexDigit (bus &&& 0x0F), ':', hexDigit ((slot >>> 4) &&& 0x0F),
        hexDigit (slot &&& 0x0F), '.', hexDigit (function &&& 0x07)] := by
  simp only [virtioIsBlockDeviceId, Bool.or_eq_true, beq_iff_eq] at h
  rcases h with rfl | rfl
  · rw [virtioBuildChildName, String.toList_ofList]
    rfl
  · rw [virtioBuildChildName, String.toList_ofList]
    rfl

theorem place_inj {bus slot function bus' slot' function' : UInt8} (hfunction : function.toNat < 8)
    (hfunction' : function'.toNat < 8)
    (h : [hexDigit ((bus >>> 4) &&& 0x0F), hexDigit (bus &&& 0x0F), ':', hexDigit ((slot >>> 4) &&& 0x0F),
        hexDigit (slot &&& 0x0F), '.', hexDigit (function &&& 0x07)] =
      [hexDigit ((bus' >>> 4) &&& 0x0F), hexDigit (bus' &&& 0x0F), ':', hexDigit ((slot' >>> 4) &&& 0x0F),
        hexDigit (slot' &&& 0x0F), '.', hexDigit (function' &&& 0x07)]) :
    (bus, slot, function) = (bus', slot', function') := by
  refine pciBuildDeviceName_inj hfunction hfunction' ?_
  rw [pciBuildDeviceName, pciBuildDeviceName, h]

theorem disks_names_nodup (outcome : UInt8 × UInt8 × UInt8 → BlkOutcome) :
    ((disks store b).map fun l => (diskRecord store b outcome l).name).Nodup := by
  refine List.Nodup.map_on ?_ (((found_increasing store b).imp fun hlt heq => ?_).filter _)
  · rintro ⟨bus, slot, function⟩ h ⟨bus', slot', function'⟩ h' heq
    obtain ⟨hmem, hdisk⟩ := List.mem_filter.mp h
    obtain ⟨hmem', hdisk'⟩ := List.mem_filter.mp h'
    have hname := congrArg String.toList (Option.some.inj heq)
    rw [diskName (Bool.and_eq_true_iff.mp hdisk).2, diskName (Bool.and_eq_true_iff.mp hdisk').2] at hname
    exact place_inj ((mem_found store b ..).mp hmem).2.1 ((mem_found store b ..).mp hmem').2.1
      (List.append_cancel_left hname)
  · rw [heq] at hlt
    exact lt_irrefl _ hlt

theorem blockLayer_registered (hp : p.registers = kernelRegisters info)
    (outcome : UInt8 × UInt8 × UInt8 → BlkOutcome) :
    blockLayer outcome (registered p b bootRegistry (found p.store b)) =
      ⟨true, (disks p.store b).map (diskRecord p.store b outcome), (disks p.store b).length⟩ := by
  have hrecords : ((probeCalls (registered p b bootRegistry (found p.store b))
      (registered p b bootRegistry (found p.store b)).events).filter (·.1 = .virtioBlk)).map
        (fun call => virtioBlkRecord outcome call.2) =
            (disks p.store b).map (diskRecord p.store b outcome) := by
    rw [registered_calls b info hp, disks, List.filter_map, List.map_map, List.map_map]
    exact List.map_congr_left fun l _ => virtioBlkRecord_logical p.store b info outcome l
  rw [blockLayer,
    ← @List.foldl_map _ _ _ (fun call : Probe × TermobDevice => virtioBlkRecord outcome call.2)
    fun layer r => (blockRegisterDevice layer r).2, hrecords, foldl_blockRegisterDevice _ ?_ _ rfl]
  · simp [blockInit]
  · intro r hr
    obtain ⟨l, -, rfl⟩ := List.mem_map.mp hr
    exact Option.some_ne_none _

end disks

/-- Whatever is on the bus and whatever the registers make of a write: after the inits of the
drivers and `pci_init`, the functions that the headers announce are registered, each once and in the
order of the scan, and bound to the right driver. The block devices are the virtio disks among them,
under different names, and the file system finds them at the same indices. -/
theorem disks_discovered (rounds : Nat) (store : Store) (info : TermobDevice → UInt32)
    (detected : TermobDevice → Bool) (b : Bridge) (outcome : UInt8 × UInt8 × UInt8 → BlkOutcome) :
    ∃ r s, registerDrivers rounds = some r ∧
      pciInit (kernelPlatform store info detected) ⟨b, r, false, 0⟩ = s ∧
      s.pciDeviceCountValue = (found store b).length ∧
      (s.registry.driverDeviceList.filter (·.device.busType = .pci)).map
        (fun node => released node.device) = (found store b).map (describe store b builtinBuses) ∧
      (∀ node ∈ s.registry.driverDeviceList, BoundRight kernelDrivers node) ∧
      (∀ i, blockDeviceAt (blockLayer outcome s.registry) i =
        ((disks store b)[i]?).map (diskRecord store b outcome)) ∧
      (∀ image fails (i : UInt32),
        Fat.blockDeviceAt ((blockLayer outcome s.registry).asDisks image fails) i =
          ((disks store b)[i.toNat]?).map fun l =>
          ⟨512, true, image (diskRecord store b outcome l), fails (diskRecord store b outcome l)⟩) ∧
      ((disks store b).map fun l => (diskRecord store b outcome l).name).Nodup := by
  have hscan := @scanned_pciInit Probe (kernelPlatform store info detected) ⟨b, bootRegistry, false, 0⟩
    (keepsHeaders_kernel info detected) quiet_bootRegistry
  have hat : ∀ i, blockDeviceAt (blockLayer outcome (pciInit (kernelPlatform store info detected)
      ⟨b, bootRegistry, false, 0⟩).registry) i =
        ((disks store b)[i]?).map (diskRecord store b outcome) := by
    intro i
    rw [hscan.registry, blockLayer_registered b info rfl, blockDeviceAt, if_neg Bool.noConfusion,
      ← Nat.zero_add i, blockDeviceAtLoop_eq, Nat.zero_add, List.getElem?_map]
    rfl
  refine ⟨bootRegistry, _, registerDrivers_eq rounds, rfl, hscan.count, ?_, ?_,
    hat, fun image fails i => ?_, disks_names_nodup store b outcome⟩
  · rw [hscan.registry]
    exact registered_pci b info rfl _
  · intro node hnode
    have hdrivers : (pciInit (kernelPlatform store info detected)
        ⟨b, bootRegistry, false, 0⟩).registry.driverDriverList = kernelDrivers := by
      rw [hscan.registry]
      exact (registered_grown b info rfl _).drivers
    exact hdrivers ▸ hscan.quiet.settled node hnode
  · rw [blockDeviceAt_asDisks, hat, Option.map_map]
    rfl

theorem disks_smallBus : disks commandStatus smallBus = [(0, 4, 0)] := by
  have hmem : ∀ l, l ∈ disks commandStatus smallBus ↔ l = (0, 4, 0) := by
    rintro ⟨bus, slot, function⟩
    rw [disks, List.mem_filter, mem_found_smallBus]
    constructor
    · rintro ⟨⟨rfl, rfl | rfl, rfl⟩, hdisk⟩
      · exact absurd hdisk (by decide +kernel)
      · rfl
    · intro heq
      obtain ⟨rfl, rfl, rfl⟩ : bus = 0 ∧ slot = 4 ∧ function = 0 := by simpa using heq
      exact ⟨⟨rfl, Or.inr rfl, rfl⟩, by decide +kernel⟩
  have hnodup : (disks commandStatus smallBus).Nodup := by
    refine List.Pairwise.filter _ ((found_increasing commandStatus smallBus).imp fun hlt heq => ?_)
    rw [heq] at hlt
    exact lt_irrefl _ hlt
  refine List.perm_singleton.mp
    ((List.perm_ext_iff_of_nodup hnodup (List.nodup_singleton _)).mpr fun l => ?_)
  rw [hmem, List.mem_singleton]

/-- One disk in slot 4, behind a bridge that no driver takes. -/
theorem disks_discovered_small :
    ∃ r s, registerDrivers 0 = some r ∧
      pciInit (kernelPlatform commandStatus (fun _ => 0x200000) fun _ => false)
        ⟨smallBus, r, false, 0⟩ = s ∧
      ∀ i, blockDeviceAt (blockLayer (fun _ => ⟨2048, 0x201000⟩) s.registry) i =
        if i = 0 then some ⟨some "virtio-block@00:04.0", some "virtio-blk", 512, 2048, 0x201000⟩
        else none := by
  obtain ⟨r, s, hr, hs, _, _, _, hat, _⟩ := disks_discovered 0 commandStatus (fun _ => 0x200000)
    (fun _ => false) smallBus fun _ => ⟨2048, 0x201000⟩
  refine ⟨r, s, hr, hs, fun i => ?_⟩
  rw [hat, disks_smallBus]
  have hrecord : diskRecord commandStatus smallBus (fun _ => ⟨2048, 0x201000⟩) (0, 4, 0) =
      ⟨some "virtio-block@00:04.0", some "virtio-blk", 512, 2048, 0x201000⟩ := by decide +kernel
  cases i with
  | zero => exact congrArg some hrecord
  | succ i => rfl

end TermobKernel.Pci

import Mathlib.Tactic

/-!
# The driver model

`core/driver.c`: devices and drivers are kept in the order in which they were registered, and each
registration tries to bind. A probe may register further devices while the loop that called it goes on; what
a probe registers for a device is part of the registration of the device, so that a registration is a finite
tree. A pointer to a node is its position in its list. `kmalloc` always succeeds.

The loop of `driver_register_driver` runs along a list that grows meanwhile. It gets a number of rounds, and
`none` means that it has not come to the end of the list yet.
-/

namespace TermobKernel.Driver

inductive BusType where
  | none
  | pci
  | virtio
  deriving DecidableEq, Repr

structure Bus where
  name : Option String
  type : BusType
  deriving DecidableEq, Repr

/-- `termob_device_t`. `none` is a null pointer. -/
structure TermobDevice where
  name : Option String
  busType : BusType
  busRef : Option Nat
  driver : Option Nat
  boundDriverName : Option String
  driverData : UInt32
  data : UInt32
  vendorId : UInt16
  deviceId : UInt16
  classCode : UInt8
  subclass : UInt8
  progIf : UInt8
  revision : UInt8
  bus : UInt8
  slot : UInt8
  function : UInt8
  deriving DecidableEq, Repr

/-- `termob_driver_t`; `π` is the type of the probe callbacks. -/
structure TermobDriver (π : Type) where
  name : Option String
  busType : BusType
  matchDevice : Option (TermobDevice → Bool)
  probe : Option π

/-- A device that is registered, and the devices that a probe registers in turn when it is called for it. -/
inductive Registration (π : Type) where
  | mk (device : TermobDevice) (registers : π → List (Registration π))

structure DeviceNode (π : Type) where
  device : TermobDevice
  registers : π → List (Registration π)

/-- What happens to a device. -/
inductive Event where
  | bound (device driver : Nat)
  | probed (device driver : Nat)
  deriving DecidableEq, Repr

/-- The static variables of the file, the lines sent to the kernel log, and the bindings and calls
of probes so far. -/
structure State (π : Type) where
  driverModelReady : Bool
  driverBusList : List Bus
  driverDeviceList : List (DeviceNode π)
  driverDriverList : List (TermobDriver π)
  driverBusCountValue : Nat
  driverDeviceCountValue : Nat
  driverDriverCountValue : Nat
  driverBoundCountValue : Nat
  log : List String
  events : List Event

variable {π : Type}

/-! ## Buses -/

/-- `driver_bus_by_type`, the position of the first bus of the type. -/
def driverBusByType (buses : List Bus) (busType : BusType) : Option Nat := buses.findIdx? (·.type = busType)

def driverRegisterBus (s : State π) (bus : Bus) : Bool × State π :=
  if s.driverModelReady = false ∨ bus.name = none then (false, s)
  else if (driverBusByType s.driverBusList bus.type).isSome then (true, s)
  else
    (true, { s with
      driverBusList := s.driverBusList ++ [bus], driverBusCountValue := s.driverBusCountValue + 1 })

def driverRegisterBuiltinBuses (s : State π) : Bool × State π :=
  let r := driverRegisterBus s ⟨some "PCI", .pci⟩
  if r.1 = false then (false, r.2) else driverRegisterBus r.2 ⟨some "VIRTIO", .virtio⟩

def driverModelReset (ready : Bool) : State π := ⟨ready, [], [], [], 0, 0, 0, 0, [], []⟩

def driverModelInit (heapInitialized : Bool) : State π :=
  if heapInitialized = false then driverModelReset false
  else
    let r := driverRegisterBuiltinBuses (driverModelReset true)
    { r.2 with driverModelReady := r.1 }

/-! ## Binding -/

def hexDigits : List Char := "0123456789ABCDEF".toList

def hexDigit (value : UInt8) : Char := hexDigits.getD value.toNat '0'

def driverLogHex8 (value : UInt8) : List Char :=
  [hexDigit ((value >>> 4) &&& 0x0F), hexDigit (value &&& 0x0F)]

/-- `driver_log_bound`: the line is cut at the size of its buffer. -/
def driverLogBound (driver : TermobDriver π) (device : TermobDevice) : String :=
  let target :=
    match device.name with
    | some name => name.toList
    | none =>
      if device.busType = .pci then
        "pci-".toList ++ driverLogHex8 device.bus ++ [':'] ++ driverLogHex8 device.slot ++ ['.'] ++
          driverLogHex8 device.function
      else "unnamed-device".toList
  String.ofList (("[DRIVER] bound ".toList ++ (driver.name.getD "").toList ++ " -> ".toList ++
    target).take 127)

def driverDeviceMatches (driver : TermobDriver π) (device : TermobDevice) : Bool :=
  if driver.busType ≠ device.busType then false
  else
    match driver.matchDevice with
    | some matchDevice => matchDevice device
    | none => true

/-- The writes of `driver_try_bind` before the probe. -/
def driverBind (s : State π) (i k : Nat) (node : DeviceNode π) (driver : TermobDriver π) : State π :=
  let device := { node.device with driver := some k, boundDriverName := driver.name }
  { s with
    driverDeviceList := s.driverDeviceList.set i { node with device }
    driverBoundCountValue := s.driverBoundCountValue + 1
    log := s.log ++ [driverLogBound driver device]
    events := s.events ++ [.bound i k] }

/-- `driver_try_bind` for the device at `i` and the driver at `k`, with what the probes do for this
device. -/
def driverTryBind (probe : π → State π → State π) (s : State π) (i k : Nat) : State π :=
  match s.driverDeviceList[i]?, s.driverDriverList[k]? with
  | some node, some driver =>
    if node.device.driver ≠ none then s
    else if driverDeviceMatches driver node.device = false then s
    else
      let s := driverBind s i k node driver
      match driver.probe with
      | some callback => probe callback { s with events := s.events ++ [.probed i k] }
      | none => s
  | _, _ => s

/-! ## Registration -/

def driverStoredDevice (buses : List Bus) (device : TermobDevice) : TermobDevice :=
  { device with
    driver := none
    boundDriverName := none
    busRef := if device.busRef = none then driverBusByType buses device.busType else device.busRef }

def driverAppendDevice (s : State π) (device : TermobDevice)
    (registers : π → List (Registration π)) : State π :=
  { s with
    driverDeviceList := s.driverDeviceList ++ [⟨driverStoredDevice s.driverBusList device, registers⟩]
    driverDeviceCountValue := s.driverDeviceCountValue + 1 }

/-- The loop of `driver_register_device` over `rounds` drivers from `k` on. -/
def driverDriverLoop (probe : π → State π → State π) (i : Nat) : Nat → Nat → State π → State π
  | 0, _, s => s
  | rounds + 1, k, s => driverDriverLoop probe i rounds (k + 1) (driverTryBind probe s i k)

mutual

def driverRegisterDevice : Registration π → State π → Bool × State π
  | .mk device registers, s =>
    if s.driverModelReady = false ∨ device.name = none then (false, s)
    else
      (true, driverDriverLoop (fun callback s => driverRegisterDevices (registers callback) s)
        s.driverDeviceList.length s.driverDriverList.length 0 (driverAppendDevice s device registers))

def driverRegisterDevices : List (Registration π) → State π → State π
  | [], s => s
  | r :: rs, s => driverRegisterDevices rs (driverRegisterDevice r s).2

end

def driverProbe (s : State π) (i : Nat) (callback : π) (t : State π) : State π :=
  match s.driverDeviceList[i]? with
  | some node => driverRegisterDevices (node.registers callback) t
  | none => t

/-- The loop of `driver_register_driver` for the driver at `k`, over the devices from `i` on. -/
def driverDeviceLoop (k : Nat) : Nat → Nat → State π → Option (State π)
  | 0, i, s => if i < s.driverDeviceList.length then none else some s
  | rounds + 1, i, s =>
    if i < s.driverDeviceList.length then
      driverDeviceLoop k rounds (i + 1) (driverTryBind (driverProbe s i) s i k)
    else some s

def driverAppendDriver (s : State π) (driver : TermobDriver π) : State π :=
  { s with
    driverDriverList := s.driverDriverList ++ [driver]
    driverDriverCountValue := s.driverDriverCountValue + 1 }

def driverRegisterDriver (rounds : Nat) (s : State π) (driver : TermobDriver π) : Option (Bool × State π) :=
  if s.driverModelReady = false ∨ driver.name = none then some (false, s)
  else (driverDeviceLoop s.driverDriverList.length rounds 0 (driverAppendDriver s driver)).map (true, ·)

/-! ## Virtio

`drivers/virtio.c`: the probe of the PCI transport registers a device on the virtio bus, which the block
driver takes. -/

def virtioPciVendorId : UInt16 := 0x1AF4

def virtioIsSupportedDeviceId (deviceId : UInt16) : Bool :=
  0x1000 ≤ deviceId && deviceId ≤ 0x103F || 0x1040 ≤ deviceId && deviceId ≤ 0x107F

def virtioIsBlockDeviceId (deviceId : UInt16) : Bool := deviceId == 0x1001 || deviceId == 0x1042

def virtioPciMatch (device : TermobDevice) : Bool :=
  device.busType == .pci && device.vendorId == virtioPciVendorId && virtioIsSupportedDeviceId
    device.deviceId

def virtioLogicalMatch (device : TermobDevice) : Bool :=
  device.busType == .virtio && device.vendorId == virtioPciVendorId && virtioIsSupportedDeviceId
    device.deviceId

def virtioBlkMatch (device : TermobDevice) : Bool :=
  virtioLogicalMatch device && virtioIsBlockDeviceId device.deviceId

def virtioDeviceTypeName (deviceId : UInt16) : String :=
  match deviceId with
  | 0x1000 | 0x1041 => "virtio-net"
  | 0x1001 | 0x1042 => "virtio-block"
  | 0x1043 => "virtio-console"
  | 0x1044 => "virtio-rng"
  | 0x1045 => "virtio-balloon"
  | 0x1048 => "virtio-scsi"
  | 0x1049 => "virtio-9p"
  | 0x1050 => "virtio-gpu"
  | 0x1052 => "virtio-input"
  | 0x1053 => "virtio-vsock"
  | _ =>
    if 0x1000 ≤ deviceId ∧ deviceId ≤ 0x103F then "virtio-legacy"
    else if 0x1040 ≤ deviceId ∧ deviceId ≤ 0x107F then "virtio-pci"
    else "not-virtio"

def virtioBuildChildName (deviceId : UInt16) (bus slot function : UInt8) : String :=
  String.ofList ((virtioDeviceTypeName deviceId).toList ++ ['@'] ++ driverLogHex8 bus ++ [':'] ++
    driverLogHex8 slot ++ ['.', hexDigit (function &&& 0x07)])

/-- The record that `virtio_register_logical_device` registers, with the address of its `info`. -/
def virtioLogicalDevice (buses : List Bus) (info : UInt32) (pciDevice : TermobDevice) : TermobDevice :=
  { pciDevice with
    name := some (virtioBuildChildName pciDevice.deviceId pciDevice.bus pciDevice.slot pciDevice.function)
    busType := .virtio
    busRef := driverBusByType buses .virtio
    driver := none
    boundDriverName := none
    driverData := 0
    data := info }

inductive VirtioProbe where
  | virtioPciProbe
  | virtioBlkProbe
  deriving DecidableEq, Repr

def virtioPciDriver : TermobDriver VirtioProbe :=
  ⟨some "virtio-pci", .pci, some virtioPciMatch, some .virtioPciProbe⟩

def virtioBlkDriver : TermobDriver VirtioProbe :=
  ⟨some "virtio-blk", .virtio, some virtioBlkMatch, some .virtioBlkProbe⟩

/-- A PCI device whose probe registers the logical device. The probe of the block driver registers
no device. -/
def virtioRegistration (buses : List Bus) (info : UInt32) (device : TermobDevice) :
    Registration VirtioProbe :=
  .mk device fun
    | .virtioPciProbe => [.mk (virtioLogicalDevice buses info device) fun _ => []]
    | .virtioBlkProbe => []

end TermobKernel.Driver

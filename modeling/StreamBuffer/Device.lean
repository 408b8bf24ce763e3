import StreamBuffer.Memory.Segment
import StreamBuffer.Text.Quoted

/-!
# Devices

A device keeps bytes in allocations of its own, which are reached by address and only through its
copies. Every copy checks its ranges: a range has to lie inside one live allocation. A device can
be made to fail all transfers, and not every device can move bytes between ranges that overlap.
-/

namespace StreamBuffer

structure Device.Allocation where
  address : Nat
  bytes : Bytes

def Device.Allocation.covers (allocation : Device.Allocation) (address length : Nat) : Bool :=
  allocation.address ≤ address &&
    address + length ≤ allocation.address + allocation.bytes.size

def Device.firstAddress : Nat := 0x555500000000

/-- The unused addresses between two allocations. -/
def Device.gap : Nat := 1 <<< 36

structure Device where
  name : String
  /-- Whether the engine of the device moves between ranges that overlap. -/
  moves : Bool := false
  /-- Whether no more than the copies of the engine is offered. -/
  copiesOnly : Bool := false
  /-- The answer to every request for memory, if the device has none to give. -/
  refusal : Option Error := none
  /-- Whether every transfer fails. -/
  faulty : Bool := false
  allocations : List Device.Allocation := []
  /-- Where the next allocation goes; no address is used twice. -/
  nextAddress : Nat := Device.firstAddress
  bytesToDevice : Nat := 0
  bytesToHost : Nat := 0

namespace Device

instance : Inhabited Device := ⟨{ name := "" }⟩

def supportsMove (device : Device) : Bool := device.moves && !device.copiesOnly

/-! ## Memory -/

def allocate (device : Device) (size : Nat) : Attempt (Nat × Device) := do
  if let some error := device.refusal then refuse error
  let segment ← Segment.allocateHeap size
  let address := device.nextAddress
  return (address, { device with
    allocations := device.allocations ++ [⟨address, segment.bytes⟩]
    nextAddress := address + size + gap })

def isAllocated (device : Device) (address : Nat) : Bool :=
  device.allocations.any (·.address == address)

def free (device : Device) (address : Nat) : Device :=
  { device with allocations := device.allocations.filter (·.address != address) }

def read (device : Device) (address length : Nat) : Bytes :=
  match device.allocations.find? (·.covers address length) with
  | some allocation => allocation.bytes.slice (address - allocation.address) length
  | none => #[]

def write (device : Device) (address : Nat) (data : Bytes) : Device :=
  { device with allocations := device.allocations.map fun allocation =>
      if allocation.covers address data.size then
        { allocation with bytes := allocation.bytes.splice (address - allocation.address) data }
      else allocation }

/-! ## Transfers -/

/-- Refuses the transfer while the device fails. -/
def checkFault (device : Device) (transfer : Transfer) : Attempt Unit := do
  if device.faulty then refuse (.injectedFault transfer device.name)

/-- Refuses a range that is not inside one allocation. The end of a range is looked at only if an
allocation begins at or before the range. -/
def checkRange (device : Device) (address length : Nat) : Attempt Unit := do
  if device.allocations.any (·.address ≤ address) then
    discard (Word.add address length)
  unless device.allocations.any (·.covers address length) do
    refuse (.outsideAllocations address length device.name)

def copyIn (device : Device) (address : Nat) (data : Bytes) : Attempt Device := do
  device.checkFault .hostToDevice
  device.checkRange address data.size
  let device := device.write address data
  return { device with bytesToDevice := device.bytesToDevice + data.size }

def copyOut (device : Device) (address length : Nat) : Attempt (Bytes × Device) := do
  device.checkFault .deviceToHost
  device.checkRange address length
  return (device.read address length, { device with bytesToHost := device.bytesToHost + length })

/-- Copies between two ranges of the device. The caller sees to it that they do not overlap. -/
def copy (device : Device) (target source length : Nat) : Attempt Device := do
  device.checkFault .deviceToDevice
  device.checkRange target length
  device.checkRange source length
  return device.write target (device.read source length)

/-- Moves between two ranges of the device that may overlap. -/
def move (device : Device) (target source length : Nat) : Attempt Device := do
  unless device.supportsMove do refuse (.moveNotImplemented length device.name)
  device.checkFault .move
  device.checkRange target length
  device.checkRange source length
  return device.write target (device.read source length)

/-! ## Text -/

/-- The device as its users see it, field by field. -/
def text (device : Device) : String :=
  Text.record "DeviceMemory"
    [("name", Text.quoted device.name), ("supports_move", toString device.supportsMove)]

/-- The device as its maker sees it, field by field. -/
def engineText (device : Device) : String :=
  Text.record "EmulatedDevice"
    [("name", Text.quoted device.name), ("allocations", toString device.allocations.length),
     ("move_supported", toString device.moves)]

end Device

abbrev Devices := List Device

namespace Devices

/-- The device of this number. A number without a device stands for one without memory. -/
def get (devices : Devices) (number : Nat) : Device := devices[number]?.getD default

end Devices

end StreamBuffer

import StreamBuffer.Device

/-!
# Regions

A region is a contiguous run of bytes on one side: a segment of host memory, or a run of device
memory whose bytes are with its device. Bytes are copied and moved inside a region after both
ranges were checked, and a refused copy or move changes nothing.
-/

namespace StreamBuffer

structure DeviceRun where
  device : Nat
  address : Nat
  length : Nat
deriving DecidableEq, Repr

inductive Region where
  | host (segment : Segment)
  | device (run : DeviceRun)

namespace DeviceRun

def allocate (devices : Devices) (device size : Nat) : Attempt (DeviceRun × Devices) := do
  let (address, changed) ← (devices.get device).allocate size
  return (⟨device, address, size⟩, devices.set device changed)

def bytes (run : DeviceRun) (devices : Devices) : Bytes :=
  (devices.get run.device).read run.address run.length

end DeviceRun

namespace Region

instance : Inhabited Region := ⟨.host ⟨.heap, #[]⟩⟩

def domain : Region → Domain
  | host _ => .host
  | device _ => .device

def size : Region → Nat
  | host segment => segment.size
  | device run => run.length

def isEmpty (region : Region) : Bool := region.size == 0

def bytes (region : Region) (devices : Devices) : Bytes :=
  match region with
  | host segment => segment.bytes
  | device run => run.bytes devices

/-- Overwrites bytes from an offset on, as the one whose memory it is. -/
def store (region : Region) (devices : Devices) (offset : Nat) (data : Bytes) : Region × Devices :=
  match region with
  | host segment => (.host { segment with bytes := segment.bytes.splice offset data }, devices)
  | device run =>
    (region, devices.set run.device ((devices.get run.device).write (run.address + offset) data))

/-- Refuses a range that leaves the region. -/
def checkRange (region : Region) (access : Access) (offset length : Nat) : Attempt Unit := do
  unless offset + length ≤ region.size do
    refuse (.rangeExceedsRegion access offset length region.domain region.size)

/-- Copies between two ranges of the region, which must not overlap. -/
def copyWithin (region : Region) (devices : Devices) (target source length : Nat) :
    Attempt (Region × Devices) := do
  if length = 0 then return (region, devices)
  region.checkRange .copySource source length
  region.checkRange .copyDestination target length
  if source < (← Word.add target length) then
    if target < (← Word.add source length) then
      refuse (.rangesOverlap source target length)
  match region with
  | host segment =>
    return (.host { segment with
      bytes := segment.bytes.splice target (segment.bytes.slice source length) }, devices)
  | device run =>
    let targetAddress ← Word.add run.address target
    let sourceAddress ← Word.add run.address source
    let changed ← (devices.get run.device).copy targetAddress sourceAddress length
    return (region, devices.set run.device changed)

/-- Moves between two ranges of the region, which may overlap. -/
def moveWithin (region : Region) (devices : Devices) (target source length : Nat) :
    Attempt (Region × Devices) := do
  if length = 0 ∨ target = source then return (region, devices)
  region.checkRange .moveSource source length
  region.checkRange .moveDestination target length
  match region with
  | host segment =>
    return (.host { segment with
      bytes := segment.bytes.splice target (segment.bytes.slice source length) }, devices)
  | device run =>
    let targetAddress ← Word.add run.address target
    let sourceAddress ← Word.add run.address source
    let changed ← (devices.get run.device).move targetAddress sourceAddress length
    return (region, devices.set run.device changed)

def text (region : Region) (devices : Devices) : String :=
  match region with
  | host segment =>
    Text.record "Region::Host"
      [("len", toString segment.size), ("memory_type", segment.kind.typeName)]
  | device run =>
    Text.record "Region::Device"
      [("device", Text.quoted (devices.get run.device).name), ("len", toString run.length)]

end Region

end StreamBuffer

import StreamBuffer.Platform.Basic

/-!
# Devices, regions and storages

Memory outside buffers. A region that goes into a storage is no longer a region of its own; if the
storage cannot be made of it, it is released.
-/

namespace StreamBuffer.Platform

/-! ## Devices -/

def addDevice (device : Device) : Action Platform Nat := do
  let number := (← get).machine.devices.length
  modify fun platform =>
    { platform with machine.devices := platform.machine.devices ++ [device] }
  return number

def setFaulty (number : Nat) (faulty : Bool) : Action Platform Unit :=
  modify fun platform =>
    let devices := platform.machine.devices
    { platform with machine.devices := devices.set number { devices.get number with faulty } }

/-- Allocates memory on a device directly. Gives the number of the allocation. -/
def allocateOn (number bytes : Nat) : Action Platform Nat := do
  let run ← onDevices (DeviceRun.allocate · number bytes)
  let slot := (← get).allocations.next
  modify fun platform => { platform with allocations := platform.allocations.push run }
  return slot

/-- Gives back a direct allocation. Its number stays in use. -/
def freeAllocation (slot : Nat) : Action Platform (Option Unit) :=
  onSlot (·.allocations) slot fun run =>
    modify fun platform =>
      { platform with machine := platform.machine.free run.device run.address }

def copyIn (slot offset : Nat) (data : Bytes) : Action Platform (Option Unit) :=
  onSlot (·.allocations) slot fun run => do
    let address ← Word.add run.address offset
    onDevices fun devices => do
      let device ← (devices.get run.device).copyIn address data
      return ((), devices.set run.device device)

def copyOut (slot offset length : Nat) : Action Platform (Option Bytes) :=
  onSlot (·.allocations) slot fun run => do
    let address ← Word.add run.address offset
    onDevices fun devices => do
      let (data, device) ← (devices.get run.device).copyOut address length
      return (data, devices.set run.device device)

/-- Copies or moves inside a direct allocation. -/
def shift (slot : Nat) (overlapping : Bool) (target source length : Nat) :
    Action Platform (Option Unit) :=
  onSlot (·.allocations) slot fun run => do
    let targetAddress ← Word.add run.address target
    let sourceAddress ← Word.add run.address source
    onDevices fun devices => do
      let device := devices.get run.device
      let device ←
        if overlapping then device.move targetAddress sourceAddress length
        else device.copy targetAddress sourceAddress length
      return ((), devices.set run.device device)

/-! ## Regions -/

def addRegion (region : Region) : Action Platform Nat := do
  let slot := (← get).regions.next
  modify fun platform => { platform with regions := platform.regions.push region }
  return slot

def allocateHostRegion (kind : Segment.Kind) (bytes : Nat) : Action Platform Nat := do
  addRegion (.host (← Segment.allocate (← get).machine.paging kind bytes))

def allocateDeviceRegion (number bytes : Nat) : Action Platform Nat := do
  addRegion (.device (← onDevices (DeviceRun.allocate · number bytes)))

def changeRegion (slot : Nat) (change : Region → Devices → Attempt (Region × Devices)) :
    Action Platform (Option Unit) :=
  onSlot (·.regions) slot fun region => do
    let region ← onDevices (change region)
    modify fun platform => { platform with regions := platform.regions.set slot region }

def storeRegion (slot offset : Nat) (data : Bytes) : Action Platform (Option Unit) :=
  changeRegion slot fun region devices => return region.store devices offset data

def shiftRegion (slot : Nat) (overlapping : Bool) (target source length : Nat) :
    Action Platform (Option Unit) :=
  changeRegion slot fun region devices =>
    if overlapping then region.moveWithin devices target source length
    else region.copyWithin devices target source length

def release (region : Region) : Action Platform Unit :=
  modify fun platform => { platform with machine := platform.machine.release region }

def takeRegion (slot : Nat) : Action Platform (Option Region) := do
  let region := (← get).regions.get? slot
  modify fun platform => { platform with regions := platform.regions.remove slot }
  return region

def dropRegion (slot : Nat) : Action Platform (Option Unit) := do
  match ← takeRegion slot with
  | none => return none
  | some region => some <$> release region

/-! ## Storages -/

def addStorage (storage : Storage) : Action Platform Nat := do
  let slot := (← get).storages.next
  modify fun platform => { platform with storages := platform.storages.push storage }
  return slot

/-- Adds a storage made of regions, which are released if it cannot be made. -/
def storeOrRelease (storage : Attempt Storage) (regions : List Region) : Action Platform Nat := do
  match storage with
  | .ok storage => addStorage storage
  | .error stop =>
    regions.forM release
    throw stop

/-- Makes a storage of one region. There is none if the region is missing. -/
def storageOfRegion (context : Context) (slot : Nat) : Action Platform (Option Nat) := do
  match ← takeRegion slot with
  | none => return none
  | some region => some <$> storeOrRelease (Storage.ofRegion context region) [region]

/-- Makes a storage of two regions. The host region is taken first, and released if there is no
device region. -/
def storageOfPair (context : Context) (host device : Nat) : Action Platform (Option Nat) := do
  match ← takeRegion host with
  | none => return none
  | some hostRegion =>
    match ← takeRegion device with
    | none =>
      release hostRegion
      return none
    | some deviceRegion =>
      some <$> storeOrRelease (Storage.ofPair context hostRegion deviceRegion)
        [hostRegion, deviceRegion]

def allocateStorage (backend : Backend) (context : Context) (bytes : Nat) :
    Action Platform Nat := do
  addStorage (← onMachine (backend.allocate context bytes))

def storeStorage (slot offset : Nat) (data : Bytes) : Action Platform (Option Unit) :=
  onSlot (·.storages) slot fun storage => do
    let storage ← onDevices fun devices => return storage.store devices offset data
    modify fun platform => { platform with storages := platform.storages.set slot storage }

/-- Makes freshly written bytes of a storage readable. -/
def publish (slot offset length : Nat) : Action Platform (Option Unit) :=
  onSlot (·.storages) slot fun storage => do
    let storage ← onMachine (storage.publish offset length)
    modify fun platform => { platform with storages := platform.storages.set slot storage }

def dropStorage (slot : Nat) : Action Platform (Option Unit) :=
  onSlot (·.storages) slot fun storage =>
    modify fun platform => { platform with
      storages := platform.storages.remove slot
      machine := storage.release platform.machine }

end StreamBuffer.Platform

import StreamBuffer.Machine

/-!
# Storage

The storage of a buffer is laid out for its context: one region where producer and consumers are
in the same domain, a host segment and a run of device memory of equal size where they are not.
With a pair, what was written becomes readable by a transfer.
-/

namespace StreamBuffer

inductive Storage.Layout where
  | single (region : Region)
  | split (host : Segment) (device : DeviceRun)

structure Storage where
  context : Context
  layout : Storage.Layout

namespace Storage

instance : Inhabited Storage := ⟨⟨.hostToHost, .single default⟩⟩

def ofRegion (context : Context) (region : Region) : Attempt Storage := do
  if context.crosses || region.domain != context.readDomain then
    refuse (.regionDoesNotServe region.domain context)
  return ⟨context, .single region⟩

/-- Storage made of a host and a device region of equal size. -/
def ofPair (context : Context) (host device : Region) : Attempt Storage := do
  unless context.crosses do refuse (.pairNotNeeded context)
  match host, device with
  | .host segment, .device run =>
    if segment.size ≠ run.length then refuse (.sizesDiffer segment.size run.length)
    return ⟨context, .split segment run⟩
  | _, _ => refuse .notHostAndDevice

/-- The region of a domain; a single region serves both. -/
def region (storage : Storage) (domain : Domain) : Region :=
  match storage.layout, domain with
  | .single region, _ => region
  | .split host _, .host => .host host
  | .split _ device, .device => .device device

/-- The region the producer writes. -/
def writeRegion (storage : Storage) : Region := storage.region storage.context.writeDomain

/-- The region the consumers read. -/
def readRegion (storage : Storage) : Region := storage.region storage.context.readDomain

def withRegion (storage : Storage) (domain : Domain) (region : Region) : Storage :=
  match storage.layout, domain, region with
  | .single _, _, region => { storage with layout := .single region }
  | .split _ device, .host, .host segment => { storage with layout := .split segment device }
  | .split host _, .device, .device run => { storage with layout := .split host run }
  | .split .., .host, .device _ | .split .., .device, .host _ => storage

def size (storage : Storage) : Nat := storage.writeRegion.size

def isEmpty (storage : Storage) : Bool := storage.size == 0

/-- Whether what is written can be read at once. -/
def isShared (storage : Storage) : Bool :=
  match storage.layout with
  | .single _ => true
  | .split .. => false

/-- Writes bytes as the producer does. -/
def store (storage : Storage) (devices : Devices) (offset : Nat) (data : Bytes) :
    Storage × Devices :=
  let (region, devices) := storage.writeRegion.store devices offset data
  (storage.withRegion storage.context.writeDomain region, devices)

/-! ## Transfer after production -/

/-- Copies a range of a segment to the same range of a run of device memory. -/
def sendToDevice (host : Segment) (run : DeviceRun) (devices : Devices) (offset length : Nat) :
    Attempt Devices := do
  (Region.host host).checkRange .transferSource offset length
  (Region.device run).checkRange .transferDestination offset length
  let address ← Word.add run.address offset
  let changed ← (devices.get run.device).copyIn address (host.bytes.slice offset length)
  return devices.set run.device changed

/-- Copies a range of a run of device memory to the same range of a segment. -/
def fetchFromDevice (host : Segment) (run : DeviceRun) (devices : Devices) (offset length : Nat) :
    Attempt (Segment × Devices) := do
  (Region.device run).checkRange .transferSource offset length
  (Region.host host).checkRange .transferDestination offset length
  let address ← Word.add run.address offset
  let (data, changed) ← (devices.get run.device).copyOut address length
  return ({ host with bytes := host.bytes.splice offset data }, devices.set run.device changed)

/-- Copies freshly written bytes to where they are read. -/
def transfer (storage : Storage) (devices : Devices) (offset length : Nat) :
    Attempt (Storage × Devices) := do
  match storage.layout, storage.context.writeDomain with
  | .single _, _ => return (storage, devices)
  | .split host run, .host => return (storage, ← sendToDevice host run devices offset length)
  | .split host run, .device =>
    let (host, devices) ← fetchFromDevice host run devices offset length
    return ({ storage with layout := .split host run }, devices)

/-- Makes freshly written bytes readable. A transfer that was made is counted, one that was
refused is reported; no transfer is needed for no bytes or one region. -/
def publish (storage : Storage) (offset length : Nat) : Action Machine Storage := do
  if storage.isShared || length == 0 then return storage
  let machine ← get
  match storage.transfer machine.devices offset length with
  | .ok (storage, devices) =>
    set { machine with
      devices, journal := machine.journal.countTransfer storage.context length : Machine }
    return storage
  | .error (.error error) =>
    set (machine.log none (.transferFailed storage.context offset length error))
    refuse error
  | .error stop => throw stop

/-- Releases the regions, the host side first. -/
def release (storage : Storage) (machine : Machine) : Machine :=
  match storage.layout with
  | .single region => machine.release region
  | .split _ device => machine.release (.device device)

def text (storage : Storage) (devices : Devices) : String :=
  let regions :=
    match storage.layout with
    | .single region => [("region", region.text devices)]
    | .split host device =>
      [("host", (Region.host host).text devices), ("device", (Region.device device).text devices)]
  Text.record "Storage" (("context", storage.context.typeName) :: regions)

end Storage

end StreamBuffer

import StreamBuffer.Storage

/-!
# Backends

A backend provides storage for a context. Host backends serve buffers that stay on the host; a
device backend serves every context, with pinned memory on the host side of a pair.
-/

namespace StreamBuffer

inductive Backend where
  | heap
  | pinned
  | device (number : Nat)
deriving DecidableEq, Repr

/-- An attempt whose refusal is given another cause. -/
def Attempt.wrap {α : Type} (attempt : Attempt α) (cause : Error → Error) : Attempt α :=
  match attempt with
  | .error (.error error) => .error (.error (cause error))
  | other => other

namespace Backend

def name (backend : Backend) (devices : Devices) : String :=
  match backend with
  | heap => "host"
  | pinned => "pinned_host"
  | device number => (devices.get number).name

def supports (backend : Backend) (context : Context) : Bool :=
  match backend with
  | heap | pinned => context == .hostToHost
  | device _ => true

/-- Refuses a size that pinned memory for a buffer cannot have. -/
def checkPinned (paging : Paging) (bytes : Nat) : Attempt Unit :=
  (Segment.checkPinned paging bytes).wrap (.pinnedRegionFailed bytes)

def hostSegment (paging : Paging) (kind : Segment.Kind) (bytes : Nat) : Attempt Segment := do
  match kind with
  | .heap => Segment.allocateHeap bytes
  | .pinned =>
    checkPinned paging bytes
    return .zeroed .pinned bytes

def deviceRun (devices : Devices) (number bytes : Nat) : Attempt (DeviceRun × Devices) :=
  (DeviceRun.allocate devices number bytes).wrap fun error =>
    if error.kind = .allocationFailed then error
    else .deviceRegionFailed (devices.get number).name bytes error

/-- Storage of a host backend. The context is looked at before any memory is asked for. -/
def allocateHost (backend : Backend) (kind : Segment.Kind) (paging : Paging) (devices : Devices)
    (context : Context) (bytes : Nat) : Attempt Storage := do
  unless backend.supports context do
    refuse (.contextNotServed (backend.name devices) context)
  let segment ← hostSegment paging kind bytes
  Storage.ofRegion context (.host segment)

def allocateDevice (paging : Paging) (devices : Devices) (number : Nat) (context : Context)
    (bytes : Nat) : Attempt (Storage × Devices) := do
  match context with
  | .hostToHost =>
    let segment ← Segment.allocateHeap bytes
    return (← Storage.ofRegion context (.host segment), devices)
  | .deviceToDevice =>
    let (run, devices) ← deviceRun devices number bytes
    return (← Storage.ofRegion context (.device run), devices)
  | .hostToDevice | .deviceToHost =>
    checkPinned paging bytes
    let (run, devices) ← deviceRun devices number bytes
    return (← Storage.ofPair context (.host (.zeroed .pinned bytes)) (.device run), devices)

/-- Zeroed storage of a size in bytes, laid out for a context. -/
def allocate (backend : Backend) (context : Context) (bytes : Nat) : Action Machine Storage := do
  let machine ← get
  match backend with
  | heap => allocateHost backend .heap machine.paging machine.devices context bytes
  | pinned => allocateHost backend .pinned machine.paging machine.devices context bytes
  | device number =>
    let (storage, devices) ← allocateDevice machine.paging machine.devices number context bytes
    set ({ machine with devices } |>.log none
      (.deviceStorageAllocated (backend.name devices) context bytes))
    return storage

end Backend

end StreamBuffer

import StreamBuffer.Buffer.Blocking
import StreamBuffer.Platform.Table
import StreamBuffer.Registry

/-!
# The platform

All that lives at one time: devices and their memory, regions and storages, buffers and their
readers, types, factories and registries, each by number.

A buffer lives as long as its handle or one of its readers does. It is released, once, when the
last of them goes.
-/

namespace StreamBuffer

/-- A buffer that is not released. -/
structure LiveBuffer where
  buffer : Buffer
  /-- Whether the handle given out for the buffer is still held. -/
  held : Bool

/-- A reader that is not dropped: which buffer it reads, and its identity there. -/
structure ReaderHandle where
  buffer : Nat
  id : Nat
deriving DecidableEq, Repr

/-- The factories of the registry that all share. -/
def Factory.shared : List Factory :=
  [⟨0, .allocate .heap .single⟩, ⟨1, .allocate .pinned .single⟩]

/-- The registry that all share, as it is when it is first asked for. It holds the types of the
host. -/
def Registry.shared : Registry :=
  ⟨[BufferType.host, BufferType.pinnedHost].zip Factory.shared⟩

structure Platform where
  machine : Machine := {}
  /-- Pieces of device memory that no region owns. -/
  allocations : Table DeviceRun := {}
  regions : Table Region := {}
  storages : Table Storage := {}
  buffers : Table LiveBuffer := {}
  readers : Table ReaderHandle := {}
  types : Table BufferType := {}
  factories : Table Factory := {}
  registries : Table Registry := {}
  /-- The number of the registry that all share, once it was asked for. -/
  sharedRegistry : Option Nat := none
  nextBuffer : Nat := 0
  nextOrdinal : Nat := BufferType.firstFresh
  nextFactory : Nat := Factory.shared.length

namespace Platform

instance : Inhabited Platform := ⟨{}⟩

def log (event : Event) : Action Platform Unit :=
  modify fun platform => { platform with machine := platform.machine.log none event }

def onMachine {α : Type} (action : Action Machine α) : Action Platform α := fun platform =>
  match action platform.machine with
  | .ok a machine => .ok a { platform with machine }
  | .error stop machine => .error stop { platform with machine }

/-- An attempt that changes devices when it succeeds. -/
def onDevices {α : Type} (attempt : Devices → Attempt (α × Devices)) : Action Platform α := do
  let (a, devices) ← attempt (← get).machine.devices
  modify fun platform => { platform with machine.devices := devices }
  return a

/-- An operation on the thing at a number. There is no answer if there is no such thing. -/
def onSlot {α β : Type} (table : Platform → Table β) (slot : Nat) (action : β → Action Platform α) :
    Action Platform (Option α) := do
  match (table (← get)).get? slot with
  | none => return none
  | some thing => some <$> action thing

/-- An operation on a live buffer. There is no answer if no buffer has this number. -/
def onBuffer {α : Type} (slot : Nat) (action : Action Site α) : Action Platform (Option α) :=
  fun platform =>
    match platform.buffers.get? slot with
    | none => .ok none platform
    | some live =>
      let update (site : Site) : Platform :=
        { platform with
          machine := site.machine
          buffers := platform.buffers.set slot { live with buffer := site.buffer } }
      match action ⟨platform.machine, live.buffer⟩ with
      | .ok a site => .ok (some a) (update site)
      | .error stop site => .error stop (update site)

/-- An operation on a reader. There is no answer if no reader has this number. -/
def onReader {α : Type} (slot : Nat) (action : Nat → Action Site α) :
    Action Platform (Option α) := do
  match (← get).readers.get? slot with
  | none => return none
  | some handle => onBuffer handle.buffer (action handle.id)

end Platform

end StreamBuffer

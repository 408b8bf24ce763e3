import StreamBuffer.Journal.Basic
import StreamBuffer.Region

/-!
# The machine

What all buffers share: the devices, how the system maps memory, and the journal.
-/

namespace StreamBuffer

structure Machine where
  devices : Devices := []
  paging : Paging := .usual
  journal : Journal := {}

namespace Machine

def log (machine : Machine) (owner : Option String) (event : Event) : Machine :=
  { machine with journal := machine.journal.log owner event }

def free (machine : Machine) (device address : Nat) : Machine :=
  let found := machine.devices.get device
  if found.isAllocated address then
    { machine with devices := machine.devices.set device (found.free address) }
  else machine.log none (.unknownAddressFreed found.name)

/-- Releases the memory of a region. Host memory needs no release. -/
def release (machine : Machine) : Region → Machine
  | .host _ => machine
  | .device run => machine.free run.device run.address

end Machine

end StreamBuffer

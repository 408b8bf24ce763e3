/-!
# Memory domains and transfer contexts

A context fixes which side of a host/device pair the producing stage writes and which side the
consuming stages read.
-/

namespace StreamBuffer

/-- A side of a host/device pair. -/
inductive Domain where
  | host
  | device
deriving DecidableEq, Repr

def Domain.label : Domain → String
  | .host => "host"
  | .device => "device"

/-- The direction in which data flows through a buffer, fixed when the buffer is made. -/
inductive Context where
  | hostToDevice
  | deviceToHost
  | hostToHost
  | deviceToDevice
deriving DecidableEq, Repr

namespace Context

instance : Inhabited Context := ⟨.hostToHost⟩

def all : List Context := [.hostToDevice, .deviceToHost, .hostToHost, .deviceToDevice]

def writeDomain : Context → Domain
  | .hostToDevice | .hostToHost => .host
  | .deviceToHost | .deviceToDevice => .device

def readDomain : Context → Domain
  | .hostToDevice | .deviceToDevice => .device
  | .deviceToHost | .hostToHost => .host

/-- Whether what was written has to be copied before it can be read. -/
def crosses (context : Context) : Bool :=
  context.writeDomain != context.readDomain

def label : Context → String
  | .hostToDevice => "host_to_device"
  | .deviceToHost => "device_to_host"
  | .hostToHost => "host_to_host"
  | .deviceToDevice => "device_to_device"

def typeName : Context → String
  | .hostToDevice => "HostToDevice"
  | .deviceToHost => "DeviceToHost"
  | .hostToHost => "HostToHost"
  | .deviceToDevice => "DeviceToDevice"

end Context

end StreamBuffer

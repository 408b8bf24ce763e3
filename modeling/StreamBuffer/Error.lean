import StreamBuffer.Context
import StreamBuffer.Text.Quoted
import StreamBuffer.Word

/-!
# Errors

What a caller has to act on, one constructor per cause. Having no room is not an error: it is a
space of zero or a callback that could not help. The wording is in `Error.detail` alone, and an
error that wraps another one quotes the whole message of its cause.
-/

namespace StreamBuffer

structure Errno where
  code : Nat
deriving DecidableEq, Repr

def Errno.text (errno : Errno) : String :=
  let name :=
    match errno.code with
    | 1 => "Operation not permitted"
    | 11 => "Resource temporarily unavailable"
    | 12 => "Cannot allocate memory"
    | 22 => "Invalid argument"
    | code => s!"Unknown error {code}"
  name ++ s!" (os error {errno.code})"

/-- There is no memory for a mapping of the size asked for. -/
def Errno.noMemory : Errno := ⟨12⟩

inductive Transfer where
  | hostToDevice
  | deviceToHost
  | deviceToDevice
  | move
deriving DecidableEq, Repr

def Transfer.label : Transfer → String
  | .hostToDevice => "host-to-device copy"
  | .deviceToHost => "device-to-host copy"
  | .deviceToDevice => "device-to-device copy"
  | .move => "device-to-device move"

inductive Access where
  | copySource
  | copyDestination
  | moveSource
  | moveDestination
  | transferSource
  | transferDestination
deriving DecidableEq, Repr

def Access.label : Access → String
  | .copySource => "copy source"
  | .copyDestination => "copy destination"
  | .moveSource => "move source"
  | .moveDestination => "move destination"
  | .transferSource => "transfer source"
  | .transferDestination => "transfer destination"

/-- The class of an error, by what the caller can do about it. -/
inductive Error.Kind where
  /-- Storage could not be had. -/
  | allocationFailed
  /-- A copy failed; the production step must be given up. -/
  | transferFailed
  /-- The storage cannot do what was asked. -/
  | unsupported
  /-- The caller made a mistake. -/
  | invariantViolated
  /-- The system refused. -/
  | system
deriving DecidableEq, Repr

/-- How the message of an error of this class begins. -/
def Error.Kind.lead : Error.Kind → String
  | .allocationFailed => "buffer allocation failed: "
  | .transferFailed => "transfer failed: "
  | .unsupported => "unsupported operation: "
  | .invariantViolated => "invariant violated: "
  | .system => "system error: "

/-- Why an operation was refused. -/
inductive Error where
  | zeroItemSize
  | zeroItemCount
  | emptySegment
  | addressSpaceExceeded (items itemSize : Nat)
  /-- The pinned host side of a buffer could not be had. -/
  | pinnedRegionFailed (bytes : Nat) (cause : Error)
  /-- The device side of a buffer could not be had. -/
  | deviceRegionFailed (device : String) (bytes : Nat) (cause : Error)
  | injectedFault (transfer : Transfer) (device : String)
  | outsideAllocations (address length : Nat) (device : String)
  | moveNotImplemented (length : Nat) (device : String)
  | contextNotServed (backend : String) (context : Context)
  /-- One region of this domain is not what the context needs. -/
  | regionDoesNotServe (domain : Domain) (context : Context)
  | pairNotNeeded (context : Context)
  | notHostAndDevice
  | sizesDiffer (host device : Nat)
  | rangeExceedsRegion (access : Access) (offset length : Nat) (domain : Domain) (size : Nat)
  | rangesOverlap (source destination length : Nat)
  | historyExceedsCapacity (history capacity : Nat)
  | readerNotAttached (reader buffer : Nat)
  | system (errno : Errno)
  /-- An error made elsewhere, by a device or a factory, with its own wording. -/
  | reported (kind : Error.Kind) (text : String)
deriving DecidableEq, Repr

namespace Error

def kind : Error → Kind
  | zeroItemSize | zeroItemCount | emptySegment | addressSpaceExceeded .. | pinnedRegionFailed ..
  | deviceRegionFailed .. => .allocationFailed
  | injectedFault .. | outsideAllocations .. => .transferFailed
  | moveNotImplemented .. | contextNotServed .. | regionDoesNotServe .. | pairNotNeeded .. =>
    .unsupported
  | notHostAndDevice | sizesDiffer .. | rangeExceedsRegion .. | rangesOverlap ..
  | historyExceedsCapacity .. | readerNotAttached .. => .invariantViolated
  | system .. => .system
  | reported kind _ => kind

def detail : Error → String
  | zeroItemSize => "item size must be non-zero"
  | zeroItemCount => "item count must be non-zero"
  | emptySegment => "size must be greater than 0"
  | addressSpaceExceeded items itemSize =>
    s!"{items} items of {itemSize} bytes overflow the address space"
  | pinnedRegionFailed bytes cause =>
    s!"pinned region of {bytes} bytes: " ++ cause.kind.lead ++ cause.detail
  | deviceRegionFailed device bytes cause =>
    s!"device '{device}' could not provide {bytes} bytes: " ++ cause.kind.lead ++ cause.detail
  | injectedFault transfer device =>
    transfer.label ++ s!" on device '{device}' failed (injected fault)"
  | outsideAllocations address length device =>
    "device range 0x" ++ Text.hex address ++ s!"+{length} is outside every allocation of '{device}'"
  | moveNotImplemented length device =>
    s!"device-to-device move of {length} bytes is not implemented by device '{device}'"
  | contextNotServed backend context =>
    s!"backend '{backend}' only serves host_to_host, not " ++ context.label
  | regionDoesNotServe domain context =>
    "a single " ++ domain.label ++ " region cannot serve context " ++ context.label
  | pairNotNeeded context =>
    "context " ++ context.label ++ " does not need a host/device region pair"
  | notHostAndDevice => "split storage needs one host and one device region"
  | sizesDiffer host device =>
    s!"host region ({host}) and device region ({device}) differ in size"
  | rangeExceedsRegion access offset length domain size =>
    access.label ++ s!": range {offset}+{length} exceeds " ++ domain.label ++
      s!" region of {size} bytes"
  | rangesOverlap source destination length =>
    s!"copy ranges overlap: {source}..{source + length} and {destination}..{destination + length}"
  | historyExceedsCapacity history capacity =>
    s!"reader history {history} exceeds buffer capacity {capacity}"
  | readerNotAttached reader buffer =>
    s!"reader reader#{reader} is not attached to buffer {buffer}"
  | system errno => errno.text
  | reported _ text => text

def message (error : Error) : String := error.kind.lead ++ error.detail

def isInvariantViolation (error : Error) : Bool := error.kind == .invariantViolated

end Error

/-- Why an operation did not finish: it was refused, or it broke off. -/
inductive Stop where
  | error (error : Error)
  | fault (fault : Fault)
deriving DecidableEq, Repr

/-- An operation that changes nothing unless it finishes. -/
abbrev Attempt := Except Stop

/-- An operation that changes a state as it goes; what it did before it stopped stays done. -/
abbrev Action (σ : Type) := EStateM Stop σ

instance : MonadLift Checked Attempt where
  monadLift
    | .ok a => .ok a
    | .error fault => .error (.fault fault)

instance {σ : Type} : MonadLift Attempt (Action σ) where
  monadLift
    | .ok a => fun s => .ok a s
    | .error stop => fun s => .error stop s

def refuse {m : Type → Type} [MonadExceptOf Stop m] {α : Type} (error : Error) : m α :=
  throw (.error error)

end StreamBuffer

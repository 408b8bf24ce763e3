import StreamBuffer.Error
import StreamBuffer.Sizing

/-!
# Events

What a buffer, a device or a registry reports while it works, one constructor per kind of event.
An event has a level, a message and named fields.
-/

namespace StreamBuffer

inductive Level where
  | trace
  | debug
  | warn
  | error
deriving DecidableEq, Repr

def Level.label : Level → String
  | .trace => "TRACE"
  | .debug => "DEBUG"
  | .warn => "WARN"
  | .error => "ERROR"

inductive Field where
  | number (n : Nat)
  | flag (on : Bool)
  | text (s : String)
deriving DecidableEq, Repr

inductive Event where
  | allocated (backend : String) (request : Request) (geometry : Geometry)
  | deviceStorageAllocated (device : String) (context : Context) (bytes : Nat)
  | readerAttached (reader history sampleDelay readIndex readers : Nat)
  | readerDetached (reader readers : Nat)
  /-- A reader that was dropped could not be detached. -/
  | detachFailed (reader : Nat) (error : Error)
  /-- Look-back for a reader was put in front of the first item. -/
  | lookBackReserved (writeIndex maxHistory : Nat)
  | writerAdvanced (writeIndex items written : Nat)
  | readerAdvanced (reader readIndex items itemsRead : Nat)
  | doneSet (done : Bool)
  | tagsPruned (removed time : Nat)
  | released
  | historyRelocated (start stop keep : Nat) (lagging : Bool)
  /-- A reader still needs the front of the region. -/
  | historyBlocked (slowest floor : Nat)
  /-- The history is as long as what was written. -/
  | historyTooLong (stop keep : Nat)
  | tailRelocated (required moved writeIndex : Nat)
  | tailTooLong (required moved room : Nat)
  | compacted (multiple : Nat) (force : Bool) (reclaimed writeIndex : Nat)
  | compactionBlocked (room : Nat)
  | transferFailed (context : Context) (offset length : Nat) (error : Error)
  | unknownAddressFreed (device : String)
  | typeRegistered (name : String)
  | typeRefused (name : String)
  | typeUnregistered (name : String)
  | deviceTypeRegistered (name : String)
  | nameTaken (name : String)
deriving DecidableEq, Repr

namespace Event

def level : Event → Level
  | writerAdvanced .. | readerAdvanced .. | tagsPruned .. => .trace
  | transferFailed .. | unknownAddressFreed .. | typeRefused .. | nameTaken .. => .warn
  | detachFailed .. => .error
  | _ => .debug

def message : Event → String
  | allocated .. => "allocated buffer"
  | deviceStorageAllocated .. => "allocated device buffer storage"
  | readerAttached .. => "reader attached"
  | readerDetached .. => "reader detached"
  | detachFailed .. => "failed to detach reader"
  | lookBackReserved .. => "write cursor moved to make room for reader history"
  | writerAdvanced .. => "write pointer advanced"
  | readerAdvanced .. => "read pointer advanced"
  | doneSet .. => "buffer done flag set"
  | tagsPruned .. => "pruned tags"
  | released => "buffer released"
  | historyRelocated .. => "relocated reader history to front of buffer"
  | historyBlocked .. => "reader history relocation blocked by slow reader"
  | historyTooLong .. => "no room to relocate reader history"
  | tailRelocated .. => "input blocked: moved unread tail to front"
  | tailTooLong .. => "input blocked: tail does not fit in front of writer"
  | compacted .. => "output blocked: compacted unread data to front"
  | compactionBlocked .. => "output blocked: a reader is wrapped, cannot compact"
  | transferFailed .. => "post-work transfer failed"
  | unknownAddressFreed .. => "free of unknown device pointer"
  | typeRegistered .. => "registered buffer type"
  | typeRefused .. => "duplicate buffer type registration rejected"
  | typeUnregistered .. => "unregistered buffer type"
  | deviceTypeRegistered .. => "registered device buffer type"
  | nameTaken .. => "a buffer type with this name is already registered"

def readerName (reader : Nat) : String := s!"reader#{reader}"

def fields : Event → List (String × Field)
  | allocated backend request geometry =>
    [("backend", .text backend), ("producer", .text request.producer.name),
     ("requested", .number request.items), ("capacity", .number geometry.capacity),
     ("item_size", .number geometry.itemSize), ("write_multiple", .number geometry.writeMultiple),
     ("downstream_lcm", .number geometry.downstream), ("mapping", .text geometry.mapping.label),
     ("context", .text request.owner.context.label)]
  | deviceStorageAllocated device context bytes =>
    [("device", .text device), ("context", .text context.label), ("bytes", .number bytes)]
  | readerAttached reader history sampleDelay readIndex readers =>
    [("reader", .text (readerName reader)), ("history", .number history),
     ("sample_delay", .number sampleDelay), ("read_index", .number readIndex),
     ("readers", .number readers)]
  | readerDetached reader readers =>
    [("reader", .text (readerName reader)), ("readers", .number readers)]
  | detachFailed reader error =>
    [("reader", .text (readerName reader)), ("error", .text error.message)]
  | lookBackReserved writeIndex maxHistory =>
    [("write_index", .number writeIndex), ("max_history", .number maxHistory)]
  | writerAdvanced writeIndex items written =>
    [("write_index", .number writeIndex), ("nitems", .number items), ("written", .number written)]
  | readerAdvanced reader readIndex items itemsRead =>
    [("reader", .number reader), ("read_index", .number readIndex), ("nitems", .number items),
     ("items_read", .number itemsRead)]
  | doneSet done => [("done", .flag done)]
  | tagsPruned removed time => [("removed", .number removed), ("max_time", .number time)]
  | released => []
  | historyRelocated start stop keep lagging =>
    [("start", .number start), ("end", .number stop), ("keep", .number keep),
     ("lagging", .flag lagging)]
  | historyBlocked slowest floor => [("slowest", .number slowest), ("floor", .number floor)]
  | historyTooLong stop keep => [("end", .number stop), ("keep", .number keep)]
  | tailRelocated required moved writeIndex =>
    [("items_required", .number required), ("to_move", .number moved),
     ("write_index", .number writeIndex)]
  | tailTooLong required moved room =>
    [("items_required", .number required), ("to_move", .number moved), ("room", .number room)]
  | compacted multiple force reclaimed writeIndex =>
    [("output_multiple", .number multiple), ("force", .flag force),
     ("reclaimed", .number reclaimed), ("write_index", .number writeIndex)]
  | compactionBlocked room => [("space", .number room)]
  | transferFailed context offset length error =>
    [("context", .text context.label), ("offset", .number offset), ("len", .number length),
     ("error", .text error.message)]
  | unknownAddressFreed device => [("device", .text device)]
  | typeRegistered name | typeRefused name | typeUnregistered name | deviceTypeRegistered name =>
    [("buffer_type", .text name)]
  | nameTaken name => [("name", .text name)]

end Event

end StreamBuffer

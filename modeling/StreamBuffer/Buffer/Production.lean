import StreamBuffer.Buffer.Basic

/-!
# Production

What the producing stage does with a buffer: it asks for room, stores items at the position of
the writer, makes them readable, and moves the writer on.
-/

namespace StreamBuffer

def Buffer.writeOffset (buffer : Buffer) : Nat :=
  buffer.cursors.writeIndex * buffer.geometry.itemSize

namespace Site

/-- Drops the tags that no reader can still see once all have consumed `time` items; gives their
number. -/
def prune (time : Nat) : Action Site Nat := do
  let buffer := (← get).buffer
  let (removed, tags) ← buffer.tags.prune time buffer.cursors.maxDelay buffer.geometry.capacity
  modifyBuffer ({ · with tags })
  if 0 < removed then log (.tagsPruned removed time)
  return removed

/-- Drops tags if the slowest reader has moved since room was last asked for. They are dropped up
to where it stood then. -/
def pruneBehindReaders : Action Site Unit := do
  let buffer := (← get).buffer
  let slowest := buffer.cursors.slowest
  if slowest ≠ buffer.lastSlowest then
    discard (prune buffer.lastSlowest)
    modifyBuffer ({ · with lastSlowest := slowest })

/-- The room in flat storage, after look-back was copied to the front if need be. There is none
while that copy has to wait. -/
def flatSpace : Action Site Nat := do
  let buffer := (← get).buffer
  if ← buffer.cursors.needsHistory buffer.geometry then
    unless ← follow (← buffer.cursors.planHistory buffer.geometry) do return 0
  (← get).buffer.cursors.flatRoom buffer.geometry.capacity

/-- The number of items that can be written in one run. Without readers one position is kept
free. -/
def space : Action Site Nat := do
  let buffer := (← get).buffer
  if buffer.cursors.readers.isEmpty then return ← Word.sub buffer.geometry.capacity 1
  pruneBehindReaders
  match buffer.geometry.mapping with
  | .single => flatSpace
  | .double => buffer.cursors.ringRoom buffer.geometry.capacity

/-- Writes bytes from the position of the writer on, and moves no cursor. -/
def store (data : Bytes) : Action Site Unit :=
  modify fun site =>
    let (storage, devices) :=
      site.buffer.storage.store site.machine.devices site.buffer.writeOffset data
    { machine := { site.machine with devices }, buffer := { site.buffer with storage } }

/-- Makes the items just written readable. -/
def post (items : Nat) : Action Site Unit := do
  let buffer := (← get).buffer
  let offset ← Word.mul buffer.cursors.writeIndex buffer.geometry.itemSize
  let length ← Word.mul items buffer.geometry.itemSize
  let storage ← onMachine (buffer.storage.publish offset length)
  modifyBuffer ({ · with storage })

def advance (items : Nat) : Action Site Unit := do
  let buffer := (← get).buffer
  let (cursors, event) ← buffer.cursors.advanceWriter buffer.geometry.capacity items
  setCursors cursors
  trace event

/-- A whole production step. Byte `i` of the step is `source i`; items that would leave the
region are not stored. -/
def write (items : Nat) (source : Nat → UInt8) : Action Site Unit := do
  let buffer := (← get).buffer
  let fitting := min items (buffer.geometry.capacity - buffer.cursors.writeIndex)
  store (Array.ofFn fun (i : Fin (fitting * buffer.geometry.itemSize)) => source i)
  post items
  advance items

/-- A production step of at most `items` items, as many as there is room for in whole multiples;
a multiple of zero counts as one. Gives the room and the number written. -/
def produce (items multiple : Nat) (source : Nat → UInt8) : Action Site (Nat × Nat) := do
  let room ← space
  let fitting := min items room
  let written := fitting - fitting % max multiple 1
  write written source
  return (room, written)

/-- Ends the stream, or takes the end back. -/
def setDone (done : Bool) : Action Site Unit := do
  modifyBuffer ({ · with done })
  log (.doneSet done)

def tag (tag : Tag) : Action Site Unit :=
  modifyBuffer fun buffer => { buffer with tags := buffer.tags.insert tag }

/-- Hides a tag from a consumer; tells whether there was one to hide. -/
def untag (tag : Tag) (consumer : Nat) : Action Site Bool := do
  let (found, tags) := (← get).buffer.tags.hide tag consumer
  modifyBuffer ({ · with tags })
  return found

end Site

end StreamBuffer

import StreamBuffer.Backend
import StreamBuffer.Cursors.Movement
import StreamBuffer.Cursors.Relocation
import StreamBuffer.Tag.Index

/-!
# Buffers

A buffer is storage for a fixed number of items with the cursors of one writer and its readers,
and the tags of the stream that flows through it. It works on the machine it was allocated on; a
`Site` is the two together, and the operations of a buffer act on a site.
-/

namespace StreamBuffer

structure Buffer where
  id : Nat
  owner : Owner
  producer : String
  geometry : Geometry
  storage : Storage
  cursors : Cursors := {}
  tags : Tag.Index := default
  /-- The number of items all readers had consumed when room was last asked for. -/
  lastSlowest : Nat := 0
  done : Bool := false

namespace Buffer

def text (buffer : Buffer) : String :=
  Text.record "Buffer"
    [("id", toString buffer.id), ("owner", Text.quoted buffer.owner.name),
     ("capacity", toString buffer.geometry.capacity),
     ("item_size", toString buffer.geometry.itemSize),
     ("mapping", buffer.geometry.mapping.typeName),
     ("context", buffer.storage.context.typeName)]

def readerText (buffer : Buffer) (reader : Reader) : String :=
  Text.record "BufferReader"
    [("id", s!"ReaderId({reader.id})"), ("buffer", toString buffer.id),
     ("read_index", toString reader.readIndex), ("items_read", toString reader.itemsRead)]

def allocate (backend : Backend) (request : Request) (id : Nat) : Action Machine Buffer := do
  let geometry ← request.geometry
  let storage ← backend.allocate request.owner.context geometry.bytes
  modify fun machine =>
    let machine := machine.log (some request.owner.name)
      (.allocated (backend.name machine.devices) request geometry)
    { machine with journal := machine.journal.countAllocated }
  return { id, owner := request.owner, producer := request.producer.name, geometry, storage }

end Buffer

structure Site where
  machine : Machine
  buffer : Buffer

namespace Site

/-- Reports an event under the name of the buffer's owner. -/
def log (event : Event) : Action Site Unit :=
  modify fun site => { site with machine := site.machine.log site.buffer.owner.name event }

/-- Reports a movement of a cursor, which goes under no name. -/
def trace (event : Event) : Action Site Unit :=
  modify fun site => { site with machine := site.machine.log none event }

def modifyBuffer (change : Buffer → Buffer) : Action Site Unit :=
  modify fun site => { site with buffer := change site.buffer }

def setCursors (cursors : Cursors) : Action Site Unit := modifyBuffer ({ · with cursors })

def onMachine {α : Type} (action : Action Machine α) : Action Site α := fun site =>
  match action site.machine with
  | .ok a machine => .ok a { site with machine }
  | .error stop machine => .error stop { site with machine }

def reader (id : Nat) : Action Site Reader := do
  let buffer := (← get).buffer
  match buffer.cursors.reader? id with
  | some reader => return reader
  | none => refuse (.readerNotAttached id buffer.id)

/-! ## Relocation -/

/-- Puts a run of items of the region that is read at another place. -/
def moveItems (move : ItemMove) : Action Site Unit := do
  let site ← get
  let storage := site.buffer.storage
  let target ← Word.mul move.target site.buffer.geometry.itemSize
  let source ← Word.mul move.source site.buffer.geometry.itemSize
  let length ← Word.mul move.count site.buffer.geometry.itemSize
  let (region, devices) ←
    if move.overlapping then
      storage.readRegion.moveWithin site.machine.devices target source length
    else storage.readRegion.copyWithin site.machine.devices target source length
  set { site with
    machine.devices := devices
    buffer.storage := storage.withRegion storage.context.readDomain region }

/-- Carries out a plan. The cursors change once all moves were made, so that a move that was
refused leaves them where they were. -/
def carryOut (plan : Plan) : Action Site Unit := do
  let cursors := (← get).buffer.cursors
  (plan.moves cursors.writeIndex).forM moveItems
  let (cursors, event) ← plan.settle cursors
  setCursors cursors
  modify fun site => { site with
    machine.journal := site.machine.journal.countRelocation plan.kind cursors.writeIndex }
  log event

/-- Follows a decision; tells whether a relocation was made. -/
def follow (decision : Decision) : Action Site Bool :=
  match decision with
  | .idle => return false
  | .blocked event => do
    log event
    return false
  | .planned plan => do
    carryOut plan
    return true

end Site

end StreamBuffer

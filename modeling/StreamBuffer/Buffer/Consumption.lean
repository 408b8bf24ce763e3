import StreamBuffer.Buffer.Production

/-!
# Consumption

What the consuming stages do with a buffer: they attach readers, take items at the position of
their reader, move it on, and look at the tags of the stream.
-/

namespace StreamBuffer

/-- The items a reader can take in one run. -/
def Buffer.supply (buffer : Buffer) (reader : Reader) : Checked Nat :=
  buffer.cursors.supply buffer.geometry reader

/-- The bytes of at most `items` items at the position of a reader, up to the end of the
region. -/
def Site.peek (site : Site) (reader : Reader) (items : Nat) : Bytes :=
  let geometry := site.buffer.geometry
  let fitting := min items (geometry.capacity - reader.readIndex)
  (site.buffer.storage.readRegion.bytes site.machine.devices).slice
    (reader.readIndex * geometry.itemSize) (fitting * geometry.itemSize)

namespace Site

/-! ## Readers -/

/-- Attaches a reader that looks at `history` items for one item of output. Gives its
identity. -/
def attach (history sampleDelay : Nat) : Action Site Nat := do
  let buffer := (← get).buffer
  let (id, cursors, events) ← buffer.cursors.attach buffer.geometry history sampleDelay
  setCursors cursors
  events.forM log
  return id

def raiseHistory (history delay : Nat) : Action Site Unit := do
  let buffer := (← get).buffer
  Cursors.checkHistory buffer.geometry history
  let (cursors, events) ← buffer.cursors.raise buffer.geometry (history - 1) delay
  setCursors cursors
  events.forM log

def detach (id : Nat) : Action Site Unit := do
  discard (reader id)
  let (cursors, event) ← (← get).buffer.cursors.detach id
  setCursors cursors
  log event

/-- Detaches a reader that is dropped. Nobody is there to be told of a refusal, so it is only
reported. -/
def leave (id : Nat) : Action Site Unit := do
  try detach id
  catch
    | .error error => trace (.detachFailed id error)
    | stop => throw stop

def read (id items : Nat) : Action Site Unit := do
  let reader ← reader id
  let buffer := (← get).buffer
  let (cursors, event) ← buffer.cursors.advanceReader buffer.geometry.capacity reader items
  setCursors cursors
  trace event
  setCursors (← cursors.refreshTail)

def supply (id : Nat) : Action Site Nat := do
  let reader ← reader id
  (← get).buffer.supply reader

/-- A consumption step of at most `items` items. The look-back stays in view, so that many items
fewer can be consumed. Gives the supply, the number consumed, and the bytes looked at. -/
def consume (id items : Nat) : Action Site (Nat × Nat × Bytes) := do
  let reader ← reader id
  let site ← get
  let supply ← site.buffer.supply reader
  let consumed := min items (supply - reader.lookBack)
  let data := site.peek reader (consumed + min reader.lookBack supply)
  read id consumed
  return (supply, consumed, data)

/-- Declares by how many items the output of a reader lags its input. -/
def declareDelay (id delay : Nat) : Action Site Unit := do
  let reader ← reader id
  let buffer := (← get).buffer
  let (cursors, events) ← buffer.cursors.declareDelay buffer.geometry reader delay
  setCursors cursors
  events.forM log

/-! ## Tags -/

/-- The tags of the items from `start` to before `stop` that a consumer did not hide. They show
where the output of the reader is, later than the input by its delay. -/
def tags (id start stop consumer : Nat) : Action Site (List Tag) := do
  let reader ← reader id
  let delay := reader.sampleDelay
  let found := (← get).buffer.tags.range (start - delay) (stop - delay)
  let shown := found.filter fun tag => !tag.isHiddenFrom consumer
  (shown.mapM fun tag =>
    return { tag with offset := ← Word.add tag.offset delay, hiddenFrom := [] } :
    Checked (List Tag))

end Site

end StreamBuffer

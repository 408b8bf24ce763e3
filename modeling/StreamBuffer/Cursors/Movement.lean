import StreamBuffer.Cursors.Basic

/-!
# Movement of cursors

The writer and the readers advance, readers come and go. Each movement gives the new cursors and
what is reported of it.
-/

namespace StreamBuffer.Cursors

def advanceWriter (cursors : Cursors) (capacity items : Nat) : Checked (Cursors × Event) := do
  let writeIndex ← Ring.advance capacity cursors.writeIndex items
  let written ← Word.add cursors.written items
  return ({ cursors with writeIndex, written }, .writerAdvanced writeIndex items written)

/-- The position of a reader after it consumed items. A wrapped reader that comes into the tail
window goes on at the copy in front. -/
def nextIndex (cursors : Cursors) (capacity : Nat) (reader : Reader) (items : Nat) :
    Checked Nat := do
  let wrapped ← cursors.isWrapped reader
  let reached ← Word.add reader.readIndex items
  match cursors.tail with
  | some tail =>
    if wrapped ∧ tail.start ≤ reached ∧ reached ≤ tail.stop then return reached - tail.start
    Ring.advance capacity reader.readIndex items
  | none => Ring.advance capacity reader.readIndex items

/-- A reader has consumed items. The tail window is not looked at yet. -/
def advanceReader (cursors : Cursors) (capacity : Nat) (reader : Reader) (items : Nat) :
    Checked (Cursors × Event) := do
  let readIndex ← cursors.nextIndex capacity reader items
  let itemsRead ← Word.add reader.itemsRead items
  return (cursors.replace { reader with readIndex, itemsRead },
    .readerAdvanced reader.id readIndex items itemsRead)

/-- Raises the longest look-back and the longest delay. As long as nothing was written to flat
storage, the writer is moved on so that the look-back fits in front of the first item, and the
readers with it. -/
def raise (cursors : Cursors) (geometry : Geometry) (lookBack delay : Nat) :
    Checked (Cursors × List Event) := do
  let raised := { cursors with
    maxLookBack := max cursors.maxLookBack lookBack
    maxDelay := max cursors.maxDelay delay }
  if cursors.maxLookBack < lookBack ∧ geometry.mapping = .single ∧ cursors.written = 0 then
    let writeIndex := raised.maxLookBack
    let readers ← raised.readers.mapM fun reader =>
      return { reader with readIndex := ← Word.sub writeIndex reader.lookBack }
    return ({ raised with writeIndex, readers },
      [.lookBackReserved writeIndex raised.maxHistory])
  return (raised, [])

def checkHistory (geometry : Geometry) (history : Nat) : Attempt Unit := do
  if geometry.capacity < history then
    refuse (.historyExceedsCapacity history geometry.capacity)

/-- A reader with this history and delay comes. It starts as far behind the writer as it looks
back, and a history of zero counts as one. The result holds its identity. -/
def attach (cursors : Cursors) (geometry : Geometry) (history sampleDelay : Nat) :
    Attempt (Nat × Cursors × List Event) := do
  checkHistory geometry history
  let lookBack := history - 1
  let id := cursors.nextReader
  let nextReader ← Word.add id 1
  let (raised, events) ← { cursors with nextReader }.raise geometry lookBack sampleDelay
  let readIndex ← Ring.distance geometry.capacity raised.writeIndex lookBack
  let reader : Reader := { id, readIndex, itemsRead := raised.written, lookBack, sampleDelay }
  let readers := raised.readers ++ [reader]
  return (id, { raised with readers },
    events ++ [.readerAttached id reader.history sampleDelay readIndex readers.length])

def detach (cursors : Cursors) (id : Nat) : Checked (Cursors × Event) := do
  let readers := cursors.readers.eraseP (·.id == id)
  return (← { cursors with readers }.refreshTail, .readerDetached id readers.length)

def declareDelay (cursors : Cursors) (geometry : Geometry) (reader : Reader) (delay : Nat) :
    Checked (Cursors × List Event) :=
  (cursors.replace { reader with sampleDelay := delay }).raise geometry 0 delay

end StreamBuffer.Cursors

import StreamBuffer.Cursors.Basic

/-!
# Room and supply

How many items a reader can take in one run, and how many the writer can put. Flat storage ends
runs at the end of the region and behind a reader in front of the writer; storage that is mapped
twice only keeps one position free.
-/

namespace StreamBuffer.Cursors

/-- The end of the run of a reader that has yet to reach the end of the region. -/
def wrapEnd (cursors : Cursors) (capacity : Nat) : Nat :=
  match cursors.tail with
  | some tail => tail.stop
  | none => capacity

/-- The items a reader of flat storage can take in one run. -/
def flatSupply (cursors : Cursors) (capacity : Nat) (reader : Reader) : Checked Nat := do
  if (← cursors.unread reader) = 0 then return 0
  if ← cursors.isWrapped reader then Word.sub (cursors.wrapEnd capacity) reader.readIndex
  else Word.sub cursors.writeIndex reader.readIndex

def supply (cursors : Cursors) (geometry : Geometry) (reader : Reader) : Checked Nat :=
  match geometry.mapping with
  | .single => cursors.flatSupply geometry.capacity reader
  | .double => Ring.distance geometry.capacity cursors.writeIndex reader.readIndex

/-- The room in front of the writer, cut off at the first reader ahead. A reader at the writer's
position that has something left to read leaves none. -/
def roomBefore (cursors : Cursors) (room : Nat) : List Reader → Checked Nat
  | [] => .ok room
  | reader :: rest =>
    if cursors.writeIndex < reader.readIndex then
      cursors.roomBefore (min room (reader.readIndex - cursors.writeIndex)) rest
    else if reader.readIndex = cursors.writeIndex then do
      if 0 < (← cursors.unread reader) then return 0
      cursors.roomBefore room rest
    else cursors.roomBefore room rest

/-- The items the writer can put into flat storage in one run. -/
def flatRoom (cursors : Cursors) (capacity : Nat) : Checked Nat := do
  cursors.roomBefore (← Word.sub capacity cursors.writeIndex) cursors.readers

/-- The items the writer can put into storage that is mapped twice, in one run. -/
def ringRoom (cursors : Cursors) (capacity : Nat) : Checked Nat := do
  let unread ← cursors.readers.mapM fun reader =>
    Ring.distance capacity cursors.writeIndex reader.readIndex
  Word.sub (← Word.sub capacity (unread.foldl max 0)) 1

/-- The number of items that all readers have consumed. -/
def slowest (cursors : Cursors) : Nat := ((cursors.readers.map (·.itemsRead)).min?).getD 0

/-- Whether a reader at a position waits for more items than it can get in one run, while the
writer is behind it. -/
def waitsAtEnd (cursors : Cursors) (capacity required readIndex : Nat) : Bool :=
  let stop := cursors.wrapEnd capacity
  readIndex ≤ stop && stop - readIndex < required && cursors.writeIndex < readIndex

end StreamBuffer.Cursors

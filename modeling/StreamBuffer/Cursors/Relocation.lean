import StreamBuffer.Cursors.Room
import StreamBuffer.Journal.Basic

/-!
# Relocation

Flat storage cannot wrap a run around its end. Three relocations keep data flowing: look-back is
copied to the front when the writer reaches the end, an unread tail is brought to the front for a
reader that waits for more, and unread data is moved to the front to make room for the writer.

A relocation is decided on the cursors alone. The decision is a plan, which says what runs of
items are to be moved in the region and where all cursors are once they were.
-/

namespace StreamBuffer

/-- A run of items to be put at another place of the region. -/
structure ItemMove where
  target : Nat
  source : Nat
  count : Nat
  /-- Whether the two places may overlap. -/
  overlapping : Bool
deriving DecidableEq, Repr

inductive Plan where
  /-- The items from `start` to before `stop` are copied to the front. A reader that consumed all
  of them counts as standing at `stop`, and the positions are those of all readers. -/
  | history (start stop : Nat) (positions : List Nat)
  /-- The `moved` items at `front` come to the front, and what is there is shifted up by as many.
  The flags tell which readers are wrapped. -/
  | input (required front moved : Nat) (wrapped : List Bool)
  /-- The `kept` items at `front` are all that is unread; they come to the front. -/
  | output (multiple : Nat) (force : Bool) (front kept : Nat)
deriving DecidableEq, Repr

/-- What becomes of the wish for a relocation. -/
inductive Decision where
  | idle
  /-- A relocation is not possible, which is reported. -/
  | blocked (event : Event)
  | planned (plan : Plan)
deriving DecidableEq, Repr

namespace Plan

def kind : Plan → Relocation
  | history .. => .history
  | input .. => .input
  | output .. => .output

def moves (plan : Plan) (writeIndex : Nat) : List ItemMove :=
  match plan with
  | history start stop _ =>
    [{ target := 0, source := start, count := stop - start, overlapping := start < stop - start }]
  | input _ front moved _ =>
    [{ target := moved, source := 0, count := writeIndex, overlapping := true },
     { target := 0, source := front, count := moved, overlapping := false }]
  | output _ _ front kept =>
    [{ target := 0, source := front, count := kept, overlapping := true }]

def settle (plan : Plan) (cursors : Cursors) : Checked (Cursors × Event) :=
  match plan with
  | history start stop positions => do
    let readers := cursors.readers.zipWith (fun reader position =>
      if start ≤ position then { reader with readIndex := position - start } else reader) positions
    let moved := { cursors with readers, writeIndex := stop - start }
    let lagging ← moved.anyWrapped
    return ({ moved with tail := if lagging then some ⟨start, stop⟩ else none },
      .historyRelocated start stop (stop - start) lagging)
  | input required front moved wrapped => do
    let readers ← (cursors.readers.zip wrapped).mapM fun (reader, wrapped) => do
      let readIndex ←
        if wrapped then Word.sub reader.readIndex front else Word.add reader.readIndex moved
      return { reader with readIndex }
    let writeIndex ← Word.add cursors.writeIndex moved
    return ({ cursors with readers, writeIndex, tail := none },
      .tailRelocated required moved writeIndex)
  | output multiple force front kept => do
    let readers ← cursors.readers.mapM fun reader =>
      return { reader with readIndex := ← Word.sub reader.readIndex front }
    return ({ cursors with readers, writeIndex := kept }, .compacted multiple force front kept)

end Plan

namespace Cursors

/-! ## Look-back at the end of the region -/

/-- Whether the writer has to have look-back copied to the front before it can go on: it is at
the end of the region or cannot put a whole multiple before it. The copy has to wait while
readers are still on their way to the end. -/
def needsHistory (cursors : Cursors) (geometry : Geometry) : Checked Bool := do
  let room ← Word.sub geometry.capacity cursors.writeIndex
  if cursors.hasHistory ∧ 0 < cursors.written ∧ cursors.tail = none ∧
      (room < geometry.writeMultiple ∨ cursors.writeIndex = 0) then
    if cursors.writeIndex = 0 then return true
    return !(← cursors.anyWrapped)
  return false

/-- The position of a reader for a relocation of the items before `stop`. -/
def positionBefore (cursors : Cursors) (stop : Nat) (reader : Reader) : Checked Nat := do
  if reader.readIndex = cursors.writeIndex then
    if (← cursors.unread reader) = 0 then return stop
  return reader.readIndex

/-- Copies the newest items to the front, as many as the longest look-back and the granularity of
reading ask for, if no reader needs the front any more. -/
def planHistory (cursors : Cursors) (geometry : Geometry) : Checked Decision := do
  let stop := if cursors.writeIndex = 0 then geometry.capacity else cursors.writeIndex
  let wanted ← Word.add (geometry.downstream - 1) cursors.maxLookBack
  let keep := min (max wanted 1) stop
  if stop ≤ keep then return .blocked (.historyTooLong stop keep)
  let start := stop - keep
  let positions ← cursors.readers.mapM (cursors.positionBefore stop)
  let floor := min start keep
  let slowest := positions.min?.getD stop
  if slowest < floor then return .blocked (.historyBlocked slowest floor)
  return .planned (.history start stop positions)

/-! ## A reader that waits for more -/

/-- Brings the tail that wrapped readers have not read to the front, for a reader at `readIndex`
that finds `available` items there and requires more. With a tail window the rest of the tail is
in front already. -/
def planInput (cursors : Cursors) (required available readIndex : Nat) : Checked Decision := do
  let wrapped ← cursors.readers.mapM cursors.isWrapped
  let positions : List Nat := (cursors.readers.zip wrapped).filterMap fun (reader, wrapped) =>
    if wrapped then some reader.readIndex else none
  match positions.min? with
  | none => return .idle
  | some front =>
    let stop ←
      match cursors.tail with
      | some tail => pure tail.start
      | none => Word.add readIndex available
    if stop ≤ front then return .idle
    let moved := stop - front
    let room ← Word.sub front cursors.writeIndex
    if room < moved then return .blocked (.tailTooLong required moved room)
    return .planned (.input required front moved wrapped)

/-! ## A writer that waits for room -/

/-- Moves all unread data to the front, if the writer has some room but less than a multiple, or
if it is forced. -/
def planOutput (cursors : Cursors) (geometry : Geometry) (multiple : Nat) (force : Bool) :
    Checked Decision := do
  if cursors.readers.isEmpty then return .idle
  let room ← cursors.flatRoom geometry.capacity
  unless force ∨ (0 < room ∧ room < multiple) do return .idle
  if ← cursors.anyWrapped then return .blocked (.compactionBlocked room)
  let front := ((cursors.readers.map (·.readIndex)).min?).getD 0
  if front = 0 then return .idle
  let kept ← Word.sub cursors.writeIndex front
  return .planned (.output multiple force front kept)

end Cursors

end StreamBuffer

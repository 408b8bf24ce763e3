import StreamBuffer.Journal.Event
import StreamBuffer.Ring

/-!
# Cursors

One writer and any number of readers walk over the positions of a buffer. The writer counts the
items it wrote, every reader those it consumed; a reader that looks back keeps the items before
its next one in view, so its position is that of the oldest item it still needs.

After a relocation of history a run of items lies at two places, and readers that lag behind
still walk over the old one. The tail window remembers where it is.
-/

namespace StreamBuffer

structure Reader where
  id : Nat
  /-- The position of the oldest item the reader still needs. -/
  readIndex : Nat
  itemsRead : Nat
  /-- The number of items before the next one that stay in view. -/
  lookBack : Nat
  /-- By how many items the output of the reader lags its input. -/
  sampleDelay : Nat
deriving DecidableEq, Repr

/-- The items a reader looks at for one item of output. -/
def Reader.history (reader : Reader) : Nat := reader.lookBack + 1

/-- The old place of a run that was copied to the front: the items from `start` to before `stop`
are also at the positions from zero on. -/
structure Tail where
  start : Nat
  stop : Nat
deriving DecidableEq, Repr

structure Cursors where
  writeIndex : Nat := 0
  written : Nat := 0
  readers : List Reader := []
  nextReader : Nat := 0
  /-- The longest look-back any reader ever had. -/
  maxLookBack : Nat := 0
  /-- The longest sample delay any reader ever had. -/
  maxDelay : Nat := 0
  tail : Option Tail := none
deriving DecidableEq, Repr

namespace Cursors

instance : Inhabited Cursors := ⟨{}⟩

def maxHistory (cursors : Cursors) : Nat := cursors.maxLookBack + 1

def hasHistory (cursors : Cursors) : Bool := 0 < cursors.maxLookBack

def reader? (cursors : Cursors) (id : Nat) : Option Reader :=
  cursors.readers.find? (·.id == id)

def replace (cursors : Cursors) (reader : Reader) : Cursors :=
  { cursors with
    readers := cursors.readers.map fun old => if old.id = reader.id then reader else old }

/-- The items from the reader's position to the writer's, look-back included. -/
def unread (cursors : Cursors) (reader : Reader) : Checked Nat := do
  return (← Word.add cursors.written reader.lookBack) - reader.itemsRead

/-- Whether the reader has to reach the end of the region before it can catch up with the
writer. At the writer's position it has to if there is something left to read. -/
def isWrapped (cursors : Cursors) (reader : Reader) : Checked Bool :=
  if reader.readIndex = cursors.writeIndex then
    return 0 < (← cursors.unread reader)
  else .ok (cursors.writeIndex < reader.readIndex)

def anyWrapped (cursors : Cursors) : Checked Bool := cursors.readers.anyM cursors.isWrapped

/-- Forgets the tail window once no reader lags behind it. -/
def refreshTail (cursors : Cursors) : Checked Cursors := do
  if cursors.tail.isNone then return cursors
  if ← cursors.anyWrapped then return cursors
  return { cursors with tail := none }

variable {cursors : Cursors} {reader : Reader}

theorem unread_eq_ok (h : cursors.written + reader.lookBack < Word.limit) :
    cursors.unread reader = .ok (cursors.written + reader.lookBack - reader.itemsRead) := by
  simp [unread, Word.add_eq_ok h, bind, Except.bind, pure, Except.pure]

theorem isWrapped_eq_ok (h : cursors.written + reader.lookBack < Word.limit) :
    cursors.isWrapped reader = .ok (decide (cursors.writeIndex < reader.readIndex ∨
      reader.readIndex = cursors.writeIndex ∧
        reader.itemsRead < cursors.written + reader.lookBack)) := by
  unfold isWrapped
  split
  · rw [unread_eq_ok h]
    exact congrArg Except.ok (decide_eq_decide.mpr (by omega))
  · exact congrArg Except.ok (decide_eq_decide.mpr (by omega))

end Cursors

end StreamBuffer

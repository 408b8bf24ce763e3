import StreamBuffer.Platform.Basic

/-!
# Lifetime of buffers

Buffers are allocated, handles and readers are dropped, and a buffer is released with the last of
them.
-/

namespace StreamBuffer.Platform

/-- Allocates a buffer. Gives its number. An identity is used up only if there is a buffer. -/
def allocate (backend : Backend) (request : Request) : Action Platform Nat := do
  let id := (← get).nextBuffer
  let buffer ← onMachine (Buffer.allocate backend request id)
  let slot := (← get).buffers.next
  modify fun platform => { platform with
    buffers := platform.buffers.push { buffer, held := true }
    nextBuffer := id + 1 }
  return slot

/-- The buffer a handle stands for. -/
def held? (platform : Platform) (slot : Nat) : Option Buffer :=
  match platform.buffers.get? slot with
  | some live => if live.held then some live.buffer else none
  | none => none

/-- The readers of a buffer by number, with their cursors. -/
def readersOf (platform : Platform) (slot : Nat) (buffer : Buffer) : List (Nat × Reader) :=
  platform.readers.toList.filterMap fun (number, handle) =>
    if handle.buffer = slot
      then (buffer.cursors.reader? handle.id).map fun reader => (number, reader)
    else none

/-- Whether the handle or a reader refers to a live buffer. -/
def isReferred (platform : Platform) (slot : Nat) (live : LiveBuffer) : Bool :=
  live.held || platform.readers.toList.any fun (_, handle) => handle.buffer == slot

/-- Releases a buffer if nothing refers to it any more. No reader may be attached to it then. -/
def releaseUnused (slot : Nat) : Action Platform Unit := do
  let platform ← get
  match platform.buffers.get? slot with
  | none => return
  | some live =>
    if platform.isReferred slot live then return
    let readers := live.buffer.cursors.readers
    unless readers.isEmpty do
      throw (.fault (.readersAttached live.buffer.id readers.length))
    let journal ← platform.machine.journal.countReleased
    let machine := { platform.machine with journal }.log live.buffer.owner.name .released
    set { platform with
      machine := live.buffer.storage.release machine
      buffers := platform.buffers.remove slot }

def attach (slot history sampleDelay : Nat) : Action Platform (Option Nat) := do
  match ← onBuffer slot (Site.attach history sampleDelay) with
  | none => return none
  | some id =>
    let number := (← get).readers.next
    modify fun platform => { platform with readers := platform.readers.push ⟨slot, id⟩ }
    return some number

def dropHandle (slot : Nat) : Action Platform (Option Unit) :=
  onSlot (·.buffers) slot fun live => do
    modify fun platform =>
      { platform with buffers := platform.buffers.set slot { live with held := false } }
    releaseUnused slot

def dropReader (slot : Nat) : Action Platform (Option Unit) :=
  onSlot (·.readers) slot fun handle => do
    discard (onBuffer handle.buffer (Site.leave handle.id))
    modify fun platform => { platform with readers := platform.readers.remove slot }
    releaseUnused handle.buffer

end StreamBuffer.Platform

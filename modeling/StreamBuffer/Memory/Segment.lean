import StreamBuffer.Error
import StreamBuffer.Memory.Bytes
import StreamBuffer.Sizing
import StreamBuffer.Text.Record

/-!
# Segments of host memory

A segment is contiguous memory the processor can address. Pinned memory stays resident, so that a
device can copy from it directly; it is mapped in whole pages. Memory that cannot be locked is used
all the same, and nothing here depends on whether it was. A heap that has run out ends the program;
there is no such end here, and every size that can be reserved is had.
-/

namespace StreamBuffer

inductive Segment.Kind where
  | heap
  | pinned
deriving DecidableEq, Repr

namespace Segment.Kind

def label : Segment.Kind → String
  | heap => "host"
  | pinned => "pinned-host"

def typeName : Segment.Kind → String
  | heap => "Host"
  | pinned => "PinnedHost"

def isPinned (kind : Segment.Kind) : Bool := kind == .pinned

end Segment.Kind

/-- The largest piece of memory. -/
def Segment.limit : Nat := (1 <<< 63) - 1

/-- How the system maps memory: in pages of what size, and why it does not map a length, if it does
not. -/
structure Paging where
  pageSize : Nat
  refusal : Nat → Option Errno
  pageSize_pos : 0 < pageSize
  mapped_le : ∀ length, refusal length = none → length ≤ Segment.limit

/-- Small pages, and room for all that can be told apart by 47 bits. -/
def Paging.usual : Paging where
  pageSize := 4096
  refusal length := if length < 1 <<< 47 then none else some .noMemory
  pageSize_pos := by decide
  mapped_le length h := by
    unfold Segment.limit
    split at h
    · omega
    · cases h

structure Segment where
  kind : Segment.Kind
  bytes : Bytes

namespace Segment

/-- Refuses a size that memory on the heap cannot have. What cannot be reserved at all is a
fault. -/
def checkHeap (size : Nat) : Attempt Unit := do
  if size = 0 then refuse .emptySegment
  if limit < size then throw (.fault .capacityOverflow)

/-- Refuses a size that pinned memory cannot have. It comes in whole pages. -/
def checkPinned (paging : Paging) (size : Nat) : Attempt Unit := do
  if size = 0 then refuse .emptySegment
  let mapped ← Word.mul (Sizing.ceilDiv size paging.pageSize) paging.pageSize
  if let some errno := paging.refusal mapped then refuse (.system errno)

/-- Memory that was never written. -/
def zeroed (kind : Segment.Kind) (size : Nat) : Segment := ⟨kind, Bytes.zeroed size⟩

def allocateHeap (size : Nat) : Attempt Segment := do
  checkHeap size
  return zeroed .heap size

def allocate (paging : Paging) (kind : Segment.Kind) (size : Nat) : Attempt Segment := do
  match kind with
  | .heap => allocateHeap size
  | .pinned =>
    checkPinned paging size
    return zeroed .pinned size

def size (segment : Segment) : Nat := segment.bytes.size

def isEmpty (segment : Segment) : Bool := segment.size == 0

def text (segment : Segment) : String :=
  Text.record "MemorySegment"
    [("len", toString segment.size), ("memory_type", segment.kind.typeName)]

end Segment

end StreamBuffer

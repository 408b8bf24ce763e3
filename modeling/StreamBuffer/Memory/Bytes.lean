/-!
# Byte strings

The contents of memory. `slice` reads a run of bytes and `splice` overwrites one; a byte after a
splice is a byte of the new data inside the run and the old byte outside it.
-/

namespace StreamBuffer

abbrev Bytes := Array UInt8

namespace Bytes

/-- New memory holds zeros. -/
def zeroed (size : Nat) : Bytes := Array.replicate size 0

/-- The run of `length` bytes at `offset`. -/
def slice (bytes : Bytes) (offset length : Nat) : Bytes := bytes.extract offset (offset + length)

/-- The bytes with the run at `offset` overwritten. -/
def splice (bytes : Bytes) (offset : Nat) (data : Bytes) : Bytes :=
  bytes.extract 0 offset ++ data ++ bytes.extract (offset + data.size)

variable {bytes data : Bytes} {offset length i : Nat}

@[simp] theorem size_zeroed (size : Nat) : (zeroed size).size = size := Array.size_replicate

@[simp] theorem size_slice (h : offset + length ≤ bytes.size) :
    (bytes.slice offset length).size = length := by
  simp only [slice, Array.size_extract]
  omega

theorem getElem?_slice (h : i < length) : (bytes.slice offset length)[i]? = bytes[offset + i]? := by
  simp only [slice, Array.getElem?_extract]
  split
  · rfl
  · rw [Array.getElem?_eq_none (by omega)]

@[simp] theorem size_splice (h : offset + data.size ≤ bytes.size) :
    (bytes.splice offset data).size = bytes.size := by
  simp only [splice, Array.size_append, Array.size_extract]
  omega

/-- Inside the run the new data is read, outside it what was there before. -/
theorem getElem?_splice (h : offset + data.size ≤ bytes.size) :
    (bytes.splice offset data)[i]? =
      if offset ≤ i ∧ i < offset + data.size then data[i - offset]? else bytes[i]? := by
  simp only [splice, Array.getElem?_append, Array.getElem?_extract, Array.size_append,
    Array.size_extract]
  grind

end Bytes

end StreamBuffer

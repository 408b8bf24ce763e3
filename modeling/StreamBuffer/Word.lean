/-!
# Machine words

Positions, sizes and counters are unsigned 64-bit numbers. They are held as `Nat`, and every
operation that could leave the range is checked: it gives a `Fault` instead of a wrapped result.
A fault is a broken contract, not an error a caller recovers from.
-/

namespace StreamBuffer

inductive Fault where
  | addOverflow
  | subOverflow
  | mulOverflow
  /-- A ring without positions. -/
  | emptyRing
  /-- A position that is not on the ring. -/
  | outsideRing
  /-- More heap memory than can be addressed. -/
  | capacityOverflow
  /-- A buffer that goes while readers are attached to it. -/
  | readersAttached (buffer readers : Nat)
deriving DecidableEq, Repr

def Fault.message : Fault → String
  | .addOverflow => "attempt to add with overflow"
  | .subOverflow => "attempt to subtract with overflow"
  | .mulOverflow => "attempt to multiply with overflow"
  | .emptyRing => "assertion failed: capacity > 0"
  | .outsideRing => "assertion failed: a < capacity && b < capacity"
  | .capacityOverflow => "capacity overflow"
  | .readersAttached buffer readers => s!"buffer {buffer} destroyed with {readers} readers attached"

/-- A computation on machine words: a value, or the first fault met. -/
abbrev Checked := Except Fault

namespace Word

/-- The number of words; each word is below it. -/
def limit : Nat := 1 <<< 64

def add (a b : Nat) : Checked Nat :=
  if a + b < limit then .ok (a + b) else .error .addOverflow

def sub (a b : Nat) : Checked Nat :=
  if b ≤ a then .ok (a - b) else .error .subOverflow

def mul (a b : Nat) : Checked Nat :=
  if a * b < limit then .ok (a * b) else .error .mulOverflow

variable {a b c : Nat}

theorem add_eq_ok (h : a + b < limit) : add a b = .ok (a + b) := if_pos h

theorem sub_eq_ok (h : b ≤ a) : sub a b = .ok (a - b) := if_pos h

theorem mul_eq_ok (h : a * b < limit) : mul a b = .ok (a * b) := if_pos h

theorem add_eq_ok_iff : add a b = .ok c ↔ a + b < limit ∧ c = a + b := by
  grind [add]

theorem sub_eq_ok_iff : sub a b = .ok c ↔ b ≤ a ∧ c = a - b := by
  grind [sub]

theorem mul_eq_ok_iff : mul a b = .ok c ↔ a * b < limit ∧ c = a * b := by
  grind [mul]

end Word

end StreamBuffer

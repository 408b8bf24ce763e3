import StreamBuffer.Error

/-!
# Sizing

How many items a buffer holds. The capacity asked for is rounded up to a multiple of every
granularity in which items are written or read, so that a whole number of production and
consumption steps fits. A granularity of zero counts as one.
-/

namespace StreamBuffer

namespace Sizing

/-- The pair goes over to the second number and a remainder, until that is zero. -/
def gcdRounds : (rounds a b : Nat) → Nat
  | 0, a, _ => a
  | rounds + 1, a, b => if b = 0 then a else gcdRounds rounds b (a % b)

/-- The greatest common divisor. The second number shrinks in each round, so it bounds the
rounds. -/
def gcd (a b : Nat) : Nat := gcdRounds b a b

def commonMultiple (a b : Nat) : Checked Nat :=
  let a := max a 1
  let b := max b 1
  Word.mul (a / gcd a b) b

def ceilDiv (n divisor : Nat) : Nat := (n + divisor - 1) / divisor

/-- The least multiple of the granularity that is at least `n`. -/
def roundUp (n granularity : Nat) : Checked Nat :=
  let granularity := max granularity 1
  Word.mul (ceilDiv n granularity) granularity

/-- The size in bytes of a buffer for which no number of items was asked. -/
def defaultBytes : Nat := 32 * 1024

/-- With two items a writer and a reader need not wait for each other at every item. -/
def minimumItems : Nat := 2

def defaultDownstream : Nat := 1

/-- The number of items of a buffer for which none was asked. -/
def defaultItems (itemSize : Nat) : Nat := max (defaultBytes / max itemSize 1) minimumItems

theorem gcdRounds_eq {rounds a b : Nat} (h : b ≤ rounds) : gcdRounds rounds a b = Nat.gcd a b := by
  induction rounds generalizing a b with
  | zero =>
    obtain rfl := Nat.le_zero.mp h
    exact (Nat.gcd_zero_right a).symm
  | succ rounds ih =>
    unfold gcdRounds
    split
    · subst b
      exact (Nat.gcd_zero_right a).symm
    · have hmod := Nat.mod_lt a (Nat.pos_of_ne_zero ‹b ≠ 0›)
      rw [ih (by omega), Nat.gcd_comm b, ← Nat.gcd_rec, Nat.gcd_comm]

theorem gcd_eq (a b : Nat) : gcd a b = Nat.gcd a b := gcdRounds_eq (Nat.le_refl b)

theorem commonMultiple_eq (a b : Nat) :
    commonMultiple a b = if Nat.lcm (max a 1) (max b 1) < Word.limit
      then .ok (Nat.lcm (max a 1) (max b 1)) else .error .mulOverflow := by
  have h : max a 1 / Nat.gcd (max a 1) (max b 1) * max b 1 = Nat.lcm (max a 1) (max b 1) := by
    exact Nat.div_mul_right_comm (Nat.gcd_dvd_left ..) _
  simp only [commonMultiple, gcd_eq, Word.mul, h]

end Sizing

/-- How storage handles the end of the region. -/
inductive Mapping where
  /-- Flat storage: runs of items end at the end of the region. -/
  | single
  /-- Storage that appears twice in a row: runs of items continue at the front. -/
  | double
deriving DecidableEq, Repr

instance : Inhabited Mapping := ⟨.single⟩

def Mapping.label : Mapping → String
  | .single => "single_mapped"
  | .double => "double_mapped"

def Mapping.typeName : Mapping → String
  | .single => "SingleMapped"
  | .double => "DoubleMapped"

/-- What a buffer needs to know of the stage that writes into it. -/
structure Producer where
  name : String := "producer"
  /-- Output items per input item. -/
  relativeRate : Nat := 1
  /-- The number of items written is always a multiple of this. -/
  outputMultiple : Nat := 1
deriving DecidableEq, Repr

/-- The granularity in which a producer writes. -/
def Producer.writeMultiple (producer : Producer) : Checked Nat :=
  Sizing.commonMultiple producer.relativeRate producer.outputMultiple

/-- The stage that owns the storage of a buffer. -/
structure Owner where
  name : String := "owner"
  context : Context := .hostToHost
deriving DecidableEq, Repr

structure Request where
  items : Nat
  itemSize : Nat
  /-- The least common multiple of the granularities in which the consumers read. -/
  downstream : Nat := Sizing.defaultDownstream
  producer : Producer := {}
  owner : Owner := {}
  mapping : Mapping := .single
deriving DecidableEq, Repr

/-- The fixed measures of a buffer. -/
structure Geometry where
  capacity : Nat
  itemSize : Nat
  /-- The granularity in which the consumers read. -/
  downstream : Nat
  /-- The granularity in which the producer writes. -/
  writeMultiple : Nat
  mapping : Mapping
deriving DecidableEq, Repr

def Geometry.bytes (geometry : Geometry) : Nat := geometry.capacity * geometry.itemSize

/-- The measures of the buffer asked for. Its size in bytes fits a word. -/
def Request.geometry (request : Request) : Attempt Geometry := do
  if request.itemSize = 0 then refuse .zeroItemSize
  if request.items = 0 then refuse .zeroItemCount
  let writeMultiple ← request.producer.writeMultiple
  let downstream := max request.downstream 1
  let granularity ← Sizing.commonMultiple writeMultiple downstream
  let capacity ← Sizing.roundUp request.items granularity
  unless capacity * request.itemSize < Word.limit do
    refuse (.addressSpaceExceeded capacity request.itemSize)
  return { capacity, itemSize := request.itemSize, downstream, writeMultiple,
           mapping := request.mapping }

end StreamBuffer

/-!
# Double-precision numbers

A double is the word of its sign, exponent and fraction; its value is read off that word in exact
integer arithmetic. Equality of values differs from equality of words in two places: a NaN equals
nothing, and the two zeros are equal.
-/

namespace StreamBuffer

structure Binary64 where
  /-- Sign, 11 bits of exponent and 52 bits of fraction, the sign first. -/
  bits : UInt64
deriving DecidableEq, Repr

namespace Binary64

def sign (x : Binary64) : Bool := 1 <<< 63 ≤ x.bits.toNat

def exponentField (x : Binary64) : Nat := x.bits.toNat >>> 52 % 2048

def fractionField (x : Binary64) : Nat := x.bits.toNat % 1 <<< 52

def isNaN (x : Binary64) : Bool := x.exponentField == 2047 && x.fractionField != 0

def isInfinite (x : Binary64) : Bool := x.exponentField == 2047 && x.fractionField == 0

def isZero (x : Binary64) : Bool := x.exponentField == 0 && x.fractionField == 0

/-- The magnitude of a finite number is `significand * 2 ^ scale`. -/
def significand (x : Binary64) : Nat :=
  if x.exponentField = 0 then x.fractionField else 1 <<< 52 + x.fractionField

/-- The power of two by which the significand of a finite number is scaled. -/
def scale (x : Binary64) : Int := (max x.exponentField 1 : Nat) - 1075

def sameValue (x y : Binary64) : Bool :=
  !x.isNaN && !y.isNaN && (x.bits == y.bits || x.isZero && y.isZero)

/-- The word made of its three fields. A fraction of `2 ^ 52` carries into the exponent. -/
def ofFields (negative : Bool) (exponent fraction : Nat) : Binary64 :=
  ⟨((if negative then 1 <<< 63 else 0) + exponent <<< 52 + fraction).toUInt64⟩

/-- The double nearest to a natural number below `2 ^ 64`; of two as near, the even one. -/
def ofNat (n : Nat) (negative : Bool) : Binary64 :=
  if n = 0 then ofFields negative 0 0 else
  let top := n.log2
  let shifted :=
    if top ≤ 52 then n <<< (52 - top)
    else
      let unit := 1 <<< (top - 52)
      let whole := n / unit
      let rest := n % unit
      if unit < 2 * rest ∨ unit = 2 * rest ∧ whole % 2 = 1 then whole + 1 else whole
  ofFields negative (top + 1023) (shifted - 1 <<< 52)

def ofInt (n : Int) : Binary64 := ofNat n.natAbs (n < 0)

/-- The double with the value of a single-precision number, given as a word. -/
def ofBinary32 (bits : UInt32) : Binary64 :=
  let negative : Bool := 1 <<< 31 ≤ bits.toNat
  let exponent := bits.toNat >>> 23 % 256
  let fraction := bits.toNat % 1 <<< 23
  if exponent = 255 then ofFields negative 2047 (fraction <<< 29)
  else if exponent ≠ 0 then ofFields negative (exponent + 896) (fraction <<< 29)
  else if fraction = 0 then ofFields negative 0 0
  else
    -- the smallest single-precision numbers have a leading bit of their own as doubles
    let top := fraction.log2
    ofFields negative (top + 874) (fraction <<< (52 - top) - 1 <<< 52)

end Binary64

end StreamBuffer

import StreamBuffer.Decimal.Binary64

/-!
# Shortest decimals

The shortest decimal that reads back as a given double: of all decimals that round to the double
it has the fewest digits, and among those it is the nearest. It is found by looking, for one
digit, two digits and so on, at the two points of the decimal grid around the value.
-/

namespace StreamBuffer

/-- A positive decimal, `digits * 10 ^ exponent`. -/
structure Decimal where
  digits : Nat
  exponent : Int
deriving DecidableEq, Repr

namespace Decimal

structure Ratio where
  numerator : Nat
  denominator : Nat

namespace Ratio

def scaled (n base : Nat) (power : Int) : Ratio :=
  if 0 ≤ power then ⟨n * base.pow power.toNat, 1⟩ else ⟨n, base.pow (-power).toNat⟩

def le (a b : Ratio) : Bool := a.numerator * b.denominator ≤ b.numerator * a.denominator

def lt (a b : Ratio) : Bool := a.numerator * b.denominator < b.numerator * a.denominator

/-- The exponent of ten of the leading digit. -/
def magnitude (a : Ratio) : Int :=
  if a.denominator ≤ a.numerator then
    ((Nat.toDigits 10 (a.numerator / a.denominator)).length : Int) - 1
  else
    let places := (Nat.toDigits 10 (a.denominator / a.numerator)).length
    if a.numerator * Nat.pow 10 (places - 1) = a.denominator then 1 - (places : Int)
      else -(places : Int)

end Ratio

/-- The reals that round to a finite double, the ends included if its significand is even. -/
structure Neighbourhood where
  value : Ratio
  low : Ratio
  high : Ratio
  closed : Bool

/-- The reals that round to the magnitude of a finite double. The gap below a power of two is
half as wide as the one above. -/
def Neighbourhood.of (x : Binary64) : Neighbourhood :=
  let quarter := x.scale - 2
  let narrow := x.fractionField = 0 ∧ 1 < x.exponentField
  { value := .scaled (4 * x.significand) 2 quarter
    low := .scaled (4 * x.significand - if narrow then 1 else 2) 2 quarter
    high := .scaled (4 * x.significand + 2) 2 quarter
    closed := x.significand % 2 = 0 }

def Neighbourhood.contains (n : Neighbourhood) (a : Ratio) : Bool :=
  if n.closed then n.low.le a && a.le n.high else n.low.lt a && a.lt n.high

/-- The number of digits that always suffices. -/
def maxDigits : Nat := 17

/-- The point of the grid with step `10 ^ exponent` that lies in the neighbourhood; of two the
nearer, and of two as near the greater. -/
def onGrid? (n : Neighbourhood) (exponent : Int) : Option Decimal :=
  -- in units of the step the value is `numerator / denominator`
  let step := Ratio.scaled 1 10 exponent
  let numerator := n.value.numerator * step.denominator
  let denominator := n.value.denominator * step.numerator
  let below := numerator / denominator
  let inside (digits : Nat) : Bool := 0 < digits && n.contains (.scaled digits 10 exponent)
  let nearerBelow : Bool := 2 * (numerator % denominator) < denominator
  match inside below, inside (below + 1) with
  | true, true => some ⟨if nearerBelow then below else below + 1, exponent⟩
  | true, false => some ⟨below, exponent⟩
  | false, true => some ⟨below + 1, exponent⟩
  | false, false => none

def trim (d : Decimal) : Decimal :=
  if d.digits % 10 = 0 ∧ d.digits ≠ 0 then trim ⟨d.digits / 10, d.exponent + 1⟩ else d
termination_by d.digits
decreasing_by omega

/-- The shortest decimal that reads back as the magnitude of a finite double other than zero. -/
def shortest (x : Binary64) : Decimal :=
  let n := Neighbourhood.of x
  let leading := n.value.magnitude
  let found := (List.range maxDigits).findSome?
    fun (places : Nat) => onGrid? n (leading - (places : Int))
  (found.getD ⟨x.significand, 0⟩).trim

/-- One digit, a point, the other digits, and the exponent of ten. -/
def scientific (d : Decimal) : String :=
  match Nat.toDigits 10 d.digits with
  | [] => ""
  | first :: rest =>
    let point := if rest.isEmpty then "" else "."
    first.toString ++ point ++ String.ofList rest ++ "e" ++ toString (d.exponent + rest.length)

end Decimal

/-- The shortest scientific notation of a double; zero keeps its sign. -/
def Binary64.scientific (x : Binary64) : String :=
  if x.isNaN then "NaN" else
  let magnitude :=
    if x.isInfinite then "inf" else if x.isZero then "0e0" else (Decimal.shortest x).scientific
  if x.sign then "-" ++ magnitude else magnitude

end StreamBuffer

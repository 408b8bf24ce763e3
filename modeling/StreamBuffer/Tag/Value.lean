import StreamBuffer.Decimal.Shortest
import StreamBuffer.Memory.Bytes

/-!
# Payloads of tags

What a tag carries besides its key. Numbers convert into each other where the value fits, and two
payloads are the same when they have the same shape and the same leaves; a real that is no number
is the same as nothing.
-/

namespace StreamBuffer

inductive Tag.Value where
  /-- The key says it all. -/
  | null
  | flag (on : Bool)
  | long (n : Int)
  | count (n : Nat)
  | real (x : Binary64)
  | symbol (name : String)
  | blob (bytes : Bytes)
  | tuple (items : List Tag.Value)

namespace Tag.Value

instance : Inhabited Tag.Value := ⟨.null⟩

mutual

def same : Tag.Value → Tag.Value → Bool
  | null, null => true
  | flag a, flag b => a == b
  | long a, long b => a == b
  | count a, count b => a == b
  | real a, real b => a.sameValue b
  | symbol a, symbol b => a == b
  | blob a, blob b => a == b
  | tuple a, tuple b => sameItems a b
  | _, _ => false

def sameItems : List Tag.Value → List Tag.Value → Bool
  | [], [] => true
  | a :: as, b :: bs => same a b && sameItems as bs
  | _, _ => false

end

mutual

def text : Tag.Value → String
  | null => "()"
  | flag on => if on then "true" else "false"
  | long n => toString n
  | count n => toString n ++ "u"
  | real x => x.scientific
  | symbol name => "'" ++ name
  | blob bytes => s!"<{bytes.size} bytes>"
  | tuple items => "(" ++ " ".intercalate (texts items) ++ ")"

def texts : List Tag.Value → List String
  | [] => []
  | item :: items => text item :: texts items

end

/-- The payload as a real, if it is a number. -/
def toReal? : Tag.Value → Option Binary64
  | real x => some x
  | long n => some (Binary64.ofInt n)
  | count n => some (Binary64.ofNat n false)
  | _ => none

/-- The payload as an unsigned number, if it is a whole number that is not negative. -/
def toCount? : Tag.Value → Option Nat
  | count n => some n
  | long n => if 0 ≤ n then some n.toNat else none
  | _ => none

def symbol? : Tag.Value → Option String
  | symbol name => some name
  | _ => none

def flag? : Tag.Value → Option Bool
  | flag on => some on
  | _ => none

end Tag.Value

end StreamBuffer

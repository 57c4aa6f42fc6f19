import JsonQuery.Decimal.Reader
import JsonQuery.Decimal.Shortest
import JsonQuery.Double.Arithmetic
import JsonQuery.Fault
import JsonQuery.Literal
import JsonQuery.Text.Basic

/-!
Numbers as values: a double, or a decimal token kept as it was given, which need not be a number at
all. Numbers are equal by value, exactly so between integers of at most 128 bits.
-/
namespace JsonQuery

attribute [local instance (20000)] instPowNat

inductive Number where
  | double (d : Double)
  | token (text : String)
  deriving DecidableEq

namespace Number

def trimmed (text : String) : List Char := Text.trim text.toList

def toDouble? : Number → Option Double
  | .double d => some d
  | .token text => Double.read? (trimmed text)

def isInteger (n : Number) : Bool :=
  match n with
  | .double d => d.isIntegral
  | .token text => (readInt128? (trimmed text)).isSome || n.toDouble?.any Double.isIntegral

/-- The exact integer, for doubles below `10 ^ 38` and tokens of 128 bits. -/
def toInteger? : Number → Option Int
  | .double d => if d.abs.less (Decimal.toDouble ⟨false, 1, 38⟩) then d.toInt? else none
  | .token text => readInt128? (trimmed text)

/-- Equal tokens, else equal integers, else equal doubles. -/
def same (a b : Number) : Bool :=
  let sameToken := match a, b with
    | .token s, .token t => trimmed s == trimmed t
    | _, _ => false
  sameToken ||
    match a.toInteger?, b.toInteger? with
    | some m, some n => m == n
    | _, _ =>
      match a.toDouble?, b.toDouble? with
      | some x, some y => x.same y
      | _, _ => false

def maxExact : Nat := 2 ^ (53 : Nat)

/-- An integer, as a token where a double might not hold it. -/
def ofInt (n : Int) : Number :=
  if n.natAbs > maxExact then .token (toString n) else .double (.ofInt n)

/-- The text of a double in a message: plain digits without an exponent. -/
def displayDouble (d : Double) : List Char :=
  match d.toInt? with
  | some n =>
    if n.natAbs < maxExact then (Numeral.ofInt n).text
    else ((Decimal.shortest? .up d).map Decimal.plain).getD []
  | none => ((Decimal.shortest? .up d).map Decimal.plain).getD "null".toList

def display : Number → List Char
  | .double d => displayDouble d
  | .token text => text.toList

/-- The integer that JSON text shows for a double: any of 64 bits, signed or unsigned. -/
def wordOfDouble? (d : Double) : Option Int :=
  d.toInt?.filter fun n => -2 ^ (63 : Nat) < n ∧ n < 2 ^ (64 : Nat)

/-- A number as a constant; `null` for a double that is not finite. A token is read as an integer
of 64 bits, or else as a double. -/
def toLiteral : Number → Except Fault Literal
  | .double d => .ok (ofDouble d)
  | .token text =>
    let cs := trimmed text
    match (readInt64? cs).or (readUInt64? cs) with
    | some n => .ok (.integer n)
    | none =>
      match Double.read? cs with
      | some d => .ok (ofDouble d)
      | none => .error (.unwritable (String.ofList cs))
where
  ofDouble (d : Double) : Literal :=
    match wordOfDouble? d with
    | some n => .integer n
    | none => if d.isFinite then .double d else .null

def toJson (n : Number) : Except Fault Json := n.toLiteral.map Literal.toJson

end Number

end JsonQuery

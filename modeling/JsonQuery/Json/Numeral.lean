import JsonQuery.Decimal.Reader

/-!
The numbers of JSON text: an integer, or a decimal as it is spelled. Which kind a number is shows in its
text alone, so `1` and `1.0` differ. What is no integer of 64 bits is read as a double that is near it,
though it need not be the nearest one.
-/
namespace JsonQuery

attribute [local instance (20000)] instPowNat

inductive Numeral where
  | integer (negative : Bool) (magnitude : Nat)
  | decimal (value : Decimal)
  deriving DecidableEq

namespace Numeral

def ofInt (n : Int) : Numeral := .integer (n < 0) n.natAbs

def text : Numeral → List Char
  | .integer negative magnitude => Decimal.sign negative ++ Nat.toDigits 10 magnitude
  | .decimal value => value.layout

/-- An integer has no zero before another digit. -/
def isWhole (cs : List Char) : Bool :=
  !cs.isEmpty && (cs.length == 1 || cs.head? != some '0')

/-- Reads `-`, an integer part, and at least a fraction or an exponent to make a decimal. -/
def read? (cs : List Char) : Option Numeral :=
  let negative : Bool := cs.head? = some '-'
  let (whole, pointed, rest) := Decimal.splitDigits (if negative then cs.tail else cs)
  if !isWhole whole || pointed == some [] then none
  else if pointed.isNone && rest.isEmpty then
    some (.integer negative (Nat.ofDigitChars 10 whole 0))
  else
    (Decimal.readExponent? rest).map fun e =>
      .decimal (Decimal.ofDigits negative whole (pointed.getD []) e)

/-- The integer of 64 bits, signed or unsigned, that a numeral is. The numeral `-0` is none, since no
integer keeps its sign. -/
def word? : Numeral → Option Int
  | .integer true 0 | .decimal _ => none
  | .integer negative magnitude =>
    let n := Double.signed negative magnitude
    if -2 ^ (63 : Nat) ≤ n ∧ n < 2 ^ (64 : Nat) then some n else none

def int64? (n : Numeral) : Option Int64 :=
  n.word?.bind fun n => if n < 2 ^ (63 : Nat) then some (Int64.ofInt n) else none

/-- What a JSON number stands for: an integer of 64 bits, or else a finite double. -/
inductive Meaning where
  | integer (n : Int)
  | double (d : Double)
  deriving DecidableEq

def finite? (d : Double) : Option Meaning := if d.isFinite then some (.double d) else none

end Numeral

/-- The double that is read for the digits of a numeral. -/
structure Reading where
  double : Decimal → Double

def Reading.nearest : Reading := ⟨Decimal.toDouble⟩

def Numeral.meaning? (r : Reading) (n : Numeral) : Option Meaning :=
  match n.word?, n with
  | some n, _ => some (.integer n)
  | none, .integer true 0 => some (.double (.zero true))
  | none, .integer negative magnitude => finite? (r.double ⟨negative, magnitude, 0⟩)
  | none, .decimal value => finite? (r.double value)

end JsonQuery

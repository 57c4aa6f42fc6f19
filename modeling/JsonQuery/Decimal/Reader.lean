import JsonQuery.Decimal.Basic

/-!
Reading numbers from free text: integers with an optional sign, and doubles in decimal or by the
names of the numbers that have no digits.
-/
namespace JsonQuery

attribute [local instance (20000)] instPowNat

def readNat? (cs : List Char) : Option Nat :=
  if cs.isEmpty || !cs.all Char.isDigit then none else some (Nat.ofDigitChars 10 cs 0)

def splitSign : List Char → Bool × List Char
  | '-' :: rest => (true, rest)
  | '+' :: rest => (false, rest)
  | cs => (false, cs)

def readInt? (cs : List Char) : Option Int :=
  let (negative, rest) := splitSign cs
  (readNat? rest).map fun n => if negative then -n else n

def readIntIn? (low high : Int) (cs : List Char) : Option Int :=
  (readInt? cs).filter fun n => low ≤ n ∧ n ≤ high

def readInt64? : List Char → Option Int := readIntIn? (-2 ^ (63 : Nat)) (2 ^ (63 : Nat) - 1)

def readInt128? : List Char → Option Int := readIntIn? (-2 ^ (127 : Nat)) (2 ^ (127 : Nat) - 1)

/-- An unsigned integer of 64 bits, for which a minus sign is no sign. -/
def readUInt64? (cs : List Char) : Option Int :=
  if cs.head? = some '-' then none else readIntIn? 0 (2 ^ (64 : Nat) - 1) cs

namespace Decimal

def readExponent? : List Char → Option Int
  | [] => some 0
  | c :: rest => if c = 'e' ∨ c = 'E' then readInt? rest else none

/-- Leading digits, the digits after a point if one follows them, and what is left. -/
def splitDigits (cs : List Char) : List Char × Option (List Char) × List Char :=
  let whole := cs.takeWhile Char.isDigit
  match cs.dropWhile Char.isDigit with
  | '.' :: rest => (whole, some (rest.takeWhile Char.isDigit), rest.dropWhile Char.isDigit)
  | rest => (whole, none, rest)

def ofDigits (negative : Bool) (whole fraction : List Char) (exponent : Int) : Decimal :=
  ⟨negative, Nat.ofDigitChars 10 (whole ++ fraction) 0, exponent - fraction.length⟩

/-- Digits with at most one point among or around them, then an exponent. -/
def readUnsigned? (negative : Bool) (cs : List Char) : Option Decimal :=
  let (whole, pointed, rest) := splitDigits cs
  let fraction := pointed.getD []
  if whole.isEmpty && fraction.isEmpty then none
  else (readExponent? rest).map (ofDigits negative whole fraction)

end Decimal

/-- A double: a decimal, or `inf`, `infinity` or `nan` in any case, after an optional sign. -/
def Double.read? (cs : List Char) : Option Double :=
  let (negative, rest) := splitSign cs
  let word := rest.map Char.toLower
  if word = "inf".toList ∨ word = "infinity".toList then some (.infinite negative)
  else if word = "nan".toList then some (.quietNaN negative)
  else (Decimal.readUnsigned? negative rest).map Decimal.toDouble

end JsonQuery

import JsonQuery.Double.Basic

/-!
Decimal numbers `± mantissa · 10 ^ exponent`, their nearest doubles and their two layouts: the one
of JSON numbers, which turns to exponents for very large and very small numbers, and the plain one,
which never does.
-/
namespace JsonQuery

attribute [local instance (20000)] instPowNat

structure Decimal where
  negative : Bool
  mantissa : Nat
  exponent : Int
  deriving DecidableEq

namespace Decimal

/-- The nearest double. Exponents that can only overflow or vanish are not expanded. -/
def toDouble (d : Decimal) : Double :=
  if d.mantissa = 0 then .zero d.negative
  else if 400 < d.exponent then .infinite d.negative
  else if d.exponent < -(400 + d.mantissa.log2) then .zero d.negative
  else
    .ofRatio d.negative (d.mantissa * 10 ^ d.exponent.toNat * Double.one) (10 ^ (-d.exponent).toNat)

def stripZeros : Nat → Nat → Int → Nat × Int
  | fuel + 1, mantissa, exponent =>
    if mantissa % 10 = 0 then stripZeros fuel (mantissa / 10) (exponent + 1)
    else (mantissa, exponent)
  | 0, mantissa, exponent => (mantissa, exponent)

/-- The same number with the shortest mantissa; a zero has exponent 0. -/
def normal (d : Decimal) : Decimal :=
  if d.mantissa = 0 then ⟨d.negative, 0, 0⟩
  else
    let (mantissa, exponent) := stripZeros d.mantissa.log2 d.mantissa d.exponent
    ⟨d.negative, mantissa, exponent⟩

def digits (d : Decimal) : List Char := Nat.toDigits 10 d.mantissa

/-- Place of the decimal point, counted from before the first digit. -/
def point (d : Decimal) : Int := d.digits.length + d.exponent

def sign (negative : Bool) : List Char := if negative then ['-'] else []

def zeros (n : Int) : List Char := List.replicate n.toNat '0'

/-- Digits around the point, with nothing after the point of an integer. -/
def plain (d : Decimal) : List Char :=
  sign d.negative ++
    if 0 ≤ d.exponent then d.digits ++ zeros d.exponent
    else if 0 < d.point then d.digits.take d.point.toNat ++ '.' :: d.digits.drop d.point.toNat
    else '0' :: '.' :: zeros (-d.point) ++ d.digits

def withExponent (d : Decimal) : List Char :=
  let power := d.point - 1
  sign d.negative ++
    (match d.digits with
    | first :: second :: rest => first :: '.' :: second :: rest
    | few => few) ++
    'e' :: (if power < 0 then '-' else '+') :: Nat.toDigits 10 power.natAbs

/-- The layout of JSON numbers with a fraction: plain, with `.0` on an integer, as long as the point
falls among the first sixteen digits or at most four zeros follow it. -/
def layout (d : Decimal) : List Char :=
  if d.mantissa = 0 then sign d.negative ++ ['0', '.', '0']
  else if -5 < d.point ∧ d.point ≤ 16 then
    if 0 ≤ d.exponent then d.plain ++ ['.', '0'] else d.plain
  else d.withExponent

end Decimal

end JsonQuery

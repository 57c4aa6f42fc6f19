import JsonQuery.Decimal.Basic

/-!
The fewest digits that read back as a given double. For one digit, then two, and so on, the two
neighbours of the number on the decimal grid are read back; the first grid with a hit gives the
digits, the nearer neighbour when both hit.
-/
namespace JsonQuery.Decimal

attribute [local instance (20000)] instPowNat

/-- Which neighbour stands for a number halfway between two that both read back. -/
inductive Tie where
  | even
  | up
  deriving DecidableEq

/-- Places before the decimal point of a positive number of units, negative below one tenth. -/
def places (units : Nat) : Int := ((Nat.toDigits 10 (units * 10 ^ (400 : Nat) / Double.one)).length : Int) - 400

/-- The two sides of `units` against the grid of multiples of `10 ^ exponent`: the multiple below,
the distance to it and the distance to the next, in a common unit. -/
def neighbours (units : Nat) (exponent : Int) : Nat × Nat × Nat :=
  let num := units * 10 ^ (-exponent).toNat
  let den := Double.one * 10 ^ exponent.toNat
  (num / den, num % den, den - num % den)

def readsAs (d : Decimal) (units : Nat) : Bool :=
  match d.toDouble with
  | .finite _ u _ => u == units
  | _ => false

/-- The nearer neighbour that reads back as the number itself. -/
def onGrid (tie : Tie) (negative : Bool) (units : Nat) (exponent : Int) : Option Decimal :=
  let (below, lower, upper) := neighbours units exponent
  let down := normal ⟨negative, below, exponent⟩
  let up := normal ⟨negative, below + 1, exponent⟩
  let upFirst := upper < lower ∨ (upper = lower ∧ (tie = .up ∨ below % 2 = 1))
  (if upFirst then [up, down] else [down, up]).find? (·.readsAs units)

def exact (negative : Bool) (units : Nat) : Decimal := ⟨negative, units * 5 ^ (1074 : Nat), -1074⟩

/-- The shortest decimal that reads back as a finite double with the given sign and units. -/
def shortestOfUnits (tie : Tie) (negative : Bool) (units : Nat) : Decimal :=
  if units = 0 then ⟨negative, 0, 0⟩
  else
    let top := places units
    ((List.range 17).findSome? fun n : Nat =>
      onGrid tie negative units (top - (n + 1))).getD (exact negative units)

def shortest? (tie : Tie) : Double → Option Decimal
  | .finite negative units _ => some (shortestOfUnits tie negative units)
  | _ => none

end JsonQuery.Decimal

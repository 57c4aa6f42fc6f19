/-!
Binary64 numbers in exact arithmetic. A finite number is a sign and a whole number of units, one
unit being the least positive double `2 ^ (-1074)`; the numbers of units that occur are those below
`2 ^ 2098` with at most 53 significant bits. `Double.ofRatio` rounds a quotient to the nearest
double and a tie to the even neighbour.
-/
namespace JsonQuery

-- Powers in definitions are the built-in ones, also where numbers are known to be a monoid.
attribute [local instance (20000)] instPowNat

namespace Double

/-- Units in the number one. -/
def one : Nat := 2 ^ (1074 : Nat)

/-- Units beyond every finite double. -/
def limit : Nat := 2 ^ (2098 : Nat)

theorem one_pos : 0 < one := by unfold one; exact Nat.two_pow_pos 1074

theorem limit_pos : 0 < limit := by unfold limit; exact Nat.two_pow_pos 2098

/-- Low bits that are zero in a number of units with 53 significant bits. -/
def spareBits (units : Nat) : Nat := units.log2 - 52

def Representable (units : Nat) : Prop := units < limit ∧ units % 2 ^ spareBits units = 0

instance (units : Nat) : Decidable (Representable units) := by
  unfold Representable; infer_instance

theorem representable_zero : Representable 0 := ⟨limit_pos, Nat.zero_mod _⟩

/-- The quotient rounded to the nearest integer, a tie to the even one. -/
def roundDiv (num den : Nat) : Nat :=
  let quotient := num / den
  let twice := 2 * (num % den)
  if den < twice ∨ (twice = den ∧ quotient % 2 = 1) then quotient + 1 else quotient

theorem roundDiv_le (num den : Nat) : roundDiv num den ≤ num / den + 1 := by
  unfold roundDiv
  dsimp only
  split <;> omega

theorem roundDiv_one (num : Nat) : roundDiv num 1 = num := by
  simp [roundDiv, Nat.mod_one]

def roundUnits (num den : Nat) : Nat :=
  let step := 2 ^ spareBits (num / den)
  roundDiv num (den * step) * step

private theorem scaled_quotient_lt (num den : Nat) :
    num / (den * 2 ^ spareBits (num / den)) < 2 ^ (53 : Nat) := by
  rw [← Nat.div_div_eq_div_mul]
  apply Nat.div_lt_of_lt_mul
  rw [← Nat.pow_add]
  apply Nat.lt_of_lt_of_le (Nat.lt_log2_self)
  apply Nat.pow_le_pow_right (by decide)
  unfold spareBits
  omega

theorem mod_spareBits_mul (k s : Nat) (h : k ≤ 2 ^ (53 : Nat)) : k * 2 ^ s % 2 ^ spareBits (k * 2 ^ s) = 0 := by
  rcases Nat.eq_zero_or_pos k with rfl | pos
  · simp
  rcases Nat.lt_or_eq_of_le h with less | rfl
  · have small : spareBits (k * 2 ^ s) ≤ s := by
      have : (k * 2 ^ s).log2 < 53 + s := by
        apply (Nat.log2_lt (Nat.mul_ne_zero (by omega) (Nat.ne_of_gt (Nat.two_pow_pos s)))).2
        rw [Nat.pow_add]
        exact Nat.mul_lt_mul_of_pos_right less (Nat.two_pow_pos s)
      unfold spareBits
      omega
    exact Nat.mod_eq_zero_of_dvd (Nat.dvd_mul_left_of_dvd (Nat.pow_dvd_pow 2 small) k)
  · rw [← Nat.pow_add]
    have : spareBits (2 ^ (53 + s)) = 1 + s := by
      unfold spareBits
      rw [Nat.log2_two_pow]
      omega
    rw [this, show 53 + s = 52 + (1 + s) by omega, Nat.pow_add]
    exact Nat.mul_mod_left _ _

theorem roundUnits_mod (num den : Nat) :
    roundUnits num den % 2 ^ spareBits (roundUnits num den) = 0 := by
  apply mod_spareBits_mul
  exact Nat.le_trans (roundDiv_le _ _) (scaled_quotient_lt num den)

theorem roundUnits_of_mod {units : Nat} (h : units % 2 ^ spareBits units = 0) :
    roundUnits units 1 = units := by
  unfold roundUnits roundDiv
  simp only [Nat.div_one, Nat.one_mul, h, Nat.mul_zero]
  rw [if_neg (by have := Nat.two_pow_pos (spareBits units); omega)]
  exact Nat.div_mul_cancel (Nat.dvd_of_mod_eq_zero h)

def Payload (fraction : Nat) : Prop := 0 < fraction ∧ fraction < 2 ^ (52 : Nat)

instance (fraction : Nat) : Decidable (Payload fraction) := by
  unfold Payload; infer_instance

end Double

/-- A binary64 number. -/
inductive Double where
  | nan (negative : Bool) (fraction : Nat) (payload : Double.Payload fraction)
  | infinite (negative : Bool)
  | finite (negative : Bool) (units : Nat) (representable : Double.Representable units)
  deriving DecidableEq

namespace Double

def zero (negative : Bool) : Double := .finite negative 0 representable_zero

def quietNaN (negative : Bool) : Double := .nan negative (2 ^ (51 : Nat)) (by decide)

instance : Inhabited Double := ⟨zero false⟩

/-- The double nearest to `num / den` units, infinite beyond the largest. -/
def ofRatio (negative : Bool) (num den : Nat) : Double :=
  if h : roundUnits num den < limit then
    .finite negative (roundUnits num den) ⟨h, roundUnits_mod num den⟩
  else .infinite negative

theorem ofRatio_units {units : Nat} (negative : Bool) (h : Representable units) :
    ofRatio negative units 1 = .finite negative units h := by
  unfold ofRatio
  simp [roundUnits_of_mod h.2, h.1]

def ofInt (n : Int) : Double := ofRatio (n < 0) (n.natAbs * one) 1

def ofNat (n : Nat) : Double := ofRatio false (n * one) 1

def isNaN : Double → Bool
  | .nan .. => true
  | _ => false

def isFinite : Double → Bool
  | .finite .. => true
  | _ => false

def isNegative : Double → Bool
  | .nan negative .. | .infinite negative | .finite negative .. => negative

def signed (negative : Bool) (magnitude : Nat) : Int := if negative then -magnitude else magnitude

/-- Place in the order of numbers, the infinities beyond all finite ones; a NaN has none and both
zeros have the same. -/
def rank? : Double → Option Int
  | .nan .. => none
  | .infinite negative => some (signed negative limit)
  | .finite negative units _ => some (signed negative units)

def compare? (a b : Double) : Option Ordering :=
  match a.rank?, b.rank? with
  | some x, some y => some (compare x y)
  | _, _ => none

/-- Numeric equality: the zeros are equal and a NaN equals nothing. -/
def same (a b : Double) : Bool := a.compare? b == some .eq

def less (a b : Double) : Bool := a.compare? b == some .lt

def lessOrEqual (a b : Double) : Bool := a.less b || a.same b

def toInt? : Double → Option Int
  | .finite negative units _ =>
    if units % one = 0 then some (signed negative (units / one)) else none
  | _ => none

def isIntegral (d : Double) : Bool := d.toInt?.isSome

/-- Exponent and fraction as one number: below `2 ^ 53` units are written as they are, and each
further binary place adds one to the exponent. -/
def magnitudeBits : Double → Nat
  | .nan _ fraction _ => 2047 * 2 ^ (52 : Nat) + fraction
  | .infinite _ => 2047 * 2 ^ (52 : Nat)
  | .finite _ units _ => spareBits units * 2 ^ (52 : Nat) + units / 2 ^ spareBits units

def toBits (d : Double) : Nat :=
  (if d.isNegative then 2 ^ (63 : Nat) else 0) + d.magnitudeBits

theorem same_comm (a b : Double) : a.same b = b.same a := by
  unfold same compare?
  rcases a.rank? with _ | x <;> rcases b.rank? with _ | y <;> try rfl
  rw [Bool.eq_iff_iff]
  simp only [Option.some_beq_some, beq_iff_eq, Std.compare_eq_iff_eq]
  exact eq_comm

end Double

end JsonQuery

import JsonQuery.Double.Basic

/-!
Arithmetic on doubles: each operation is its exact result rounded once, with the signs of zeros and of
NaNs that binary64 prescribes. An operation without a result gives the negative quiet NaN, and one on a
NaN keeps what is in its fraction, as the usual processors do.
-/
namespace JsonQuery.Double

attribute [local instance (20000)] instPowNat

def quieted (negative : Bool) (fraction : Nat) (payload : Payload fraction) : Double :=
  if unset : fraction < 2 ^ (51 : Nat) then
    .nan negative (fraction + 2 ^ (51 : Nat)) ⟨Nat.lt_add_right _ payload.1, by omega⟩
  else .nan negative fraction payload

def abs : Double → Double
  | .nan _ fraction payload => .nan false fraction payload
  | .infinite _ => .infinite false
  | .finite _ units h => .finite false units h

def floor : Double → Double
  | .finite negative units _ =>
    let whole := units / one
    let up := if negative ∧ units % one ≠ 0 then whole + 1 else whole
    ofRatio negative (up * one) 1
  | .nan negative fraction payload => quieted negative fraction payload
  | .infinite negative => .infinite negative

/-- The smallest integer not below; the sign stays, so a small negative number gives `-0`. -/
def ceil : Double → Double
  | .finite negative units _ =>
    let whole := units / one
    let up := if ¬ negative ∧ units % one ≠ 0 then whole + 1 else whole
    ofRatio negative (up * one) 1
  | .nan negative fraction payload => quieted negative fraction payload
  | .infinite negative => .infinite negative

/-- The sum; opposite numbers add to `+0`, and two negative zeros to `-0`. -/
def add : Double → Double → Double
  | .nan n fraction payload, _ => quieted n fraction payload
  | _, .nan n fraction payload => quieted n fraction payload
  | .infinite m, .infinite n => if m = n then .infinite m else quietNaN true
  | .infinite n, .finite .. => .infinite n
  | .finite .., .infinite n => .infinite n
  | .finite m a _, .finite n b _ =>
    let sum := signed m a + signed n b
    if sum = 0 then zero (m && n) else ofRatio (sum < 0) sum.natAbs 1

instance : Add Double := ⟨add⟩

def div : Double → Double → Double
  | .nan n fraction payload, _ => quieted n fraction payload
  | _, .nan n fraction payload => quieted n fraction payload
  | .infinite _, .infinite _ => quietNaN true
  | .infinite m, .finite n .. => .infinite (m != n)
  | .finite m .., .infinite n => zero (m != n)
  | .finite m a _, .finite n b _ =>
    if b = 0 then
      if a = 0 then quietNaN true else .infinite (m != n)
    else ofRatio (m != n) (a * one) b

instance : Div Double := ⟨div⟩

/-- The nearest 64-bit integer toward zero: beyond the range the nearer end of it, and 0 for NaN. -/
def toInt64 (d : Double) : Int64 :=
  match d with
  | .nan .. => 0
  | .infinite negative => if negative then Int64.minValue else Int64.maxValue
  | .finite negative units _ =>
    let whole := signed negative (units / one)
    if whole < -2 ^ (63 : Nat) then Int64.minValue
    else if whole ≥ 2 ^ (63 : Nat) then Int64.maxValue
    else Int64.ofInt whole

end JsonQuery.Double

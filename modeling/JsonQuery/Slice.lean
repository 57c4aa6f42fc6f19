import JsonQuery.Expr.Basic
import JsonQuery.Fault

/-!
Slices of sequences. A slice walks from its start in steps until it reaches its stop; bounds are words
of 64 bits, and a walk that would leave their range ends.
-/
namespace JsonQuery.Slice

attribute [local instance (20000)] instPowNat

variable {α : Type}

def checkedAdd (a b : Int64) : Option Int64 :=
  let sum := a.toInt + b.toInt
  if -2 ^ (63 : Nat) ≤ sum ∧ sum < 2 ^ (63 : Nat) then some (Int64.ofInt sum) else none

/-- Items at `place`, `place + step` and so on as long as `more` holds of the places; at most `room` of
them. -/
def walk (items : Array α) (step : Int64) (more : Int64 → Bool) : Nat → Int64 → List α
  | 0, _ => []
  | room + 1, place =>
    if more place then
      (items[place.toInt.toNat]?).toList ++
        match checkedAdd place step with
        | some next => walk items step more room next
        | none => []
    else []

def ahead (step stop place : Int64) : Bool := (0 < step ∧ place < stop) ∨ (step < 0 ∧ stop < place)

def within (stop length place : Int64) : Bool := place < stop ∧ place < length

/-- A bound counted from the end if it is negative, then moved into the sequence. -/
def clamp (length bound step : Int64) : Int64 :=
  if bound < 0 then
    let shifted := bound + length
    if 0 ≤ shifted then shifted else if step < 0 then -1 else 0
  else if length ≤ bound then
    if step < 0 then length - 1 else length
  else bound

/-- The slice of an expression: a negative step walks backwards, and a missing bound is the end of the
sequence on its side. -/
def bidirectional (items : List α) (bounds : SliceBounds) : Except Fault (List α) :=
  let step := bounds.step.getD 1
  if step = 0 then .error (.slice .zeroStep)
  else
    let length := Int64.ofNat items.length
    let start := match bounds.start with
      | some n => clamp length n step
      | none => if step < 0 then length - 1 else 0
    let stop := match bounds.stop with
      | some n => clamp length n step
      | none => if step < 0 then -1 else length
    .ok (walk items.toArray step (ahead step stop) items.length start)

/-- The slice of the function `slice`: forward only, and empty unless it starts inside. -/
def forward (items : List α) (start stop step : Int64) : Except Fault (List α) :=
  if step ≤ 0 then .error (.slice (.stepNotPositive step.toInt))
  else
    let length := Int64.ofNat items.length
    if start < 0 ∨ length ≤ start then .ok []
    else .ok (walk items.toArray step (within stop length) items.length start)

end JsonQuery.Slice

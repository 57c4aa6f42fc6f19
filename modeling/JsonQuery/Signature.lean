import JsonQuery.Value.Display

/-!
Signatures of functions. An argument is admitted by the first class of its parameter that it belongs
to and reaches the function as a slot of that class. A function whose last parameter is variadic gets
all arguments unchecked, as long as there are enough of them.
-/
namespace JsonQuery

/-- An argument as a function gets it. -/
inductive Slot where
  | number (n : Number)
  | string (s : String)
  | array (items : List Value)
  | object (members : List (String × Value))
  | reference (identity : Identity) (body : Expr)
  | numbers (items : List Number)
  | strings (items : List String)
  | any (v : Value)

namespace Slot

def toValue : Slot → Value
  | .number n => .number n
  | .string s => .string s
  | .array items => .array items
  | .object members => .object members
  | .reference identity body => .reference identity body
  | .numbers items => .array (items.map .number)
  | .strings items => .array (items.map .string)
  | .any v => v

def typeClass : Slot → TypeClass
  | .number _ => .number
  | .string _ => .string
  | .array _ => .array
  | .object _ => .object
  | .reference .. => .reference
  | .numbers _ => .numbers
  | .strings _ => .strings
  | .any _ => .any

end Slot

def TypeClass.admit? : TypeClass → Value → Option Slot
  | .any, v => some (.any v)
  | .number, .number n => some (.number n)
  | .string, .string s => some (.string s)
  | .object, .object members => some (.object members)
  | .reference, .reference identity body => some (.reference identity body)
  | .array, v => v.sequence?.map .array
  | .numbers, v => do return .numbers (← (← v.sequence?).mapM Value.number?)
  | .strings, v => do return .strings (← (← v.sequence?).mapM Value.string?)
  | _, _ => none

structure Parameter where
  accepts : List TypeClass
  variadic : Bool
  deriving DecidableEq

namespace Parameter

def of (accepts : List TypeClass) : Parameter := ⟨accepts, false⟩

def rest (accepts : List TypeClass) : Parameter := ⟨accepts, true⟩

def check (p : Parameter) (function : String) (position : Nat) (v : Value) : Except Fault Slot :=
  match p.accepts.findSome? (·.admit? v) with
  | some slot => .ok slot
  | none => .error (.mismatch function position v.display p.accepts)

/-- Checks each argument against its parameter, the first one standing at `position`. -/
def checkAll (function : String) : Nat → List Parameter → List Value → Except Fault (List Slot)
  | position, p :: ps, v :: vs => do
    return (← p.check function position v) :: (← checkAll function (position + 1) ps vs)
  | _, _, _ => return []

def isVariadic (ps : List Parameter) : Bool := ps.getLast?.any (·.variadic)

def resolve (function : String) (ps : List Parameter) (args : List Value) :
    Except Fault (List Slot) :=
  if isVariadic ps then
    if ps.length ≤ args.length then .ok (args.map .any)
    else .error (.arity function ps.length args.length true)
  else if args.length = ps.length then checkAll function 0 ps args
  else .error (.arity function ps.length args.length false)

end Parameter

end JsonQuery

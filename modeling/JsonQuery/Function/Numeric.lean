import JsonQuery.Double.Arithmetic
import JsonQuery.Function.Basic
import JsonQuery.Text.Basic

/-!
Functions on numbers.
-/
namespace JsonQuery.Function

def numericValue (function : Builtin) (n : Number) : Except Fault Double :=
  match n.toDouble? with
  | some d => .ok d
  | none => .error (.number (.noValue function.name (String.ofList n.display)))

def unary (function : Builtin) (op : Double → Double) : List Slot → Except Fault Value
  | [.number n] => (numericValue function n).map fun d => .ofDouble (op d)
  | _ => .error function.misfit

def abs : List Slot → Except Fault Value := unary .abs Double.abs

def ceil : List Slot → Except Fault Value := unary .ceil Double.ceil

def floor : List Slot → Except Fault Value := unary .floor Double.floor

/-- The sum of numbers from the left, starting at zero. -/
def total (function : Builtin) (items : List Number) : Except Fault Double := do
  let doubles ← items.mapM (numericValue function)
  return doubles.foldl Double.add (.zero false)

def sum : List Slot → Except Fault Value
  | [.numbers items] => (total .sum items).map .ofDouble
  | _ => .error Builtin.sum.misfit

/-- The mean; of no numbers it is no number. -/
def avg : List Slot → Except Fault Value
  | [.numbers items] => (total .avg items).map fun d => .ofDouble (d / .ofNat items.length)
  | _ => .error Builtin.avg.misfit

/-- The double of a value that is one or reads as one; null for other values of JSON. -/
def toNumber : List Slot → Except Fault Value
  | [.any v] =>
    match v with
    | .number (.double d) => .ok (.ofDouble d)
    | .number n => .ok ((n.toDouble?.map .ofDouble).getD .null)
    | .string s => .ok (((Double.read? (Text.trim s.toList)).map .ofDouble).getD .null)
    | .reference .. | .record _ => .error (.type (.noNumber v.kind))
    | _ => .ok .null
  | _ => .error Builtin.toNumber.misfit

end JsonQuery.Function

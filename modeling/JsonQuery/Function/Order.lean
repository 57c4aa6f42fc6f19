import JsonQuery.Double.Arithmetic
import JsonQuery.Function.Numeric
import JsonQuery.Sorter

/-!
Order by keys that are numbers or texts, and the functions of arrays whose elements are keys themselves.
-/
namespace JsonQuery

inductive SortKey where
  | number (d : Double)
  | text (s : String)
  deriving DecidableEq

namespace SortKey

def kind : SortKey → Kind
  | .number _ => .number
  | .text _ => .string

/-- Numbers by value, a NaN level with everything, and texts by code points. -/
def order : SortKey → SortKey → Ordering
  | .number a, .number b => (a.compare? b).getD .eq
  | .text s, .text t => compare s t
  | _, _ => .eq

/-- The key by which equal keys are recognised: both zeros have the same. -/
def canonical : SortKey → SortKey
  | .number d => .number (if d.same (.zero false) then .zero false else d)
  | k => k

end SortKey

namespace Function

variable {α : Type}

/-- The elements whose key is not among those before or those in `seen`. -/
def distinctAfter (key : α → SortKey) : List SortKey → List α → List α
  | _, [] => []
  | seen, x :: rest =>
    let k := (key x).canonical
    if k ∈ seen then distinctAfter key seen rest else x :: distinctAfter key (k :: seen) rest

def extremeNumber (function : Builtin) (wanted : Ordering) (items : List Number) :
    Except Fault (Option (Double × Number)) :=
  items.foldlM (fun best n => do
    let current ← numericValue function n
    let better := best.all fun (value, _) => current.compare? value = some wanted
    return if better then some (current, n) else best) none

def extremeText (wanted : Ordering) (items : List String) : Option String :=
  items.foldl (fun best s => if best.all fun b => compare s b = wanted then some s else best) none

def extremum (function : Builtin) (wanted : Ordering) : List Slot → Except Fault Value
  | [.numbers items] => do
    let best ← extremeNumber function wanted items
    return (best.map fun (_, n) => .number n).getD .null
  | [.strings items] => .ok (((extremeText wanted items).map .string).getD .null)
  | _ => .error function.misfit

def max : List Slot → Except Fault Value := extremum .max .gt

def min : List Slot → Except Fault Value := extremum .min .lt

def sortedArray : Option (List Value) → Except Fault Value
  | some items => .ok (.array items)
  | none => .error .disorder

def valued (function : Builtin) (items : List Number) : Except Fault (List (Double × Number)) :=
  items.mapM fun n => return (← numericValue function n, n)

def sort (sorter : Sorter) : List Slot → Except Fault Value
  | [.strings items] => sortedArray ((sorter.sort compare items).map (List.map .string))
  | [.numbers items] => do
    let keyed ← valued .sort items
    let sorted := sorter.sort (fun a b => (a.1.compare? b.1).getD .eq) keyed
    sortedArray (sorted.map (List.map fun (_, n) => .number n))
  | _ => .error Builtin.sort.misfit

/-- The elements of the first slot with their keys. Only this slot counts. -/
def keyed (function : Builtin) (slots : List Slot) : Except Fault (List (SortKey × Value)) :=
  match slots.head? with
  | some (.strings items) => .ok (items.map fun s => (.text s, .string s))
  | some (.numbers items) => (valued function items).map (List.map fun (d, n) => (.number d, .number n))
  | _ => .error function.misfit

def dedup (slots : List Slot) : Except Fault Value := do
  let items ← keyed .dedup slots
  return .array ((distinctAfter Prod.fst [] items).map Prod.snd)

end Function

end JsonQuery

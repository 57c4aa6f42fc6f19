import JsonQuery.Function.Basic
import JsonQuery.Slice
import JsonQuery.Text.Basic
import JsonQuery.Value.Coercion

/-!
Functions on sequences, some of which also take texts.
-/
namespace JsonQuery.Function

def length : List Slot → Except Fault Value
  | [.string s] => .ok (.ofNat s.toList.length)
  | [.array items] => .ok (.ofNat items.length)
  | [.object members] => .ok (.ofNat members.length)
  | _ => .error (.type .noLength)

def textContains (subject : String) : Value → Bool
  | .string needle => Text.contains needle.toList subject.toList
  | _ => false

def contains : List Slot → Except Fault Value
  | [.string subject, .any v] => .ok (.bool (textContains subject v))
  | [.array items, .any v] => .ok (.bool (items.any (·.same v)))
  | _ => .error Builtin.contains.misfit

def containsAny : List Slot → Except Fault Value
  | [subject, .any v] =>
    match v.sequence? with
    | none => .error (.type (.noCandidates v.kind))
    | some candidates =>
      match subject with
      | .array items =>
        .ok (.bool (items.any fun item => candidates.any fun candidate => item.same candidate))
      | .string s => .ok (.bool (candidates.any (textContains s)))
      | _ => .error Builtin.containsAny.misfit
  | _ => .error Builtin.containsAny.misfit

/-- The rows of columns, as many as the shortest column has. -/
def rows (columns : List (List Value)) : List Value :=
  (List.range (((columns.map List.length).min?).getD 0)).map fun i =>
    .array (columns.map fun column => (column[i]?).getD .null)

/-- No rows at all when some argument is no sequence. -/
def zip (slots : List Slot) : Except Fault Value :=
  .ok (.array (((slots.mapM fun slot : Slot => slot.toValue.sequence?).map rows).getD []))

def reverse : List Slot → Except Fault Value
  | [.array items] => .ok (.array items.reverse)
  | [.string s] => .ok (.string (String.ofList s.toList.reverse))
  | _ => .error Builtin.reverse.misfit

def toArray : List Slot → Except Fault Value
  | [.any v] => .ok v.toArray
  | _ => .error Builtin.toArray.misfit

def notNull (slots : List Slot) : Except Fault Value :=
  .ok (((slots.map Slot.toValue).find? (!·.isNull)).getD .null)

/-- A bound of a slice: the integer part of whatever reads as a finite number. -/
def bound (v : Value) : Except Fault Int64 :=
  match v.coerce?.filter Double.isFinite with
  | some d => .ok d.toInt64
  | none => .error (.number (.noBound v.display))

def slice (slots : List Slot) : Except Fault Value :=
  match slots.map Slot.toValue with
  | subject :: start :: stop :: rest =>
    if 1 < rest.length then .error (.arity Builtin.slice.name 4 slots.length false)
    else
      match subject.sequence? with
      | none => .error (.type (.noSliceSubject subject.kind))
      | some items => do
        let start ← bound start
        let stop ← bound stop
        let step ← match rest.head? with
          | some v => bound v
          | none => .ok 1
        return .array (← Slice.forward items start stop step)
  | _ => .error (.arity Builtin.slice.name 3 slots.length false)

def exchange (swaps : List (Nat × Nat)) (items : List Value) : List Value :=
  (swaps.foldl (fun a (i, j) => a.swapIfInBounds i j) items.toArray).toList

end JsonQuery.Function

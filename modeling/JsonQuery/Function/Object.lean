import JsonQuery.Function.Text

/-!
Functions on objects, and the names of kinds.
-/
namespace JsonQuery.Function

def keys : List Slot → Except Fault Value
  | [.object members] => .ok (.array ((Keyed.keys members).map .string))
  | _ => .error Builtin.keys.misfit

def values : List Slot → Except Fault Value
  | [.object members] => .ok (.array (Keyed.values members))
  | _ => .error Builtin.values.misfit

def items : List Slot → Except Fault Value
  | [.object members] => .ok (.array (members.map fun (key, v) => .array [.string key, v]))
  | _ => .error Builtin.items.misfit

def get : List Slot → Except Fault Value
  | [.object members, .string key] =>
    match Keyed.get? key members with
    | some v => .ok v
    | none => .error (.keyNotFound key)
  | _ => .error Builtin.get.misfit

def mergeMembers (v : Value) : Except Fault (List (String × Value)) :=
  match v.object? with
  | some members => .ok members
  | none => .error (.type (.noMergeObject v.kind))

def merge (slots : List Slot) : Except Fault Value := do
  let objects ← slots.mapM fun slot => mergeMembers slot.toValue
  return .object (objects.foldl Keyed.insertAll [])

/-- What a key holds after an entry with some values: a single value the first time, and a list from
the second value on. -/
def collect (values : List Value) : Option Value → Value
  | none =>
    match values with
    | [v] => v
    | vs => .array vs
  | some (.array items) => .array (items ++ values)
  | some v => .array (v :: values)

/-- The members with one more entry, a list of a key and values; without a value null is one. -/
def addEntry (members : List (String × Value)) (entry : Value) :
    Except Fault (List (String × Value)) :=
  match entry.sequence? with
  | none => .error (.type (.noEntry entry.kind))
  | some [] => .ok members
  | some (head :: values) => do
    let key ← canonicalText head
    let values := if values.isEmpty then [.null] else values
    return Keyed.insert key (collect values (Keyed.get? key members)) members

def fromItems : List Slot → Except Fault Value
  | [.array entries] => (entries.foldlM addEntry []).map .object
  | _ => .error Builtin.fromItems.misfit

def type : List Slot → Except Fault Value
  | [.any v] =>
    match v with
    | .reference .. | .record _ => .error (.type .unnamedKind)
    | _ => .ok (.string v.kind.name)
  | _ => .error Builtin.type.misfit

end JsonQuery.Function

import JsonQuery.Json.Reader
import JsonQuery.Json.Writer
import JsonQuery.Value.Basic

/-!
Values in JSON, read from a text, written to one, and turned into constants. A reference is written
as null, a record as the array of its elements or as the object of its fields. Writing fails only at
a number token that is no number.
-/
namespace JsonQuery.Value

def ofNumeral? (r : Reading) (n : Numeral) : Option Value :=
  (n.meaning? r).map fun
    | .integer n => .ofInt n
    | .double d => .ofDouble d

/-- Reads a JSON value in which at most `nesting` containers nest. A repeated key keeps its first
place and its last value. -/
def ofJson? (r : Reading) : Nat → Json → Option Value
  | _, .null => some .null
  | _, .bool b => some (.bool b)
  | _, .number n => ofNumeral? r n
  | _, .string s => s.read?.map .string
  | nesting + 1, .array items => (items.mapM (ofJson? r nesting)).map .array
  | nesting + 1, .object members => do
    let entries ← members.mapM fun (key, value) => do
      return (← key.read?, ← ofJson? r nesting value)
    return .object (Keyed.ofList entries)
  | 0, .array _ => none
  | 0, .object _ => none

def read? (r : Reading) (text : String) : Option Value := (Json.read? text).bind (ofJson? r Json.maxNesting)

mutual

def toJson : Value → Except Fault Json
  | .null => .ok .null
  | .bool b => .ok (.bool b)
  | .number n => n.toJson
  | .string s => .ok (.ofString s)
  | .array items => return .array (← itemsToJson items)
  | .object members => return .object (← membersToJson members)
  | .reference .. => .ok .null
  | .record ⟨_, _, _, some items⟩ => return .array (← itemsToJson items)
  | .record ⟨_, _, fields, none⟩ => return .object (← fieldsToJson fields)

def itemsToJson : List Value → Except Fault (List Json)
  | [] => return []
  | item :: rest => return (← item.toJson) :: (← itemsToJson rest)

def membersToJson : List (String × Value) → Except Fault (List (Json.Quoted × Json))
  | [] => return []
  | (key, value) :: rest => return (.ofString key, ← value.toJson) :: (← membersToJson rest)

def fieldsToJson : List (Field Value) → Except Fault (List (Json.Quoted × Json))
  | [] => return []
  | ⟨name, tag, value⟩ :: rest =>
    return (.ofString (tag.getD name), ← value.toJson) :: (← fieldsToJson rest)

end

def text (v : Value) : Except Fault String := v.toJson.map Json.compact

def pretty (v : Value) : Except Fault String := v.toJson.map Json.pretty

mutual

/-- The constant that a value is; of fields written under one name the last counts. -/
def toLiteral : Value → Except Fault Literal
  | .null => .ok .null
  | .bool b => .ok (.bool b)
  | .number n => n.toLiteral
  | .string s => .ok (.string s)
  | .array items => return .array (← itemsToLiteral items)
  | .object members => return .object (Keyed.ofList (← membersToLiteral members))
  | .reference .. => .ok .null
  | .record ⟨_, _, _, some items⟩ => return .array (← itemsToLiteral items)
  | .record ⟨_, _, fields, none⟩ => return .object (Keyed.ofList (← fieldsToLiteral fields))

def itemsToLiteral : List Value → Except Fault (List Literal)
  | [] => return []
  | item :: rest => return (← item.toLiteral) :: (← itemsToLiteral rest)

def membersToLiteral : List (String × Value) → Except Fault (List (String × Literal))
  | [] => return []
  | (key, value) :: rest => return (key, ← value.toLiteral) :: (← membersToLiteral rest)

def fieldsToLiteral : List (Field Value) → Except Fault (List (String × Literal))
  | [] => return []
  | ⟨name, tag, value⟩ :: rest =>
    return (tag.getD name, ← value.toLiteral) :: (← fieldsToLiteral rest)

end

/-- The constant of a value, null when any number in it cannot be written. -/
def toLiteralOrNull (v : Value) : Literal :=
  match v.toLiteral with
  | .ok literal => literal
  | .error _ => .null

end JsonQuery.Value

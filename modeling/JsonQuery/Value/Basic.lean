import JsonQuery.Expr.Basic
import JsonQuery.Number
import JsonQuery.Record

/-!
Values: what queries read and return. Besides the kinds of JSON there are references to expressions,
which functions evaluate, and records of the host program.
-/
namespace JsonQuery

inductive Value where
  | null
  | bool (b : Bool)
  | number (n : Number)
  | string (s : String)
  | array (items : List Value)
  | object (members : List (String × Value))
  | reference (identity : Identity) (body : Expr)
  | record (r : Record Value)

namespace Value

instance : Inhabited Value := ⟨.null⟩

def ofDouble (d : Double) : Value := .number (.double d)

def ofInt (n : Int) : Value := .number (.ofInt n)

def ofNat (n : Nat) : Value := ofInt n

def ofInt64 (n : Int64) : Value := ofInt n.toInt

def ofUInt64 (n : UInt64) : Value := ofNat n.toNat

def kind : Value → Kind
  | .null => .null
  | .bool _ => .boolean
  | .number _ => .number
  | .string _ => .string
  | .array _ => .array
  | .object _ => .object
  | .reference .. => .reference
  | .record _ => .record

def isNull : Value → Bool
  | .null => true
  | _ => false

def number? : Value → Option Number
  | .number n => some n
  | _ => none

def string? : Value → Option String
  | .string s => some s
  | _ => none

def bool? : Value → Option Bool
  | .bool b => some b
  | _ => none

def array? : Value → Option (List Value)
  | .array items => some items
  | _ => none

def object? : Value → Option (List (String × Value))
  | .object members => some members
  | _ => none

def body? : Value → Option Expr
  | .reference _ body => some body
  | _ => none

/-- A number without a fraction, however it is represented. -/
def isInteger : Value → Bool
  | .number n => n.isInteger
  | _ => false

def get? (key : String) : Value → Option Value
  | .object members => Keyed.get? key members
  | _ => none

/-- The elements of an array, or of a record that is a sequence. -/
def sequence? : Value → Option (List Value)
  | .array items => some items
  | .record r => r.elements
  | _ => none

/-- What counts as false: null, false, and whatever is empty; a number never does. -/
def isFalseLike : Value → Bool
  | .null => true
  | .bool b => !b
  | .string s => s.isEmpty
  | .array items => items.isEmpty
  | .object members => members.isEmpty
  | .record r => r.elements.any List.isEmpty
  | .number _ | .reference .. => false

def flatten (items : List Value) : List Value :=
  items.flatMap fun item => item.sequence?.getD [item]

def toArray : Value → Value
  | .array items => .array items
  | v => .array [v]

def objectOf (entries : List (String × Value)) : Value := .object (Keyed.ofList entries)

mutual

def ofLiteral : Literal → Value
  | .null => .null
  | .bool b => .bool b
  | .integer n => .ofInt n
  | .double d => .ofDouble d
  | .string s => .string s
  | .array items => .array (ofLiterals items)
  | .object members => .object (ofLiteralMembers members)

def ofLiterals : List Literal → List Value
  | [] => []
  | item :: rest => ofLiteral item :: ofLiterals rest

def ofLiteralMembers : List (String × Literal) → List (String × Value)
  | [] => []
  | (key, value) :: rest => (key, ofLiteral value) :: ofLiteralMembers rest

end

end Value

end JsonQuery

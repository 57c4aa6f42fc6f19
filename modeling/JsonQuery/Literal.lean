import JsonQuery.Decimal.Shortest
import JsonQuery.Json.Basic
import JsonQuery.Keyed

/-!
Constants of expressions. They tell integers from doubles as JSON text does, so `1` and `1.0` are two
constants, and they are written back the way they were read.
-/
namespace JsonQuery

/-- Integers are those of 64 bits, signed or unsigned, doubles are finite, and keys are distinct. -/
inductive Literal where
  | null
  | bool (b : Bool)
  | integer (n : Int)
  | double (d : Double)
  | string (s : String)
  | array (items : List Literal)
  | object (members : List (String × Literal))

namespace Literal

def ofNumeral? (r : Reading) (n : Numeral) : Option Literal :=
  (n.meaning? r).map fun
    | .integer n => .integer n
    | .double d => .double d

/-- Reads a JSON value in which at most `nesting` containers nest. A repeated key keeps its first
place and its last value. -/
def ofJson? (r : Reading) : Nat → Json → Option Literal
  | _, .null => some .null
  | _, .bool b => some (.bool b)
  | _, .number n => ofNumeral? r n
  | _, .string s => s.read?.map .string
  | nesting + 1, .array items => (items.mapM (ofJson? r nesting)).map .array
  | nesting + 1, .object members => do
    let entries ← members.mapM fun (key, value) => do
      return (← key.read?, ← ofJson? r nesting value)
    return .object (Keyed.ofList entries)
  | 0, .array _ => none
  | 0, .object _ => none

/-- A double in the fewest digits, with `.0` when it is an integer. -/
def jsonOfDouble (d : Double) : Json :=
  match Decimal.shortest? .even d with
  | some x => .number (.decimal x)
  | none => .null

mutual

def toJson : Literal → Json
  | .null => .null
  | .bool b => .bool b
  | .integer n => .ofInt n
  | .double d => jsonOfDouble d
  | .string s => .ofString s
  | .array items => .array (listToJson items)
  | .object members => .object (membersToJson members)

def listToJson : List Literal → List Json
  | [] => []
  | item :: rest => item.toJson :: listToJson rest

def membersToJson : List (String × Literal) → List (Json.Quoted × Json)
  | [] => []
  | (key, value) :: rest => (.ofString key, value.toJson) :: membersToJson rest

end

mutual

/-- Equality of constants: an integer is no double, both zeros are the same, and the order of keys
does not matter. -/
def same : Literal → Literal → Bool
  | .null, .null => true
  | .bool a, .bool b => a == b
  | .integer m, .integer n => m == n
  | .double x, .double y => x.same y
  | .string s, .string t => s == t
  | .array xs, .array ys => sameItems xs ys
  | .object ms, .object ns => ms.length == ns.length && sameMembers ms ns
  | _, _ => false

def sameItems : List Literal → List Literal → Bool
  | [], [] => true
  | x :: xs, y :: ys => x.same y && sameItems xs ys
  | _, _ => false

def sameMembers : List (String × Literal) → List (String × Literal) → Bool
  | [], _ => true
  | (key, value) :: rest, others =>
    (match Keyed.get? key others with
      | some other => value.same other
      | none => false) && sameMembers rest others

end

end Literal

end JsonQuery

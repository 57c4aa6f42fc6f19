import JsonQuery.Json.Numeral
import JsonQuery.Text.Escape

/-!
JSON as it is written: strings still hold their escapes, and an object lists its members in order,
a repeated key once for each time.
-/
namespace JsonQuery

namespace Json

/-- The characters between the quotes of a string. -/
structure Quoted where
  body : List Char
  deriving DecidableEq

def Quoted.ofString (s : String) : Quoted := ⟨Text.escape s.toList⟩

/-- The string meant, unless half a character stands in it. -/
def Quoted.read? (q : Quoted) : Option String := (Text.unescape? q.body).map String.ofList

end Json

inductive Json where
  | null
  | bool (b : Bool)
  | number (n : Numeral)
  | string (s : Json.Quoted)
  | array (items : List Json)
  | object (members : List (Json.Quoted × Json))

namespace Json

instance : Inhabited Json := ⟨.null⟩

/-- How deep containers may nest in a text that is read. -/
def maxNesting : Nat := 127

def ofString (s : String) : Json := .string (.ofString s)

def ofInt (n : Int) : Json := .number (.ofInt n)

def ofMembers (members : List (String × Json)) : Json :=
  .object (members.map fun (key, value) => (.ofString key, value))

def string? : Json → Option String
  | .string s => s.read?
  | _ => none

end Json

end JsonQuery

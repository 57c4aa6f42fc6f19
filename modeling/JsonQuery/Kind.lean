/-!
Kinds of values, the classes of values that functions take, and the comparisons of expressions,
each with the name that messages use.
-/
namespace JsonQuery

inductive Kind where
  | null
  | boolean
  | number
  | string
  | array
  | object
  | reference
  | record
  deriving DecidableEq

def Kind.name : Kind → String
  | .null => "null"
  | .boolean => "boolean"
  | .number => "number"
  | .string => "string"
  | .array => "array"
  | .object => "object"
  | .reference => "expref"
  | .record => "record"

/-- What an argument may be. An array of a class has only elements of it. -/
inductive TypeClass where
  | number
  | string
  | array
  | object
  | reference
  | any
  | numbers
  | strings
  deriving DecidableEq

namespace TypeClass

def name : TypeClass → String
  | .number => "number"
  | .string => "string"
  | .array => "array"
  | .object => "object"
  | .reference => "expref"
  | .any => "any"
  | .numbers => "array[number]"
  | .strings => "array[string]"

def names (classes : List TypeClass) : String := "|".intercalate (classes.map name)

def all : List TypeClass :=
  [.number, .string, .array, .object, .reference, .any, .numbers, .strings]

def ofName? (name : String) : Option TypeClass := all.find? (·.name == name)

end TypeClass

inductive Comparison where
  | equal
  | notEqual
  | less
  | lessOrEqual
  | greater
  | greaterOrEqual
  deriving DecidableEq

namespace Comparison

def symbol : Comparison → String
  | .equal => "=="
  | .notEqual => "!="
  | .less => "<"
  | .lessOrEqual => "<="
  | .greater => ">"
  | .greaterOrEqual => ">="

def all : List Comparison :=
  [.equal, .notEqual, .less, .lessOrEqual, .greater, .greaterOrEqual]

def ofSymbol? (symbol : String) : Option Comparison := all.find? (·.symbol == symbol)

end Comparison

end JsonQuery

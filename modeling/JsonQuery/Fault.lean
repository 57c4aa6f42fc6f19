import JsonQuery.Kind

/-!
Why an evaluation fails: the cause, its category and its message.
-/
namespace JsonQuery

inductive TypeCause where
  | slots (function : String)
  | noLength
  | noNumber (kind : Kind)
  | noCandidates (kind : Kind)
  | noSliceSubject (kind : Kind)
  | noMergeObject (kind : Kind)
  | noEntry (kind : Kind)
  | unnamedKind
  | keyKind (function : String) (kind : Kind)
  | mixedKeys (function : String) (first : Kind)
  | incomparable (left : Kind) (op : Comparison) (right : Kind)
  deriving DecidableEq

def TypeCause.message : TypeCause → String
  | .slots function => s!"{function}: arguments do not match the signature"
  | .noLength => "could not compute length()"
  | .noNumber kind => s!"to_number: unknown type {kind.name}"
  | .noCandidates kind => s!"contains_any: expected an array of candidates, got {kind.name}"
  | .noSliceSubject kind => s!"slice: expected an array, got {kind.name}"
  | .noMergeObject kind => s!"merge: expected an object, got {kind.name}"
  | .noEntry kind => s!"from_items: expected [key, value] entries, got {kind.name}"
  | .unnamedKind => "unknown type"
  | .keyKind function kind => s!"{function}: invalid type {kind.name}, must be number or string"
  | .mixedKeys function first => s!"{function}: invalid type, must be {first.name}"
  | .incomparable left op right => s!"cannot compare {left.name} {op.symbol} {right.name}"

/-- A number without a numeric value, or a bound that is no integer; both hold the text shown. -/
inductive NumberCause where
  | noValue (function shown : String)
  | noBound (shown : String)
  deriving DecidableEq

def NumberCause.message : NumberCause → String
  | .noValue function shown => s!"{function}: cannot convert {shown} to a number"
  | .noBound shown => s!"slice: {shown} is not an integer"

inductive SliceCause where
  | zeroStep
  | stepNotPositive (step : Int)
  deriving DecidableEq

def SliceCause.message : SliceCause → String
  | .zeroStep => "slice step cannot be 0"
  | .stepNotPositive step => s!"slice: step must be positive, got {step}"

inductive Fault where
  | type (cause : TypeCause)
  /-- The wrong number of arguments; a variadic function has only a least one. -/
  | arity (function : String) (expected actual : Nat) (variadic : Bool)
  | mismatch (function : String) (position : Nat) (shown : String) (expected : List TypeClass)
  | unknownFunction (name : String)
  | unknownNode
  | keyNotFound (key : String)
  | nonExpression
  | number (cause : NumberCause)
  | slice (cause : SliceCause)
  | recursionLimit (limit : Nat)
  | custom (message : String)
  | undecodable
  /-- A number that no JSON text can show. -/
  | unwritable (token : String)
  /-- A sort that gave up on keys that compare in no order. -/
  | disorder
  /-- The end of the native stack, which custom functions come to that go on calling each other. -/
  | callLimit (limit : Nat)
  deriving DecidableEq

namespace Fault

inductive Category where
  | typeError
  | arityMismatch
  | typeMismatch
  | unknownFunction
  | unknownNode
  | keyNotFound
  | nonExpression
  | invalidNumber
  | invalidSlice
  | recursionLimit
  | custom
  | serialization
  | disorder
  | callLimit
  deriving DecidableEq

def category : Fault → Category
  | .type _ => .typeError
  | .arity .. => .arityMismatch
  | .mismatch .. => .typeMismatch
  | .unknownFunction _ => .unknownFunction
  | .unknownNode => .unknownNode
  | .keyNotFound _ => .keyNotFound
  | .nonExpression => .nonExpression
  | .number _ => .invalidNumber
  | .slice _ => .invalidSlice
  | .recursionLimit _ => .recursionLimit
  | .custom _ => .custom
  | .undecodable | .unwritable _ => .serialization
  | .disorder => .disorder
  | .callLimit _ => .callLimit

/-- Whether the fault is no failure that is returned, but the end of the program. -/
def isFatal (f : Fault) : Bool := f.category = .disorder || f.category = .callLimit

/-- A value of the wrong kind, whether the signature or the function found it. -/
def isTypeError (f : Fault) : Bool := f.category = .typeError || f.category = .typeMismatch

def isArityError (f : Fault) : Bool := f.category = .arityMismatch

def message : Fault → String
  | .type cause => s!"Type error: {cause.message}"
  | .arity function expected actual variadic =>
    let bound := if variadic then "at least" else "exactly"
    s!"{function}: expected {bound} {expected} arguments, got {actual}"
  | .mismatch function position shown expected =>
    let classes := TypeClass.names expected
    s!"{function}: invalid type for argument {position}: {shown}, expected: {classes}"
  | .unknownFunction name => s!"Unknown function: {name}()"
  | .unknownNode => "Unknown AST node"
  | .keyNotFound key => s!"Key not found: {key}"
  | .nonExpression => "Expected an expression reference"
  | .number cause => s!"Invalid number: {cause.message}"
  | .slice cause => s!"Invalid slice: {cause.message}"
  | .recursionLimit limit => s!"Maximum recursion depth ({limit}) exceeded"
  | .custom message => message
  | .undecodable => "Serialization error"
  | .unwritable token => s!"Serialization error: invalid decimal number: {token}"
  | .disorder => "Keys compare in no order"
  | .callLimit limit => s!"Maximum call depth ({limit}) exceeded"

end Fault

end JsonQuery

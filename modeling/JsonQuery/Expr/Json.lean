import JsonQuery.Expr.Basic
import JsonQuery.Json.Reader
import JsonQuery.Json.Writer

/-!
Expressions in JSON. A node is an object whose only key names its form and whose value holds its
parts; a form without parts may also stand as the bare name. Parts with names are an object in which
unknown keys are passed over, or an array of all parts in order.
-/
namespace JsonQuery

namespace Comparison

def tag : Comparison → String
  | .equal => "Equal"
  | .notEqual => "NotEqual"
  | .less => "LessThan"
  | .lessOrEqual => "LessThanOrEqual"
  | .greater => "GreaterThan"
  | .greaterOrEqual => "GreaterThanOrEqual"

def ofTag? (tag : String) : Option Comparison := all.find? (·.tag == tag)

@[simp] theorem ofTag?_tag (op : Comparison) : ofTag? op.tag = some op := by cases op <;> decide

/-- The bare name, or an object with the name as its only key and `null` under it. -/
def ofJson? : Nat → Json → Option Comparison
  | _, .string s => s.read?.bind ofTag?
  | _ + 1, .object [(key, .null)] => key.read?.bind ofTag?
  | _, _ => none

end Comparison

namespace Expr

inductive Form where
  | comparison
  | reference
  | call
  | field
  | filterProjection
  | flatten
  | identity
  | current
  | root
  | index
  | literal
  | selectHash
  | selectList
  | or
  | and
  | not
  | pipe
  | projection
  | subexpression
  | indexExpression
  | slice
  | valueProjection
  deriving DecidableEq

namespace Form

def tag : Form → String
  | .comparison => "Comparator"
  | .reference => "ExpressionRef"
  | .call => "FunctionExpression"
  | .field => "Field"
  | .filterProjection => "FilterProjection"
  | .flatten => "Flatten"
  | .identity => "Identity"
  | .current => "CurrentNode"
  | .root => "RootNode"
  | .index => "Index"
  | .literal => "Literal"
  | .selectHash => "MultiSelectHash"
  | .selectList => "MultiSelectList"
  | .or => "Or"
  | .and => "And"
  | .not => "Not"
  | .pipe => "Pipe"
  | .projection => "Projection"
  | .subexpression => "Subexpression"
  | .indexExpression => "IndexExpression"
  | .slice => "Slice"
  | .valueProjection => "ValueProjection"

def all : List Form :=
  [.comparison, .reference, .call, .field, .filterProjection, .flatten, .identity, .current, .root,
    .index, .literal, .selectHash, .selectList, .or, .and, .not, .pipe, .projection, .subexpression,
    .indexExpression, .slice, .valueProjection]

def ofTag? (tag : String) : Option Form := all.find? (·.tag == tag)

@[simp] theorem ofTag?_tag (form : Form) : ofTag? form.tag = some form := by
  cases form <;> decide

end Form

def node (form : Form) (parts : Json) : Json := .object [(.ofString form.tag, parts)]

def sides (lhs rhs : Json) : Json := .ofMembers [("lhs", lhs), ("rhs", rhs)]

def boundToJson : Option Int64 → Json
  | some n => .ofInt n.toInt
  | none => .null

mutual

def toJson : Expr → Json
  | .comparison op lhs rhs =>
    node .comparison
      (.ofMembers [("op", .ofString op.tag), ("lhs", lhs.toJson), ("rhs", rhs.toJson)])
  | .reference body => node .reference body.toJson
  | .call name args =>
    node .call (.ofMembers [("name", .ofString name), ("args", .array (listToJson args))])
  | .field name => node .field (.ofString name)
  | .filterProjection lhs rhs predicate =>
    node .filterProjection
      (.ofMembers [("lhs", lhs.toJson), ("rhs", rhs.toJson), ("predicate", predicate.toJson)])
  | .flatten body => node .flatten body.toJson
  | .identity => .ofString Form.identity.tag
  | .current => .ofString Form.current.tag
  | .root => .ofString Form.root.tag
  | .index place => node .index (.ofInt place.toInt)
  | .literal value => node .literal value.toJson
  | .selectHash entries => node .selectHash (.array (entriesToJson entries))
  | .selectList items => node .selectList (.array (listToJson items))
  | .or lhs rhs => node .or (.array [lhs.toJson, rhs.toJson])
  | .and lhs rhs => node .and (.array [lhs.toJson, rhs.toJson])
  | .not body => node .not body.toJson
  | .pipe stages => node .pipe (.array (listToJson stages))
  | .projection lhs rhs => node .projection (sides lhs.toJson rhs.toJson)
  | .subexpression lhs rhs => node .subexpression (sides lhs.toJson rhs.toJson)
  | .indexExpression lhs rhs => node .indexExpression (sides lhs.toJson rhs.toJson)
  | .slice bounds =>
    node .slice
      (.ofMembers [("start", boundToJson bounds.start), ("stop", boundToJson bounds.stop),
        ("step", boundToJson bounds.step)])
  | .valueProjection lhs rhs => node .valueProjection (sides lhs.toJson rhs.toJson)

def listToJson : List Expr → List Json
  | [] => []
  | e :: rest => e.toJson :: listToJson rest

def entriesToJson : List (String × Expr) → List Json
  | [] => []
  | (key, value) :: rest =>
    .ofMembers [("key", .ofString key), ("value", value.toJson)] :: entriesToJson rest

end

def text (e : Expr) : String := e.toJson.compact

/-- The named parts of a node, a part that is missing as `none`. An array holds exactly all parts;
an object holds none of them twice. -/
def parts? (names : List String) : Json → Option (List (Option Json))
  | .array items => if items.length = names.length then some (items.map some) else none
  | .object members => do
    let members ← members.mapM fun (key, value) => do return (← key.read?, value)
    names.mapM fun name =>
      match members.filter (·.1 == name) with
      | [] => some none
      | [(_, value)] => some (some value)
      | _ => none
  | _ => none

def allParts? (names : List String) (j : Json) : Option (List Json) :=
  (parts? names j).bind (·.mapM id)

def boundOfJson? : Option Json → Option (Option Int64)
  | none | some .null => some none
  | some (.number n) => n.int64?.map some
  | _ => none

def ofBareForm? : Form → Option Expr
  | .identity => some .identity
  | .current => some .current
  | .root => some .root
  | _ => none

/-- A form without parts that stands as a key, with `null` under it. -/
def bareOfJson? (form : Form) : Json → Option Expr
  | .null => ofBareForm? form
  | _ => none

def placeOfJson? : Json → Option Int64
  | .number n => n.int64?
  | _ => none

def ofPair? (form : Expr → Expr → Expr) (parts : Option (List Expr)) : Option Expr := do
  let [lhs, rhs] ← parts | none
  return form lhs rhs

def ofTriple? (form : Expr → Expr → Expr → Expr) (parts : Option (List Expr)) : Option Expr := do
  let [lhs, rhs, third] ← parts | none
  return form lhs rhs third

def sliceOfJson? : Nat → Json → Option Expr
  | _ + 1, parts => do
    let [start, stop, step] ← parts? ["start", "stop", "step"] parts | none
    return .slice ⟨← boundOfJson? start, ← boundOfJson? stop, ← boundOfJson? step⟩
  | 0, _ => none

mutual

/-- Reads an expression in which at most `nesting` containers nest, apart from those under keys that
are passed over. -/
def ofJson? (r : Reading) : Nat → Json → Option Expr
  | _, .string s => do ofBareForm? (← Form.ofTag? (← s.read?))
  | nesting + 1, .object [(key, parts)] => do
    match ← Form.ofTag? (← key.read?) with
    | .comparison => comparisonOfJson? r nesting parts
    | .reference => .reference <$> ofJson? r nesting parts
    | .call => callOfJson? r nesting parts
    | .field => .field <$> parts.string?
    | .filterProjection =>
      ofTriple? .filterProjection (namedOfJson? r ["lhs", "rhs", "predicate"] nesting parts)
    | .flatten => .flatten <$> ofJson? r nesting parts
    | .identity => bareOfJson? .identity parts
    | .current => bareOfJson? .current parts
    | .root => bareOfJson? .root parts
    | .index => .index <$> placeOfJson? parts
    | .literal => .literal <$> Literal.ofJson? r nesting parts
    | .selectHash => .selectHash <$> entriesOfJson? r nesting parts
    | .selectList => .selectList <$> itemsOfJson? r nesting parts
    | .or => ofPair? .or (itemsOfJson? r nesting parts)
    | .and => ofPair? .and (itemsOfJson? r nesting parts)
    | .not => .not <$> ofJson? r nesting parts
    | .pipe => .pipe <$> itemsOfJson? r nesting parts
    | .projection => ofPair? .projection (namedOfJson? r ["lhs", "rhs"] nesting parts)
    | .subexpression => ofPair? .subexpression (namedOfJson? r ["lhs", "rhs"] nesting parts)
    | .indexExpression => ofPair? .indexExpression (namedOfJson? r ["lhs", "rhs"] nesting parts)
    | .slice => sliceOfJson? nesting parts
    | .valueProjection => ofPair? .valueProjection (namedOfJson? r ["lhs", "rhs"] nesting parts)
  | _, _ => none

def itemsOfJson? (r : Reading) : Nat → Json → Option (List Expr)
  | nesting + 1, .array items => items.mapM (ofJson? r nesting)
  | _, _ => none

def namedOfJson? (r : Reading) (names : List String) : Nat → Json → Option (List Expr)
  | nesting + 1, parts => do (← allParts? names parts).mapM (ofJson? r nesting)
  | 0, _ => none

def comparisonOfJson? (r : Reading) : Nat → Json → Option Expr
  | nesting + 1, parts => do
    let [op, lhs, rhs] ← allParts? ["op", "lhs", "rhs"] parts | none
    return .comparison (← Comparison.ofJson? nesting op) (← ofJson? r nesting lhs)
      (← ofJson? r nesting rhs)
  | 0, _ => none

def callOfJson? (r : Reading) : Nat → Json → Option Expr
  | nesting + 1, parts => do
    let [name, args] ← allParts? ["name", "args"] parts | none
    return .call (← name.string?) (← itemsOfJson? r nesting args)
  | 0, _ => none

def entryOfJson? (r : Reading) : Nat → Json → Option (String × Expr)
  | nesting + 1, entry => do
    let [key, value] ← allParts? ["key", "value"] entry | none
    return (← key.string?, ← ofJson? r nesting value)
  | 0, _ => none

def entriesOfJson? (r : Reading) : Nat → Json → Option (List (String × Expr))
  | nesting + 1, .array entries => entries.mapM (entryOfJson? r nesting)
  | _, _ => none

end

def read? (r : Reading) (text : String) : Option Expr := (Json.read? text).bind (ofJson? r Json.maxNesting)

end Expr

end JsonQuery

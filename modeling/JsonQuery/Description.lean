import JsonQuery.Evaluator
import JsonQuery.Text.Visible

/-!
Descriptions of functions, registries and evaluators for people who look into them: the name of the
thing and its parts by name.
-/
namespace JsonQuery.Description

def parts (name : String) (fields : List (String × String)) : String :=
  let shown := fields.map fun (field, value) => field ++ ": " ++ value
  name ++ " \x7b " ++ ", ".intercalate shown ++ " \x7d"

def list (items : List String) : String := "[" ++ ", ".intercalate items ++ "]"

def typeClass : TypeClass → String
  | .number => "Number"
  | .string => "String"
  | .array => "Array"
  | .object => "Object"
  | .reference => "ExpressionRef"
  | .any => "Any"
  | .numbers => "ArrayOfNumber"
  | .strings => "ArrayOfString"

def parameter (p : Parameter) : String :=
  parts "ArgSpec" [("types", list (p.accepts.map typeClass)), ("variadic", toString p.variadic)]

def builtin (b : Builtin) : String :=
  parts "FunctionSpec"
    [("name", Text.quote b.name), ("args", list (b.parameters.map parameter)),
      ("needs_context", toString b.needsContext)]

def registry (r : Registry) : String :=
  let names := (Keyed.keys r.entries).mergeSort fun a b => compare a b != .gt
  parts "FunctionRegistry" [("functions", list (names.map Text.quote))]

def evaluator (ev : Evaluator) : String :=
  let dispatcher :=
    parts "Dispatcher"
      [("builtins", toString Builtin.all.length), ("custom", registry ev.registry)]
  "Evaluator \x7b dispatcher: " ++ dispatcher ++ ", max_depth: " ++ toString ev.maxDepth ++
    ", .. \x7d"

end JsonQuery.Description

import JsonQuery.Custom
import JsonQuery.Function.Apply
import JsonQuery.Resolver

/-!
Evaluation of expressions. Two values go along with an expression: the current one, on which it is
evaluated, and the root, which stays the same throughout. Every node costs one level of depth.
-/
namespace JsonQuery

structure Evaluator where
  /-- Custom functions, which come before built-in ones of the same name. -/
  registry : Registry := .empty
  resolver : Resolver := .byTag
  sorter : Sorter := .merging
  maxDepth : Nat := 512
  /-- Custom functions that may call each other without evaluating anything in between. Nothing limits
  them but the native stack, and the number stands for the calls that exhaust it. -/
  maxCalls : Nat := 65536

namespace Evaluator

def compare (op : Comparison) (left right : Value) : Except Fault Value :=
  let ordered (test : Double → Double → Bool) : Except Fault Value :=
    match left.coerce?, right.coerce? with
    | some a, some b => .ok (.bool (test a b))
    | _, _ => .error (.type (.incomparable left.kind op right.kind))
  match op with
  | .equal => .ok (.bool (left.same right))
  | .notEqual => .ok (.bool (!left.same right))
  | .less => ordered Double.less
  | .lessOrEqual => ordered Double.lessOrEqual
  | .greater => ordered fun a b => b.less a
  | .greaterOrEqual => ordered fun a b => b.lessOrEqual a

def field (resolver : Resolver) (name : String) : Value → Value
  | .object members => (Keyed.get? name members).getD .null
  | .record r => (resolver name r).getD .null
  | _ => .null

/-- The element at a place, which counts from the end if it is negative, or null. -/
def element (place : Int) (items : List Value) : Value :=
  let i := if place < 0 then place + items.length else place
  if 0 ≤ i then (items[i.toNat]?).getD .null else .null

def project (evaluate : Value → Eval Value) (items : List Value) : Eval Value :=
  return .array ((← items.mapM evaluate).filter (!·.isNull))

def guarded (predicate evaluate : Value → Eval Value) (item : Value) : Eval Value := do
  if (← predicate item).isFalseLike then return .null else evaluate item

/-- Calls a function by name, a custom one if there is one. Up to `calls` custom functions may still be
open inside this one. -/
def callWithin (ev : Evaluator) (evaluate : Function.Evaluate) (root : Value) :
    Nat → String → List Value → Eval Value
  | calls, name, args =>
    match ev.registry.get? name with
    | some handler =>
      match calls with
      | 0 => throw (.callLimit ev.maxCalls)
      | calls + 1 => (handler args root).run evaluate (callWithin ev evaluate root calls)
    | none =>
      match Builtin.ofName? name with
      | some b => do
        let slots ← Eval.ofExcept (Parameter.resolve b.name b.parameters args)
        b.apply ev.sorter evaluate slots
      | none => throw (.unknownFunction name)

def step (ev : Evaluator) (evaluate : Function.Evaluate) (root : Value) (e : Expr) (v : Value) :
    Eval Value :=
  match e with
  | .comparison op lhs rhs => do
    let left ← evaluate lhs v
    let right ← evaluate rhs v
    Eval.ofExcept (compare op left right)
  | .reference body => return .reference (← Eval.freshIdentity) body
  | .call name args => do
    let args ← args.mapM fun arg => evaluate arg v
    callWithin ev evaluate root ev.maxCalls name args
  | .field name => return field ev.resolver name v
  | .filterProjection lhs rhs predicate => do
    match (← evaluate lhs v).sequence? with
    | some items => project (guarded (evaluate predicate) (evaluate rhs)) items
    | none => return .null
  | .flatten body => do
    match (← evaluate body v).sequence? with
    | some items => return .array (Value.flatten items)
    | none => return .null
  | .identity | .current => return v
  | .root => return root
  | .index place =>
    match v.sequence? with
    | some items => return element place.toInt items
    | none => return .null
  | .literal value => return .ofLiteral value
  | .selectHash entries =>
    if v.isNull then return .null
    else return Value.objectOf (← entries.mapM fun (key, e) => return (key, ← evaluate e v))
  | .selectList items =>
    if v.isNull then return .null
    else return .array (← items.mapM fun item => evaluate item v)
  | .or lhs rhs => do
    let left ← evaluate lhs v
    if left.isFalseLike then evaluate rhs v else return left
  | .and lhs rhs => do
    let left ← evaluate lhs v
    if left.isFalseLike then return left else evaluate rhs v
  | .not body => return .bool (← evaluate body v).isFalseLike
  | .pipe stages => stages.foldlM (fun current stage => evaluate stage current) v
  | .projection lhs rhs => do
    match (← evaluate lhs v).sequence? with
    | some items => project (evaluate rhs) items
    | none => return .null
  | .subexpression lhs rhs | .indexExpression lhs rhs => do
    evaluate rhs (← evaluate lhs v)
  | .slice bounds =>
    match v.sequence? with
    | some items => return .array (← Eval.ofExcept (Slice.bidirectional items bounds))
    | none => return .null
  | .valueProjection lhs rhs => do
    match (← evaluate lhs v).object? with
    | some members => project (evaluate rhs) (Keyed.values members)
    | none => return .null

/-- Evaluates an expression in which at most `levels` nodes are open at once. -/
def executeWithin (ev : Evaluator) (root : Value) : Nat → Expr → Value → Eval Value
  | 0, _, _ => throw (.recursionLimit ev.maxDepth)
  | levels + 1, e, v => Eval.nested ev.maxDepth (step ev (executeWithin ev root levels) root e v)

def execute (ev : Evaluator) (e : Expr) (v root : Value) : Eval Value := do
  let run ← get
  executeWithin ev root (ev.maxDepth - run.depth) e v

/-- Evaluates an expression on a value that is also the root. -/
def evaluate (ev : Evaluator) (e : Expr) (v : Value) : Eval Value := ev.execute e v v

def call (ev : Evaluator) (name : String) (args : List Value) (root : Value) : Eval Value :=
  callWithin ev (fun e v => ev.execute e v root) root ev.maxCalls name args

def hasFunction (ev : Evaluator) (name : String) : Bool :=
  ev.registry.contains name || (Builtin.ofName? name).isSome

end Evaluator

end JsonQuery

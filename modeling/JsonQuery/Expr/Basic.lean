import JsonQuery.Kind
import JsonQuery.Literal

/-!
Query expressions, already parsed: one constructor for each kind of node.
-/
namespace JsonQuery

/-- Bounds of `[start:stop:step]`, each of which may be missing. -/
structure SliceBounds where
  start : Option Int64
  stop : Option Int64
  step : Option Int64
  deriving DecidableEq

inductive Expr where
  | comparison (op : Comparison) (lhs rhs : Expr)
  /-- `&body`: the expression itself as a value. -/
  | reference (body : Expr)
  | call (name : String) (args : List Expr)
  | field (name : String)
  /-- `lhs[?predicate].rhs` -/
  | filterProjection (lhs rhs predicate : Expr)
  /-- `body[]` -/
  | flatten (body : Expr)
  | identity
  | current
  | root
  /-- `[n]`, a negative place counting from the end. -/
  | index (place : Int64)
  | literal (value : Literal)
  | selectHash (entries : List (String × Expr))
  | selectList (items : List Expr)
  | or (lhs rhs : Expr)
  | and (lhs rhs : Expr)
  | not (body : Expr)
  /-- `stage | stage | …` -/
  | pipe (stages : List Expr)
  /-- `lhs[*].rhs` -/
  | projection (lhs rhs : Expr)
  | subexpression (lhs rhs : Expr)
  /-- `lhs[…]` -/
  | indexExpression (lhs rhs : Expr)
  | slice (bounds : SliceBounds)
  /-- `lhs.*.rhs` -/
  | valueProjection (lhs rhs : Expr)

namespace Expr

instance : Inhabited Expr := ⟨.identity⟩

def nest (form : Expr → Expr) : Nat → Expr → Expr
  | 0, e => e
  | n + 1, e => form (nest form n e)

mutual

/-- Equality of expressions, their constants compared by `Literal.same`. -/
def same : Expr → Expr → Bool
  | .comparison op a b, .comparison op' a' b' => op == op' && a.same a' && b.same b'
  | .reference a, .reference a' => a.same a'
  | .call name args, .call name' args' => name == name' && sameList args args'
  | .field name, .field name' => name == name'
  | .filterProjection a b c, .filterProjection a' b' c' => a.same a' && b.same b' && c.same c'
  | .flatten a, .flatten a' => a.same a'
  | .identity, .identity => true
  | .current, .current => true
  | .root, .root => true
  | .index place, .index place' => place == place'
  | .literal value, .literal value' => value.same value'
  | .selectHash entries, .selectHash entries' => sameEntries entries entries'
  | .selectList items, .selectList items' => sameList items items'
  | .or a b, .or a' b' => a.same a' && b.same b'
  | .and a b, .and a' b' => a.same a' && b.same b'
  | .not a, .not a' => a.same a'
  | .pipe stages, .pipe stages' => sameList stages stages'
  | .projection a b, .projection a' b' => a.same a' && b.same b'
  | .subexpression a b, .subexpression a' b' => a.same a' && b.same b'
  | .indexExpression a b, .indexExpression a' b' => a.same a' && b.same b'
  | .slice bounds, .slice bounds' => bounds == bounds'
  | .valueProjection a b, .valueProjection a' b' => a.same a' && b.same b'
  | _, _ => false

def sameList : List Expr → List Expr → Bool
  | [], [] => true
  | a :: as, b :: bs => a.same b && sameList as bs
  | _, _ => false

def sameEntries : List (String × Expr) → List (String × Expr) → Bool
  | [], [] => true
  | (key, a) :: as, (key', b) :: bs => key == key' && a.same b && sameEntries as bs
  | _, _ => false

end

end Expr

end JsonQuery

import JsonQuery.Run
import JsonQuery.Value.Coercion

/-!
Custom functions. What a custom function does is a routine: it may have expressions evaluated and
other functions called, and goes on according to the outcomes. Registries hold custom functions by
name; putting one under a name that is taken replaces the other.
-/
namespace JsonQuery

inductive Routine (α : Type) where
  | done (outcome : Except Fault α)
  /-- Evaluates the expression that `expr` refers to on `item`. -/
  | execute (expr item : Value) (next : Except Fault Value → Routine α)
  | call (name : String) (args : List Value) (next : Except Fault Value → Routine α)

namespace Routine

variable {α β : Type}

def bind (r : Routine α) (f : α → Routine β) : Routine β :=
  match r with
  | .done (.ok a) => f a
  | .done (.error fault) => .done (.error fault)
  | .execute expr item next => .execute expr item fun outcome => (next outcome).bind f
  | .call name args next => .call name args fun outcome => (next outcome).bind f

instance : Monad Routine where
  pure a := .done (.ok a)
  bind := bind

def fail (message : String) : Routine α := .done (.error (.custom message))

def evaluated (expr item : Value) : Routine Value := .execute expr item .done

def called (name : String) (args : List Value) : Routine Value := .call name args .done

def run (evaluate : Expr → Value → Eval Value) (call : String → List Value → Eval Value) :
    Routine α → Eval α
  | .done outcome => Eval.ofExcept outcome
  | .execute expr item next => do
    let outcome ← Eval.attempt (match expr.body? with
      | some body => evaluate body item
      | none => throw .nonExpression)
    (next outcome).run evaluate call
  | .call name args next => do
    let outcome ← Eval.attempt (call name args)
    (next outcome).run evaluate call

end Routine

/-- A custom function of its arguments and of the root of the evaluation that calls it. -/
abbrev Handler := List Value → Value → Routine Value

structure Registry where
  entries : List (String × Handler)

namespace Registry

def empty : Registry := ⟨[]⟩

def register (name : String) (handler : Handler) (r : Registry) : Registry :=
  ⟨Keyed.insert name handler r.entries⟩

def ofList (entries : List (String × Handler)) : Registry := ⟨Keyed.ofList entries⟩

def get? (r : Registry) (name : String) : Option Handler := Keyed.get? name r.entries

def contains (r : Registry) (name : String) : Bool := (r.get? name).isSome

def size (r : Registry) : Nat := r.entries.length

@[simp] theorem get?_register_self (name : String) (handler : Handler) (r : Registry) :
    (r.register name handler).get? name = some handler :=
  Keyed.get?_insert_self name handler r.entries

theorem get?_register_of_ne {name other : String} (h : other ≠ name) (handler : Handler)
    (r : Registry) : (r.register name handler).get? other = r.get? other :=
  Keyed.get?_insert_of_ne h handler r.entries

end Registry

end JsonQuery

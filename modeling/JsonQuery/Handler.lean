import JsonQuery.Custom
import JsonQuery.Function.Basic

/-!
Handlers for everyday custom functions. A missing argument counts as null.
-/
namespace JsonQuery.Handler

def argument (args : List Value) (place : Nat) : Value := (args[place]?).getD .null

def constant (v : Value) : Handler := fun _ _ => pure v

def arguments : Handler := fun args _ => pure (.array args)

def count : Handler := fun args _ => pure (.ofNat args.length)

def root : Handler := fun _ root => pure root

def fail (message : String) : Handler := fun _ _ => Routine.fail message

/-- Evaluates its first argument, a reference, on its second. -/
def execute : Handler := fun args _ => Routine.evaluated (argument args 0) (argument args 1)

/-- Evaluates its second argument on the elements of its first. -/
def each : Handler := fun args _ =>
  match (argument args 0).sequence? with
  | some items => do return .array (← items.mapM (Routine.evaluated (argument args 1)))
  | none => Routine.fail "each: expected an array"

def countWhere : Handler := fun args _ =>
  match (argument args 0).sequence? with
  | some items => do
    let results ← items.mapM (Routine.evaluated (argument args 1))
    return .ofNat (results.countP (!·.isFalseLike))
  | none => Routine.fail "count_where: expected an array"

def delegate (name : String) : Handler := fun args _ => Routine.called name args

def apply : Handler := fun args _ => Routine.called (argument args 0).textOrEmpty args.tail

def totalLength : Handler := fun args _ => do
  let lengths ← args.mapM fun v => Routine.called Builtin.length.name [v]
  return .ofDouble (lengths.foldl (fun sum v => sum + v.doubleOrZero) (.zero false))

end JsonQuery.Handler

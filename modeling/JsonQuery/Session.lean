import JsonQuery.Evaluator
import JsonQuery.Expr.Json
import JsonQuery.Value.Identity
import JsonQuery.Value.Json

/-!
Sessions: evaluators that are used again and again, each with its own state, and registries that they
are built from. An evaluator has the registry as it was when the evaluator was built; what is
registered later does not reach it.
-/
namespace JsonQuery

inductive Operation where
  | evaluate (e : Expr) (v : Value)
  | execute (e : Expr) (v root : Value)
  | call (name : String) (args : List Value) (root : Value)

namespace Operation

/-- Identities from here on occur in no input. -/
def identityBound : Operation → Nat
  | .evaluate _ v => v.identityBound
  | .execute _ v root => max v.identityBound root.identityBound
  | .call _ args root => max (Value.itemsBound args) root.identityBound

def run (ev : Evaluator) : Operation → Eval Value
  | .evaluate e v => ev.evaluate e v
  | .execute e v root => ev.execute e v root
  | .call name args root => ev.call name args root

end Operation

structure Instance where
  evaluator : Evaluator
  state : Run

namespace Instance

def start (evaluator : Evaluator) (generator : Generator) : Instance := ⟨evaluator, .start generator⟩

def perform (i : Instance) (op : Operation) : Except Fault Value × Instance :=
  let (outcome, state) := (op.run i.evaluator).run { i.state with supply := op.identityBound }
  (outcome, { i with state })

end Instance

def Evaluator.perform (ev : Evaluator) (generator : Generator) (op : Operation) : Except Fault Value :=
  ((Instance.start ev generator).perform op).1

/-- The value of an expression on a document, by a new evaluator with no custom functions but those that all
evaluators share. -/
def search (generator : Generator) (shared : Registry) (e : Expr) (v : Value) : Except Fault Value :=
  Evaluator.perform { registry := shared } generator (.evaluate e v)

/-- From the text of an expression and the text of a document to the text of the result. -/
def searchText (r : Reading) (generator : Generator) (shared : Registry) (expr document : String) :
    Except Fault String := do
  let e ← match Expr.read? r expr with
    | some e => .ok e
    | none => .error .unknownNode
  let v ← match Value.read? r document with
    | some v => .ok v
    | none => .error .undecodable
  (← search generator shared e v).text

structure Session where
  registries : List (String × Registry)
  /-- The registry of evaluators for which none is named. -/
  shared : Registry
  evaluators : List (String × Instance)

inductive Step where
  | defineRegistry (id : String) (entries : List (String × Handler))
  | register (registry name : String) (handler : Handler)
  | registerShared (name : String) (handler : Handler)
  /-- Builds an evaluator from a registry, or from the shared one. -/
  | build (id : String) (registry : Option String) (resolver : Resolver) (maxDepth : Nat) (generator : Generator)
  | perform (evaluator : String) (op : Operation)

inductive Answer where
  | done
  | registered (there : Bool)
  | outcome (result : Except Fault Value)
  | unknown (id : String)

namespace Session

def empty : Session := ⟨[], .empty, []⟩

def source? (s : Session) : Option String → Option Registry
  | some id => Keyed.get? id s.registries
  | none => some s.shared

def step (s : Session) : Step → Answer × Session
  | .defineRegistry id entries =>
    (.done, { s with registries := Keyed.insert id (.ofList entries) s.registries })
  | .register id name handler =>
    match Keyed.get? id s.registries with
    | some r => (.done, { s with registries := Keyed.insert id (r.register name handler) s.registries })
    | none => (.unknown id, s)
  | .registerShared name handler =>
    let shared := s.shared.register name handler
    (.registered (shared.contains name), { s with shared })
  | .build id registry resolver maxDepth generator =>
    match s.source? registry with
    | some r =>
      let i := Instance.start { registry := r, resolver, maxDepth } generator
      (.done, { s with evaluators := Keyed.insert id i s.evaluators })
    | none => (.unknown (registry.getD ""), s)
  | .perform id op =>
    match Keyed.get? id s.evaluators with
    | some i =>
      let (outcome, i) := i.perform op
      (.outcome outcome, { s with evaluators := Keyed.insert id i s.evaluators })
    | none => (.unknown id, s)

def run : Session → List Step → List Answer × Session
  | s, [] => ([], s)
  | s, step :: rest =>
    let (answer, s) := s.step step
    let (answers, s) := run s rest
    (answer :: answers, s)

end Session

end JsonQuery

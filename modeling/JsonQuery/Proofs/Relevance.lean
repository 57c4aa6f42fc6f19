import JsonQuery.Handler
import JsonQuery.Proofs.Simulation.Content
import JsonQuery.Session

/-!
Only the functions that can be called matter. When the values of an evaluation stay within a content whose
references call functions of a fragment, and custom functions keep to both, evaluators with the same
functions in the fragment do the same. With no restriction at all this compares an evaluator with itself,
started in two states.
-/
namespace JsonQuery

open Eval

/-- Whether a routine has only references of a content evaluated, on values of it, and calls only functions
of a set, as long as it is given such values. -/
def Routine.Stays (K : Content) (function : String → Prop) {α : Type} (P : α → Prop) :
    Routine α → Prop
  | .done outcome => ∀ a, outcome = .ok a → P a
  | .execute expr item next => expr.Holds K ∧ item.Holds K ∧
    ∀ outcome : Except Fault Value, (∀ v, outcome = .ok v → v.Holds K) →
      (next outcome).Stays K function P
  | .call name args next => function name ∧ Value.ItemsHold K args ∧
    ∀ outcome : Except Fault Value, (∀ v, outcome = .ok v → v.Holds K) →
      (next outcome).Stays K function P

def Handler.Stays (K : Content) (function : String → Prop) (handler : Handler) : Prop :=
  ∀ args root, Value.ItemsHold K args → root.Holds K →
    (handler args root).Stays K function (Value.Holds K)

/-- Whether the tree of an operation is of a fragment, its values are of a content, and the function that
it calls is of the fragment. -/
def Operation.Stays (K : Content) (F : Fragment) : Operation → Prop
  | .evaluate e v => e.Within F ∧ v.Holds K
  | .execute e v root => e.Within F ∧ v.Holds K ∧ root.Holds K
  | .call name args root => F.function name ∧ Value.ItemsHold K args ∧ root.Holds K

theorem Routine.stays_all {α : Type} {P : α → Prop} (always : ∀ a, P a) (r : Routine α) :
    r.Stays .all (fun _ => True) P := by
  induction r with
  | done outcome => exact fun a _ => always a
  | execute expr item next ih => exact ⟨expr.holds_all, item.holds_all, fun outcome _ => ih outcome⟩
  | call name args next ih => exact ⟨trivial, Value.itemsHold_all args, fun outcome _ => ih outcome⟩

theorem Handler.stays_all (handler : Handler) : handler.Stays .all fun _ => True :=
  fun args root _ _ => (handler args root).stays_all Value.holds_all

theorem Operation.stays_all (op : Operation) : op.Stays .all .all := by
  cases op with
  | evaluate e v => exact ⟨e.within_all, v.holds_all⟩
  | execute e v root => exact ⟨e.within_all, v.holds_all, root.holds_all⟩
  | call name args root => exact ⟨trivial, Value.itemsHold_all args, root.holds_all⟩

variable {K : Content}

open Correspondence

theorem Routine.run_simulates_of_stays {T : Tolerance} (exact : T.Exact) {function : String → Prop}
    {α : Type} {P : α → Prop} {evaluate evaluate' : Expr → Value → Eval Value}
    {call call' : String → List Value → Eval Value}
    (evaluates : ∀ {e f v w}, (diagonal T K).expr e f → (diagonal T K).value v w →
      Simulates T (diagonal T K).value (evaluate e v) (evaluate' f w))
    (calls : ∀ {name args args'}, function name → List.Forall₂ (diagonal T K).value args args' →
      Simulates T (diagonal T K).value (call name args) (call' name args'))
    {r : Routine α} (stays : r.Stays K function P) :
    Simulates T (fun a b => P a ∧ a = b) (r.run evaluate call) (r.run evaluate' call') := by
  have goes {x y : Eval Value} (step : Simulates T (diagonal T K).value x y)
      {next : Except Fault Value → Routine α}
      (ih : ∀ outcome, (∀ v, outcome = .ok v → v.Holds K) →
        Simulates T (fun a b => P a ∧ a = b) ((next outcome).run evaluate call)
          ((next outcome).run evaluate' call')) :
      Simulates T (fun a b => P a ∧ a = b)
        (attempt x >>= fun outcome => (next outcome).run evaluate call)
        (attempt y >>= fun outcome => (next outcome).run evaluate' call') := by
    apply (step.attempt exact).bind
    intro outcome outcome' related
    cases related with
    | ok value =>
      obtain ⟨holds, rfl⟩ := value
      apply ih
      rintro v ⟨⟩
      exact holds
    | error alike =>
      obtain rfl := exact.eq alike
      exact ih _ nofun
  induction r with
  | done outcome =>
    cases outcome with
    | ok a => exact .pure ⟨stays a rfl, rfl⟩
    | error fault => exact .throw (exact.reflexive fault)
  | execute expr item next ih =>
    obtain ⟨reference, value, continues⟩ := stays
    apply goes _ fun outcome holds => ih outcome (continues outcome holds)
    cases expr with
    | reference _ body => exact evaluates ⟨reference, rfl⟩ ⟨value, rfl⟩
    | _ => exact .throw (exact.reflexive _)
  | call name args next ih =>
    obtain ⟨called, hold, continues⟩ := stays
    exact goes (calls called (diagonal_items hold)) fun outcome holds =>
      ih outcome (continues outcome holds)

namespace Evaluator

/-- What two evaluators have in common that have the same functions in a fragment, where the custom ones
among them keep to a content and to the fragment. -/
structure Agree (K : Content) (F : Fragment) (ev ev' : Evaluator) : Prop where
  closed : K.Closed ev.resolver
  bodies : ∀ e, K.body e ↔ e.Within F
  resolver : ev.resolver = ev'.resolver
  sorter : ev.sorter = ev'.sorter
  maxDepth : ev.maxDepth = ev'.maxDepth
  maxCalls : ev.maxCalls = ev'.maxCalls
  functions : ∀ name, F.function name → ev.registry.get? name = ev'.registry.get? name
  stay : ∀ name handler, F.function name → ev.registry.get? name = some handler →
    handler.Stays K F.function

theorem agree_self (ev : Evaluator) : Agree .all .all ev ev where
  closed := .all ev.resolver
  bodies e := ⟨fun _ => e.within_all, fun _ => trivial⟩
  resolver := rfl
  sorter := rfl
  maxDepth := rfl
  maxCalls := rfl
  functions _ _ := rfl
  stay _ handler _ _ := handler.stays_all

theorem execute_apply (ev : Evaluator) (e : Expr) (v root : Value) (run : Run) :
    ev.execute e v root run = executeWithin ev root (ev.maxDepth - run.depth) e v run := rfl

namespace Agree

variable {F : Fragment} {ev ev' : Evaluator} (agree : Agree K F ev ev')
include agree

theorem lawful {T : Tolerance} (exact : T.Exact) : (diagonal T K).Lawful :=
  diagonal_lawful agree.closed fun _ _ _ _ => exact.reflexive _

section Node

variable {T : Tolerance} (exact : T.Exact)
  (draws : F.function Builtin.shuffle.name → ev.registry.get? Builtin.shuffle.name = none → T.Draws)
  {evaluate evaluate' : Function.Evaluate}
  (evaluates : ∀ {e f v w}, (diagonal T K).expr e f → (diagonal T K).value v w →
    Simulates T (diagonal T K).value (evaluate e v) (evaluate' f w))
include exact draws evaluates

theorem callWithin {root : Value} (holds : root.Holds K) (calls : Nat) {name : String}
    (called : F.function name) {args args' : List Value}
    (related : List.Forall₂ (diagonal T K).value args args') :
    Simulates T (diagonal T K).value (ev.callWithin evaluate root calls name args)
      (ev'.callWithin evaluate' root calls name args') := by
  have builtin {calls : Nat} {name : String} {args args' : List Value} (called : F.function name)
      (related : List.Forall₂ (diagonal T K).value args args')
      (absent : ev.registry.get? name = none) :
      Simulates T (diagonal T K).value (ev.callWithin evaluate root calls name args)
        (ev'.callWithin evaluate' root calls name args') := by
    have absent' : ev'.registry.get? name = none := agree.functions name called ▸ absent
    apply (agree.lawful exact).builtin agree.sorter evaluates absent absent' _ related
    rintro b rfl
    apply diagonal_admits b (fun _ _ fault _ => exact.reflexive fault) fun _ _ => exact.reflexive _
    rintro rfl
    exact draws called absent
  induction calls generalizing name args args' with
  | zero =>
    cases there : ev.registry.get? name with
    | none => exact builtin called related there
    | some handler =>
      unfold Evaluator.callWithin
      rw [← agree.functions name called, ← agree.maxCalls, there]
      exact .throw (exact.reflexive _)
  | succ calls ih =>
    cases there : ev.registry.get? name with
    | none => exact builtin called related there
    | some handler =>
      unfold Evaluator.callWithin
      rw [← agree.functions name called, there]
      obtain ⟨hold, rfl⟩ := diagonal_items_iff.1 related
      have stays := agree.stay name handler called there args root hold holds
      exact Routine.run_simulates_of_stays exact evaluates (fun called related => ih called related) stays

theorem step {root : Value} (holds : root.Holds K) {e : Expr} (within : e.Within F) {v : Value}
    (current : v.Holds K) :
    Simulates T (diagonal T K).value (ev.step evaluate root e v) (ev'.step evaluate' root e v) := by
  have shared : (diagonal T K).Shared F ev ev' :=
    diagonal_shared (agree.lawful exact) agree.closed agree.resolver
  have layer : Expr.Layer F (diagonal T K).expr e e :=
    within.layer fun e within => ⟨(agree.bodies e).2 within, rfl⟩
  apply shared.step (fun _ => ⟨holds, rfl⟩) evaluates _ layer ⟨current, rfl⟩
  intro name args args' called related
  rw [← agree.maxCalls]
  exact agree.callWithin exact draws evaluates holds ev.maxCalls called related

end Node

section Runs

variable {T : Nat → Tolerance} (exact : ∀ d, (T d).Exact)
  (draws : F.function Builtin.shuffle.name → ev.registry.get? Builtin.shuffle.name = none →
    ∀ d, (T d).Draws)
  (opens : ∀ d, (T d).Opens (T (d + 1)) ev.maxDepth)
include exact draws opens

theorem executeWithin {root : Value} (holds : root.Holds K) (levels d : Nat) {e f : Expr} {v w : Value}
    (expr : (diagonal (T d) K).expr e f) (value : (diagonal (T d) K).value v w) :
    Simulates (T d) (diagonal (T d) K).value (ev.executeWithin root levels e v)
      (ev'.executeWithin root levels f w) := by
  apply Correspondence.executeWithin_simulates opens (.inl agree.maxDepth) _ (.inl rfl) d expr value
  rintro d evaluate evaluate' evaluates e _ v _ ⟨body, rfl⟩ ⟨current, rfl⟩
  exact agree.step (exact d) (fun called absent => draws called absent d) evaluates holds
    ((agree.bodies e).1 body) current

theorem execute {root : Value} (holds : root.Holds K) (d : Nat) {e f : Expr} {v w : Value}
    (expr : (diagonal (T d) K).expr e f) (value : (diagonal (T d) K).value v w) :
    Simulates (T d) (diagonal (T d) K).value (ev.execute e v root) (ev'.execute f w root) := by
  intro run run' start
  rw [execute_apply, execute_apply, ← agree.maxDepth, ← (T d).depth start]
  exact agree.executeWithin exact draws opens holds _ d expr value start

theorem run (d : Nat) {op : Operation} (stays : op.Stays K F) :
    Simulates (T d) (diagonal (T d) K).value (op.run ev) (op.run ev') := by
  have body {e : Expr} (within : e.Within F) : (diagonal (T d) K).expr e e :=
    ⟨(agree.bodies e).2 within, rfl⟩
  cases op with
  | evaluate e v =>
    exact agree.execute exact draws opens stays.2 d (body stays.1) ⟨stays.2, rfl⟩
  | execute e v root =>
    exact agree.execute exact draws opens stays.2.2 d (body stays.1) ⟨stays.2.1, rfl⟩
  | call name args root =>
    rw [Operation.run, Operation.run, call, call, ← agree.maxCalls]
    exact agree.callWithin (exact d) (fun called absent => draws called absent d)
      (agree.execute exact draws opens stays.2.2 d) stays.2.2 ev.maxCalls stays.1
      (diagonal_items stays.2.1)

end Runs

end Agree

end Evaluator

end JsonQuery

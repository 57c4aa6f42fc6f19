import JsonQuery.Handler
import JsonQuery.Proofs.Simulation.Identity
import JsonQuery.Session

/-!
Failures go all the way up. When the custom functions return every failure they are given, a failure
raised anywhere is the outcome of the whole evaluation. So where the outcome is another one, the
function that fails was not called, and the limit on the depth was not reached.
-/
namespace JsonQuery

open Eval

/-- Whether a routine ends in every failure that it is given. -/
def Routine.Propagates {α : Type} : Routine α → Prop
  | .done _ => True
  | .execute _ _ next | .call _ _ next =>
    (∀ fault, next (.error fault) = .done (.error fault)) ∧ ∀ v, (next (.ok v)).Propagates

def Handler.Propagates (handler : Handler) : Prop := ∀ args root, (handler args root).Propagates

theorem Handler.execute_propagates : Handler.Propagates Handler.execute :=
  fun _ _ => ⟨fun _ => rfl, fun _ => trivial⟩

/-- Of each name both registries have a function or none has. It is the same function, one that
propagates failures, unless that of the first registry always fails with a fault of `P`. -/
def Registry.Follows (P : Fault → Prop) (r r' : Registry) : Prop :=
  ∀ name, Option.Rel
    (fun handler handler' : Handler => (handler = handler' ∧ handler.Propagates) ∨
      ∀ args root, ∃ fault, P fault ∧ handler args root = .done (.error fault))
    (r.get? name) (r'.get? name)

section Runs

variable {P : Fault → Prop}

theorem Routine.run_simulates {α : Type} {evaluate evaluate' : Expr → Value → Eval Value}
    {call call' : String → List Value → Eval Value}
    (evaluates : ∀ e v, Simulates (.excusing P) Eq (evaluate e v) (evaluate' e v))
    (calls : ∀ name args, Simulates (.excusing P) Eq (call name args) (call' name args))
    {r : Routine α} (propagates : r.Propagates) :
    Simulates (.excusing P) Eq (r.run evaluate call) (r.run evaluate' call') := by
  -- a failed step is the last one, so an excused step excuses the routine
  have request {x y : Eval Value} {next : Except Fault Value → Routine α}
      (step : Simulates (.excusing P) Eq x y)
      (fails : ∀ fault, next (.error fault) = .done (.error fault))
      (continues : ∀ outcome, Simulates (.excusing P) Eq ((next outcome).run evaluate call)
        ((next outcome).run evaluate' call')) :
      Simulates (.excusing P) Eq (attempt x >>= fun outcome => (next outcome).run evaluate call)
        (attempt y >>= fun outcome => (next outcome).run evaluate' call') := by
    intro run _ start
    cases start
    rcases hx : x run with ⟨fault | v, after⟩
    · by_cases out : P fault
      · refine .inl ⟨fault, out, ?_⟩
        rw [attempt_bind_of_error _ hx, fails fault]
        split <;> rfl
      · have same : y run = x run :=
          step.eq_of_not_excused fun other excuse failed => out (by rw [hx] at failed; cases failed; exact excuse)
        rw [attempt_bind_of_error _ hx, attempt_bind_of_error _ (same.trans hx)]
        split
        · exact .inr ⟨rfl, .error rfl⟩
        · exact continues _ rfl
    · have same : y run = x run := step.eq_of_not_excused fun _ _ failed => by rw [hx] at failed; cases failed
      rw [attempt_bind_of_ok _ hx, attempt_bind_of_ok _ (same.trans hx)]
      exact continues _ rfl
  induction r with
  | done outcome =>
    cases outcome with
    | ok a => exact .pure rfl
    | error fault => exact .throw rfl
  | execute expr item next ih =>
    refine request ?_ propagates.1 fun outcome => ?_
    · cases expr.body? with
      | none => exact .throw rfl
      | some body => exact evaluates body item
    · cases outcome with
      | ok v => exact ih (.ok v) (propagates.2 v)
      | error fault =>
        rw [propagates.1 fault]
        exact .throw rfl
  | call name args next ih =>
    refine request (calls name args) propagates.1 fun outcome => ?_
    cases outcome with
    | ok v => exact ih (.ok v) (propagates.2 v)
    | error fault =>
      rw [propagates.1 fault]
      exact .throw rfl

namespace Evaluator

variable {ev ev' : Evaluator}

theorem callWithin_simulates (sorter : ev.sorter = ev'.sorter) (maxCalls : ev.maxCalls = ev'.maxCalls)
    (handlers : Registry.Follows P ev.registry ev'.registry)
    {evaluate evaluate' : Function.Evaluate}
    (evaluates : ∀ e v, Simulates (.excusing P) Eq (evaluate e v) (evaluate' e v)) (root : Value)
    (calls : Nat) (name : String) (args : List Value) :
    Simulates (.excusing P) Eq (callWithin ev evaluate root calls name args)
      (callWithin ev' evaluate' root calls name args) := by
  have builtin {calls : Nat} {name : String} {args : List Value}
      (absent : ev.registry.get? name = none) (absent' : ev'.registry.get? name = none) :
      Simulates (.excusing P) Eq (callWithin ev evaluate root calls name args)
        (callWithin ev' evaluate' root calls name args) := by
    exact builtin_simulates (Tolerance.excusing_reflexive P) evaluates sorter
      (fun _ => Tolerance.draws_of_eq rfl) absent absent' root calls args
  induction calls generalizing name args with
  | zero =>
    rcases rel_cases (handlers name) with ⟨absent, absent'⟩ | ⟨f, f', there, there', _⟩
    · exact builtin absent absent'
    · unfold callWithin
      rw [there, there', maxCalls]
      exact .throw rfl
  | succ calls ih =>
    rcases rel_cases (handlers name) with ⟨absent, absent'⟩ | ⟨f, f', there, there', related⟩
    · exact builtin absent absent'
    · unfold callWithin
      rw [there, there']
      dsimp only
      rcases related with ⟨rfl, propagates⟩ | fails
      · exact Routine.run_simulates evaluates ih (propagates args root)
      · obtain ⟨fault, excuse, failed⟩ := fails args root
        rw [failed]
        exact .excused excuse _

theorem run_simulates (handlers : Registry.Follows P ev.registry ev'.registry)
    (resolver : ev.resolver = ev'.resolver) (sorter : ev.sorter = ev'.sorter)
    (maxCalls : ev.maxCalls = ev'.maxCalls)
    (limits : ev.maxDepth = ev'.maxDepth ∨
      ev.maxDepth ≤ ev'.maxDepth ∧ P (.recursionLimit ev.maxDepth)) (op : Operation) :
    Simulates (.excusing P) Eq (op.run ev) (op.run ev') := by
  have execute (e : Expr) (v root : Value) :
      Simulates (.excusing P) Eq (ev.execute e v root) (ev'.execute e v root) := by
    intro run _ start
    cases start
    refine executeWithin_simulates (T := fun _ => .excusing P)
      (fun _ => Tolerance.excusing_reflexive P) (fun _ => Tolerance.opens_of_eq rfl _) resolver
      (limits.imp_right fun ⟨less, excuse⟩ => ⟨less, fun _ => excuse⟩) ?_ ?_ 0 e v rfl
    · intro _ _ _ evaluates
      rw [← maxCalls]
      exact callWithin_simulates sorter maxCalls handlers evaluates root ev.maxCalls
    · exact limits.imp (congrArg (· - run.depth)) fun ⟨less, excuse⟩ =>
        ⟨Nat.sub_le_sub_right less _, fun _ => excuse⟩
  cases op with
  | evaluate e v => exact execute e v v
  | execute e v root => exact execute e v root
  | call name args root =>
    rw [Operation.run, Operation.run, call, call, ← maxCalls]
    exact callWithin_simulates sorter maxCalls handlers (fun e v => execute e v root) root ev.maxCalls name args

/-- The evaluator with one custom function more, or another one of the name. -/
def extend (ev : Evaluator) (name : String) (handler : Handler) : Evaluator :=
  { ev with registry := ev.registry.register name handler }

end Evaluator

end Runs

namespace Evaluator

/-- If a function that always fails is not what ends an operation, the operation never called it: any
other function in its place leaves the outcome and the state as they are. -/
theorem run_extend_eq {ev : Evaluator} {name message : String}
    (others : ∀ other handler, other ≠ name → ev.registry.get? other = some handler →
      Handler.Propagates handler) (handler : Handler) {op : Operation} {run : Run}
    (survives : (op.run (ev.extend name (.fail message)) run).1 ≠ .error (.custom message)) :
    op.run (ev.extend name handler) run = op.run (ev.extend name (.fail message)) run := by
  have handlers : Registry.Follows (· = .custom message)
      (ev.extend name (.fail message)).registry (ev.extend name handler).registry := by
    intro other
    by_cases this : other = name
    · subst this
      rw [extend, extend, Registry.get?_register_self, Registry.get?_register_self]
      exact .some (.inr fun _ _ => ⟨_, rfl, rfl⟩)
    · rw [extend, extend, Registry.get?_register_of_ne this, Registry.get?_register_of_ne this]
      cases there : ev.registry.get? other with
      | none => exact .none
      | some f => exact .some (.inl ⟨rfl, others other f this there⟩)
  refine (run_simulates handlers rfl rfl rfl (.inl rfl) op).eq_of_not_excused ?_
  rintro fault rfl
  exact survives

/-- An evaluator with one custom function, which evaluates its first argument on its second. -/
def running : Evaluator := { registry := .ofList [("run", Handler.execute)] }

theorem eq_execute_of_running {name : String} {handler : Handler}
    (h : running.registry.get? name = some handler) : handler = Handler.execute := by
  by_cases this : name = "run" <;>
    simp_all [running, Registry.get?, Registry.ofList, Keyed.ofList, Keyed.insertAll,
      Keyed.insert, Keyed.get?, eq_comm]

theorem running_propagates (name : String) (handler : Handler)
    (h : running.registry.get? name = some handler) : handler.Propagates := by
  rw [eq_execute_of_running h]
  exact Handler.execute_propagates

/-- `run(&(@ || f()), true)`, which has no need of `f`. -/
def guardedCall : Expr :=
  .call "run" [.reference (.or .current (.call "f" [])), .literal (.bool true)]

theorem run_guardedCall_extend :
    ((Operation.evaluate guardedCall .null).run (running.extend "f" (.fail "no"))
      (.seeded 0)).1 = .ok (.bool true) ∧
    (Operation.evaluate guardedCall .null).run (running.extend "f" Handler.count) (.seeded 0) =
      (Operation.evaluate guardedCall .null).run (running.extend "f" (.fail "no")) (.seeded 0) := by
  have outcome : ((Operation.evaluate guardedCall .null).run
      (running.extend "f" (.fail "no")) (.seeded 0)).1 = .ok (.bool true) := rfl
  refine ⟨outcome, run_extend_eq (fun other handler _ => running_propagates other handler) _ ?_⟩
  rw [outcome]
  nofun

/-- A limit on the depth only cuts: an outcome that is no failure at the limit is the one under every
higher limit. -/
theorem run_maxDepth_eq {ev : Evaluator}
    (propagate : ∀ name handler, ev.registry.get? name = some handler →
      Handler.Propagates handler) {d d' : Nat} (less : d ≤ d') {op : Operation} {run : Run}
    (uncut : ∀ limit, (op.run { ev with maxDepth := d } run).1 ≠ .error (.recursionLimit limit)) :
    op.run { ev with maxDepth := d' } run = op.run { ev with maxDepth := d } run := by
  have handlers : Registry.Follows (fun fault => ∃ limit, fault = .recursionLimit limit)
      ev.registry ev.registry := by
    intro name
    cases there : ev.registry.get? name with
    | none => exact .none
    | some f => exact .some (.inl ⟨rfl, propagate name f there⟩)
  have simulates : Simulates (.excusing fun fault => ∃ limit, fault = .recursionLimit limit) Eq
      (op.run { ev with maxDepth := d }) (op.run { ev with maxDepth := d' }) :=
    @run_simulates _ { ev with maxDepth := d } { ev with maxDepth := d' } handlers rfl rfl rfl
      (.inr ⟨less, d, rfl⟩) op
  refine simulates.eq_of_not_excused ?_
  rintro fault ⟨limit, rfl⟩
  exact uncut limit

theorem run_guardedCall_maxDepth :
    ((Operation.evaluate guardedCall .null).run { running with maxDepth := 3 }
      (.seeded 0)).1 = .ok (.bool true) ∧
    (Operation.evaluate guardedCall .null).run { running with maxDepth := 512 } (.seeded 0) =
      (Operation.evaluate guardedCall .null).run { running with maxDepth := 3 } (.seeded 0) := by
  have outcome : ((Operation.evaluate guardedCall .null).run
      { running with maxDepth := 3 } (.seeded 0)).1 = .ok (.bool true) := rfl
  refine ⟨outcome, run_maxDepth_eq running_propagates (by decide) fun limit => ?_⟩
  rw [outcome]
  nofun

end Evaluator

end JsonQuery

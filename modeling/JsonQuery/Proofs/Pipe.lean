import JsonQuery.Proofs.Nesting
import Mathlib.Data.List.Induction

/-!
Pipes regrouped. Pipes within a pipe, and a chain of subexpressions, do what one flat pipe of the same
stages does; they only stand deeper, so that they may come to the limit where the flat pipe does not.
-/
namespace JsonQuery

open Eval

/-- Subexpressions nested to the left: `first.a.b` for the rest `[a, b]`. -/
def Expr.chain (first : Expr) (rest : List Expr) : Expr := rest.foldl .subexpression first

theorem Expr.chain_append_singleton (first : Expr) (rest : List Expr) (last : Expr) :
    chain first (rest ++ [last]) = .subexpression (chain first rest) last :=
  List.foldl_concat ..

namespace Evaluator

/-- Whether the second expression has the outcome of the first one, on every value and from every state,
unless the first one comes to the limit. -/
def ReplaceableBy (ev : Evaluator) (e f : Expr) : Prop :=
  ∀ (v root : Value) (run : Run), (∀ limit, (ev.execute e v root run).1 ≠ .error (.recursionLimit limit)) →
    (ev.execute f v root run).1 = (ev.execute e v root run).1

variable {ev : Evaluator}

theorem replaceableBy_of_lifts {e f : Expr}
    (h : ∀ d v root, Lifts d d (ev.execute e v root) (ev.execute f v root)) : ev.ReplaceableBy e f :=
  fun v root _ uncut => Lifts.outcome_eq (fun d => h d v root) uncut

def pour (ev : Evaluator) (root : Value) (stages : List Expr) (v : Value) : Eval Value :=
  stages.foldlM (fun current stage => ev.execute stage current root) v

theorem pour_append (root : Value) (xs ys : List Expr) (v : Value) :
    ev.pour root (xs ++ ys) v = ev.pour root xs v >>= ev.pour root ys :=
  List.foldlM_append

theorem pour_singleton (root : Value) (stage : Expr) (v : Value) :
    ev.pour root [stage] v = ev.execute stage v root := by
  simp [pour]

theorem execute_pipe (stages : List Expr) (v root : Value) :
    ev.execute (.pipe stages) v root = nested ev.maxDepth (ev.pour root stages v) :=
  execute_eq_nested ..

theorem execute_subexpression (lhs rhs : Expr) (v root : Value) : ev.execute (.subexpression lhs rhs) v root =
    nested ev.maxDepth (ev.execute lhs v root >>= fun w => ev.execute rhs w root) :=
  execute_eq_nested ..

theorem execute_two_stages (first second : Expr) (v root : Value) :
    ev.execute (.pipe [first, second]) v root = ev.execute (.subexpression first second) v root := by
  rw [execute_pipe, execute_subexpression]
  simp [pour]

section Lifts

variable {d d' : Nat}
  (propagate : ∀ name handler, ev.registry.get? name = some handler → Handler.Propagates handler)
include propagate

theorem pour_lifts (above : d' ≤ d) (root : Value) (stages : List Expr) (v : Value) :
    Lifts d d' (ev.pour root stages v) (ev.pour root stages v) :=
  Lifts.composes.foldlM (fun stage _ current => execute_lifts propagate above stage current root) v

/-- A pipe as a stage, beside its stages in its place. -/
theorem pipe_lifts_pour (above : d' ≤ d) (root : Value) (stages : List Expr) (v : Value) :
    Lifts d d' (ev.execute (.pipe stages) v root) (ev.pour root stages v) := by
  rw [execute_pipe]
  exact .nested_left (pour_lifts propagate (Nat.le_succ_of_le above) root stages v)

/-- A chain, beside its stages in its place: each stage but the last stands one level deeper than the
next. -/
theorem chain_lifts_pour (above : d' ≤ d) (root : Value) (first : Expr) (rest : List Expr) (v : Value) :
    Lifts d d' (ev.execute (.chain first rest) v root) (ev.pour root (first :: rest) v) := by
  induction rest using List.reverseRecOn generalizing d with
  | nil =>
    rw [pour_singleton]
    exact execute_lifts propagate above first v root
  | append_singleton rest last ih =>
    rw [Expr.chain_append_singleton, execute_subexpression, ← List.cons_append, pour_append]
    refine .nested_left ((ih (Nat.le_succ_of_le above)).bind fun w => ?_)
    rw [pour_singleton]
    exact execute_lifts propagate (Nat.le_succ_of_le above) last w root

theorem pipes_lift_pour (root : Value) (xs ys : List Expr) (v : Value) :
    Lifts d d (ev.execute (.pipe xs) v root >>= fun w => ev.execute (.pipe ys) w root)
      (ev.pour root (xs ++ ys) v) := by
  rw [pour_append]
  exact (pipe_lifts_pour propagate Nat.le.refl root xs v).bind fun w =>
    pipe_lifts_pour propagate Nat.le.refl root ys w

theorem chain_lifts_pipe (root : Value) (first : Expr) {rest : List Expr} (more : rest ≠ []) (v : Value) :
    Lifts d d (ev.execute (.chain first rest) v root) (ev.execute (.pipe (first :: rest)) v root) := by
  obtain ⟨init, last, rfl⟩ := (List.eq_nil_or_concat' rest).resolve_left more
  rw [Expr.chain_append_singleton, execute_subexpression, execute_pipe, ← List.cons_append, pour_append]
  refine .nested Nat.le.refl ((chain_lifts_pour propagate Nat.le.refl root first init v).bind fun w => ?_)
  rw [pour_singleton]
  exact execute_lifts propagate Nat.le.refl last w root

end Lifts

/-- Grouping matters only for the limit: pipes within a pipe or a subexpression, and a chain of two
stages or more, may be replaced by the flat pipe, and a pipe of one stage by the stage. -/
theorem pipes_regrouped
    (propagate : ∀ name handler, ev.registry.get? name = some handler → Handler.Propagates handler) :
    (∀ xs ys, ev.ReplaceableBy (.pipe [.pipe xs, .pipe ys]) (.pipe (xs ++ ys))) ∧
    (∀ xs ys, ev.ReplaceableBy (.subexpression (.pipe xs) (.pipe ys)) (.pipe (xs ++ ys))) ∧
    (∀ first rest, rest ≠ [] → ev.ReplaceableBy (.chain first rest) (.pipe (first :: rest))) ∧
    ∀ stage, ev.ReplaceableBy (.pipe [stage]) stage := by
  have subexpression (xs ys) : ev.ReplaceableBy (.subexpression (.pipe xs) (.pipe ys)) (.pipe (xs ++ ys)) := by
    refine replaceableBy_of_lifts fun d v root => ?_
    rw [execute_subexpression, execute_pipe (xs ++ ys)]
    exact .nested Nat.le.refl (pipes_lift_pour propagate root xs ys v)
  refine ⟨fun xs ys v root run => ?_, subexpression, fun first rest more => ?_, fun stage => ?_⟩
  · rw [execute_two_stages]
    exact subexpression xs ys v root run
  · exact replaceableBy_of_lifts fun d v root => chain_lifts_pipe propagate root first more v
  · refine replaceableBy_of_lifts fun d v root => ?_
    rw [← pour_singleton root stage v]
    exact pipe_lifts_pour propagate Nat.le.refl root [stage] v

def negation : Expr := .not .current

theorem pipes_guardedCall :
    (running.execute (.pipe [.pipe [guardedCall, negation], .pipe [negation]]) .null .null (.seeded 0)).1.isOk = true ∧
    (running.execute (.pipe [guardedCall, negation, negation]) .null .null (.seeded 0)).1 =
      (running.execute (.pipe [.pipe [guardedCall, negation], .pipe [negation]]) .null .null (.seeded 0)).1 ∧
    (running.execute (.chain guardedCall [negation]) .null .null (.seeded 0)).1.isOk = true ∧
    (running.execute (.pipe [guardedCall, negation]) .null .null (.seeded 0)).1 =
      (running.execute (.chain guardedCall [negation]) .null .null (.seeded 0)).1 := by
  obtain ⟨pipes, -, chains, -⟩ := pipes_regrouped running_propagates
  have grouped : (running.execute (.pipe [.pipe [guardedCall, negation], .pipe [negation]]) .null .null
      (.seeded 0)).1.isOk = true := by
    decide +kernel
  have chained : (running.execute (.chain guardedCall [negation]) .null .null (.seeded 0)).1.isOk = true := by
    decide +kernel
  exact ⟨grouped, pipes [guardedCall, negation] [negation] _ _ _ fun limit => ne_error_of_isOk grouped _,
    chained, chains guardedCall [negation] (List.cons_ne_nil _ _) _ _ _ fun limit => ne_error_of_isOk chained _⟩

/-- One stage is its own chain, but a pipe of it is a node more. -/
theorem not_replaceableBy_pipe_singleton :
    ¬ ReplaceableBy { maxDepth := 1 } (.chain .current []) (.pipe [.current]) := by
  intro replaceable
  have stage : (execute { maxDepth := 1 } (.chain .current []) .null .null (.seeded 0)).1 = .ok .null := rfl
  have pipe : (execute { maxDepth := 1 } (.pipe [.current]) .null .null (.seeded 0)).1 =
      .error (.recursionLimit 1) := rfl
  have same := replaceable .null .null (.seeded 0) fun limit => by
    rw [stage]
    nofun
  rw [stage, pipe] at same
  cases same

end Evaluator

end JsonQuery

import JsonQuery.Evaluator

/-!
A node is composed of the computations of its parts. What holds of results, and of one computation after
another, therefore holds of a node if it holds of its parts and of the little that the node does itself.
-/
namespace JsonQuery

namespace Expr

/-- The expressions that a node evaluates; the body of a reference is not among them. -/
def children : Expr → List Expr
  | .comparison _ lhs rhs | .or lhs rhs | .and lhs rhs | .projection lhs rhs | .subexpression lhs rhs
  | .indexExpression lhs rhs | .valueProjection lhs rhs => [lhs, rhs]
  | .filterProjection lhs rhs predicate => [lhs, rhs, predicate]
  | .flatten body | .not body => [body]
  | .call _ es | .selectList es | .pipe es => es
  | .selectHash entries => entries.map (·.2)
  | .reference _ | .field _ | .identity | .current | .root | .index _ | .literal _ | .slice _ => []

/-- Whether a node is one of those that evaluating an expression may come to. -/
inductive Inside (node : Expr) : Expr → Prop
  | self : Inside node node
  | child {part e : Expr} (mem : part ∈ e.children) (inside : Inside node part) : Inside node e

theorem inside_leaf_iff {node leaf : Expr} (bare : leaf.children = []) : Inside node leaf ↔ node = leaf := by
  constructor
  · intro inside
    cases inside with
    | self => rfl
    | child mem => simp [bare] at mem
  · rintro rfl
    exact .self

/-- Whether an expression makes no reference and calls no function that evaluates or draws. -/
def Stateless (e : Expr) : Prop :=
  (∀ body, ¬ Inside (.reference body) e) ∧
  ∀ b args, Inside (.call (Builtin.name b) args) e → b.needsContext = false

theorem Stateless.child {part e : Expr} (stateless : e.Stateless) (mem : part ∈ e.children) : part.Stateless :=
  ⟨fun body inside => stateless.1 body (.child mem inside),
    fun b args inside => stateless.2 b args (.child mem inside)⟩

end Expr

/-- Relations between computations that hold of results, and of one computation after another. -/
structure Eval.Composes (C : ∀ ⦃α : Type⦄, Eval α → Eval α → Prop) : Prop where
  pure {α : Type} (a : α) : C (pure a) (pure a)
  bind {α β : Type} {x y : Eval α} {f g : α → Eval β} (first : C x y) (next : ∀ a, C (f a) (g a)) :
    C (x >>= f) (y >>= g)

namespace Eval.Composes

variable {C : ∀ ⦃α : Type⦄, Eval α → Eval α → Prop} (composes : Composes C) {α β : Type}
include composes

theorem mapM {f g : α → Eval β} {xs : List α} (each : ∀ a ∈ xs, C (f a) (g a)) : C (xs.mapM f) (xs.mapM g) := by
  induction xs with
  | nil => exact composes.pure []
  | cons a as ih =>
    obtain ⟨head, rest⟩ := List.forall_mem_cons.1 each
    rw [List.mapM_cons, List.mapM_cons]
    exact composes.bind head fun b => composes.bind (ih rest) fun bs => composes.pure _

theorem foldlM {f g : β → α → Eval β} {xs : List α} (each : ∀ a ∈ xs, ∀ b, C (f b a) (g b a)) (b : β) :
    C (xs.foldlM f b) (xs.foldlM g b) := by
  induction xs generalizing b with
  | nil => exact composes.pure b
  | cons a as ih =>
    obtain ⟨head, rest⟩ := List.forall_mem_cons.1 each
    rw [List.foldlM_cons, List.foldlM_cons]
    exact composes.bind (head b) (ih rest)

end Eval.Composes

namespace Evaluator

open Eval

variable {C : ∀ ⦃α : Type⦄, Eval α → Eval α → Prop} {ev : Evaluator} {evaluate evaluate' : Function.Evaluate}
  {root : Value}

/-- What a node does besides evaluating its parts. -/
structure Own (C : ∀ ⦃α : Type⦄, Eval α → Eval α → Prop) (ev : Evaluator) (evaluate evaluate' : Function.Evaluate)
    (root : Value) (e : Expr) : Prop where
  compare : ∀ op lhs rhs, e = .comparison op lhs rhs → ∀ left right,
    C (Eval.ofExcept (Evaluator.compare op left right)) (Eval.ofExcept (Evaluator.compare op left right))
  reference : ∀ body, e = .reference body → C freshIdentity freshIdentity
  call : ∀ name args, e = .call name args → ∀ values,
    C (callWithin ev evaluate root ev.maxCalls name values) (callWithin ev evaluate' root ev.maxCalls name values)
  slice : ∀ bounds, e = .slice bounds → ∀ items : List Value,
    C (Eval.ofExcept (Slice.bidirectional items bounds)) (Eval.ofExcept (Slice.bidirectional items bounds))

variable (composes : Composes C)
include composes

theorem project_composed {f g : Value → Eval Value} (each : ∀ v, C (f v) (g v)) (items : List Value) :
    C (project f items) (project g items) :=
  composes.bind (composes.mapM fun v _ => each v) fun _ => composes.pure _

theorem guarded_composed {predicate predicate' body body' : Value → Eval Value}
    (tests : ∀ v, C (predicate v) (predicate' v)) (each : ∀ v, C (body v) (body' v)) (item : Value) :
    C (guarded predicate body item) (guarded predicate' body' item) := by
  refine composes.bind (tests item) fun verdict => ?_
  split
  · exact composes.pure _
  · exact each item

theorem step_composed {e : Expr} (parts : ∀ part ∈ e.children, ∀ v, C (evaluate part v) (evaluate' part v))
    (own : Own C ev evaluate evaluate' root e) (v : Value) :
    C (step ev evaluate root e v) (step ev evaluate' root e v) := by
  cases e with
  | comparison op lhs rhs =>
    simp only [Expr.children, List.forall_mem_cons] at parts
    obtain ⟨left, right, -⟩ := parts
    exact composes.bind (left v) fun a => composes.bind (right v) fun b => own.compare op lhs rhs rfl a b
  | reference body => exact composes.bind (own.reference body rfl) fun identity => composes.pure _
  | call name args =>
    exact composes.bind (composes.mapM fun arg mem => parts arg mem v) fun values => own.call name args rfl values
  | field | identity | current | root | literal => exact composes.pure _
  | filterProjection lhs rhs predicate =>
    simp only [Expr.children, List.forall_mem_cons] at parts
    obtain ⟨left, right, tests, -⟩ := parts
    refine composes.bind (left v) fun subject => ?_
    split
    · exact project_composed composes (guarded_composed composes tests right) _
    · exact composes.pure _
  | flatten body =>
    refine composes.bind (parts body (List.mem_singleton_self _) v) fun subject => ?_
    split <;> exact composes.pure _
  | index place =>
    dsimp only [step]
    split <;> exact composes.pure _
  | selectHash entries =>
    dsimp only [step]
    split
    · exact composes.pure _
    · refine composes.bind (composes.mapM fun entry mem => ?_) fun members => composes.pure _
      exact composes.bind (parts entry.2 (List.mem_map_of_mem mem) v) fun value => composes.pure _
  | selectList items =>
    dsimp only [step]
    split
    · exact composes.pure _
    · exact composes.bind (composes.mapM fun item mem => parts item mem v) fun values => composes.pure _
  | or lhs rhs =>
    simp only [Expr.children, List.forall_mem_cons] at parts
    obtain ⟨left, right, -⟩ := parts
    refine composes.bind (left v) fun first => ?_
    split
    · exact right v
    · exact composes.pure _
  | and lhs rhs =>
    simp only [Expr.children, List.forall_mem_cons] at parts
    obtain ⟨left, right, -⟩ := parts
    refine composes.bind (left v) fun first => ?_
    split
    · exact composes.pure _
    · exact right v
  | not body =>
    exact composes.bind (parts body (List.mem_singleton_self _) v) fun result => composes.pure _
  | pipe stages => exact composes.foldlM (fun stage mem current => parts stage mem current) v
  | projection lhs rhs | valueProjection lhs rhs =>
    simp only [Expr.children, List.forall_mem_cons] at parts
    obtain ⟨left, right, -⟩ := parts
    refine composes.bind (left v) fun subject => ?_
    split
    · exact project_composed composes right _
    · exact composes.pure _
  | subexpression lhs rhs | indexExpression lhs rhs =>
    simp only [Expr.children, List.forall_mem_cons] at parts
    obtain ⟨left, right, -⟩ := parts
    exact composes.bind (left v) right
  | slice bounds =>
    dsimp only [step]
    split
    · exact composes.bind (own.slice bounds rfl _) fun items => composes.pure _
    · exact composes.pure _

omit composes in
theorem exists_callWithin_eq (builtin : ev.registry = .empty) {name : String}
    (plain : ∀ b : Builtin, b.name = name → b.needsContext = false) (evaluate : Function.Evaluate) (calls : Nat)
    (args : List Value) : ∃ outcome, callWithin ev evaluate root calls name args = Eval.ofExcept outcome := by
  have absent : ev.registry.get? name = none := by
    rw [builtin]
    rfl
  unfold callWithin
  rw [absent]
  dsimp only
  split
  next b found =>
    have needless : b.needsContext = false := plain b (by simpa using List.find?_some found)
    cases Parameter.resolve b.name b.parameters args with
    | error fault => exact ⟨.error fault, rfl⟩
    | ok slots => exact ⟨b.plain ev.sorter slots, Builtin.apply_of_plain needless ..⟩
  next => exact ⟨.error (.unknownFunction name), rfl⟩

/-- What holds of outcomes too, and is kept by a level more, holds of the evaluation of a stateless
expression. -/
theorem executeWithin_stateless (builtin : ev.registry = .empty)
    (outcome : ∀ {α : Type} (x : Except Fault α), C (Eval.ofExcept x) (Eval.ofExcept x))
    (nested : ∀ {x : Eval Value}, C x x → C (Eval.nested ev.maxDepth x) (Eval.nested ev.maxDepth x)) {e : Expr}
    (stateless : e.Stateless) (levels : Nat) (v : Value) :
    C (executeWithin ev root levels e v) (executeWithin ev root levels e v) := by
  induction levels generalizing e v with
  | zero => exact outcome (.error (.recursionLimit ev.maxDepth))
  | succ levels ih =>
    have own : Own C ev (executeWithin ev root levels) (executeWithin ev root levels) root e :=
      { compare := fun _ _ _ _ _ _ => outcome _
        reference := fun body same => absurd (same ▸ .self) (stateless.1 body)
        call := by
          rintro name args rfl values
          obtain ⟨x, called⟩ := exists_callWithin_eq builtin (fun b named => stateless.2 b args (named ▸ .self))
            (executeWithin ev root levels) ev.maxCalls values
          rw [called]
          exact outcome x
        slice := fun _ _ _ => outcome _ }
    exact nested (step_composed composes (fun part mem => ih (stateless.child mem)) own v)

end Evaluator

end JsonQuery

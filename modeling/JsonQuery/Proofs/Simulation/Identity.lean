import JsonQuery.Proofs.Simulation.Content

/-!
The same expression on the same value, evaluated on two sides that differ in their functions, limits or
states.
-/
namespace JsonQuery.Evaluator

open Eval Correspondence

variable {ev ev' : Evaluator}

section Node

variable {T : Tolerance} (same : T.Reflexive) {evaluate evaluate' : Function.Evaluate}
  (evaluates : ∀ e v, Simulates T Eq (evaluate e v) (evaluate' e v))
include same evaluates

theorem builtin_simulates (sorter : ev.sorter = ev'.sorter) {name : String}
    (draws : name = Builtin.shuffle.name → T.Draws)
    (absent : ev.registry.get? name = none) (absent' : ev'.registry.get? name = none)
    (root : Value) (calls : Nat) (args : List Value) :
    Simulates T Eq (callWithin ev evaluate root calls name args)
      (callWithin ev' evaluate' root calls name args) := by
  have lawful : (diagonal T .all).Lawful :=
    diagonal_lawful (Content.Closed.all ev.resolver) fun _ _ _ _ => same _
  have admits (b : Builtin) (named : b.name = name) : (diagonal T .all).Admits b := by
    apply diagonal_admits b (fun _ _ fault _ => same fault) (fun _ _ => same _)
    intro shuffle
    exact draws (named ▸ congrArg Builtin.name shuffle)
  apply Simulates.mono (R := (diagonal T .all).value) fun _ _ result => result.2
  apply lawful.builtin sorter _ absent absent' admits (diagonal_items (Value.itemsHold_all args))
  rintro e _ v _ ⟨_, rfl⟩ ⟨_, rfl⟩
  exact (evaluates e v).mono fun a _ result => ⟨a.holds_all, result⟩

theorem step_simulates (resolver : ev.resolver = ev'.resolver) {root : Value}
    (calls : ∀ name args, Simulates T Eq (callWithin ev evaluate root ev.maxCalls name args)
      (callWithin ev' evaluate' root ev'.maxCalls name args)) (e : Expr) (v : Value) :
    Simulates T Eq (step ev evaluate root e v) (step ev' evaluate' root e v) := by
  have closed := Content.Closed.all ev.resolver
  have shared : (diagonal T .all).Shared .all ev ev' :=
    diagonal_shared (diagonal_lawful closed fun _ _ _ _ => same _) closed resolver
  have self (v : Value) : (diagonal T .all).value v v := ⟨v.holds_all, rfl⟩
  have layer : Expr.Layer .all (diagonal T .all).expr e e :=
    e.within_all.layer fun _ _ => ⟨trivial, rfl⟩
  apply Simulates.mono (R := (diagonal T .all).value) fun _ _ result => result.2
  apply shared.step (fun _ => self root) _ _ layer (self v)
  · rintro e _ v _ ⟨_, rfl⟩ ⟨_, rfl⟩
    exact (evaluates e v).mono fun a _ result => ⟨a.holds_all, result⟩
  · intro name args args' _ related
    obtain ⟨_, rfl⟩ := diagonal_items_iff.1 related
    exact (calls name args).mono fun a _ result => ⟨a.holds_all, result⟩

end Node

/-- Evaluations of the same expression on the same value, given that the calls made simulate each
other. -/
theorem executeWithin_simulates {T : Nat → Tolerance} (same : ∀ d, (T d).Reflexive)
    (opens : ∀ d, (T d).Opens (T (d + 1)) ev.maxDepth) (resolver : ev.resolver = ev'.resolver)
    (limits : ev.maxDepth = ev'.maxDepth ∨
      ev.maxDepth ≤ ev'.maxDepth ∧ ∀ d, (T d).excused (.recursionLimit ev.maxDepth))
    {root : Value}
    (calls : ∀ (d : Nat) (evaluate evaluate' : Function.Evaluate),
      (∀ e v, Simulates (T d) Eq (evaluate e v) (evaluate' e v)) → ∀ name args,
        Simulates (T d) Eq (callWithin ev evaluate root ev.maxCalls name args)
          (callWithin ev' evaluate' root ev'.maxCalls name args))
    {levels levels' : Nat}
    (room : levels = levels' ∨
      levels ≤ levels' ∧ ∀ d, (T d).excused (.recursionLimit ev.maxDepth))
    (d : Nat) (e : Expr) (v : Value) :
    Simulates (T d) Eq (executeWithin ev root levels e v)
      (executeWithin ev' root levels' e v) := by
  refine Correspondence.executeWithin_simulates opens limits ?_ room d rfl rfl
  rintro d evaluate evaluate' evaluates e _ v _ rfl rfl
  have evaluates (e : Expr) (v : Value) := evaluates (rfl : e = e) (rfl : v = v)
  exact step_simulates (same d) evaluates resolver (calls d evaluate evaluate' evaluates) e v

end JsonQuery.Evaluator

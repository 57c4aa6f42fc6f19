import JsonQuery.Proofs.Propagation
import JsonQuery.Proofs.Relevance

/-!
The depth is a counter that every evaluation raises by one and puts back. Whatever happens in between,
failures caught by custom functions included, an operation leaves the counter as it was and never takes
it above the limit. So all that an operation can leave behind is a generator that has been used.
-/
namespace JsonQuery

open Eval

namespace Tolerance

/-- Equal states at a depth, never deeper than a limit so far. -/
def level (limit depth : Nat) : Tolerance where
  excused _ := False
  alike := Eq
  state run run' := run = run' ∧ run.depth = depth ∧ run.deepest ≤ limit
  refl _ _ := rfl
  trans := Eq.trans
  depth h := congrArg Run.depth h.1
  supply h := by
    obtain ⟨rfl, level⟩ := h
    exact ⟨rfl, rfl, level⟩

def generators (G : Generator → Generator → Prop) : Tolerance where
  excused _ := False
  alike := Eq
  state run run' :=
    run.depth = run'.depth ∧ run.supply = run'.supply ∧ G run.generator run'.generator
  refl _ _ := rfl
  trans := Eq.trans
  depth h := h.1
  supply h := ⟨h.2.1, h.1, congrArg (· + 1) h.2.1, h.2.2⟩

theorem level_exact (limit depth : Nat) : (level limit depth).Exact :=
  ⟨fun _ => rfl, fun h => h, fun h => h⟩

theorem level_draws (limit depth : Nat) : (level limit depth).Draws := by
  intro run run' start
  obtain ⟨rfl, level⟩ := start
  exact ⟨rfl, fun _ => ⟨rfl, level⟩⟩

theorem level_opens {limit bound : Nat} (within : limit ≤ bound) (depth : Nat) :
    (level bound depth).Opens (level bound (depth + 1)) limit where
  excused := id
  alike := id
  enter := by
    intro run run' start room
    obtain ⟨rfl, rfl, low⟩ := start
    exact ⟨rfl, rfl, by simp only [Nat.max_le]; omega⟩
  leave := by
    intro run run' after after' start finish
    obtain ⟨rfl, rfl, _⟩ := start
    obtain ⟨rfl, _, low⟩ := finish
    exact ⟨rfl, rfl, low⟩

theorem generators_exact (G : Generator → Generator → Prop) : (generators G).Exact :=
  ⟨fun _ => rfl, fun h => h, fun h => h⟩

theorem generators_draws : (generators Eq).Draws := fun _ _ start =>
  ⟨start.2.2, fun _ => ⟨start.1, start.2.1, rfl⟩⟩

theorem generators_opens (G : Generator → Generator → Prop) (limit : Nat) :
    (generators G).Opens (generators G) limit where
  excused := id
  alike := id
  enter start _ := ⟨congrArg (· + 1) start.1, start.2⟩
  leave start finish := ⟨start.1, finish.2⟩

end Tolerance

namespace Evaluator

variable {ev : Evaluator}

section Runs

variable {T : Nat → Tolerance} (exact : ∀ d, (T d).Exact)
  (draws : ev.registry.get? Builtin.shuffle.name = none → ∀ d, (T d).Draws)
  (opens : ∀ d, (T d).Opens (T (d + 1)) ev.maxDepth)
include exact draws opens

theorem executeWithin_self (root : Value) (levels d : Nat) (e : Expr) (v : Value) :
    Simulates (T d) Eq (executeWithin ev root levels e v) (executeWithin ev root levels e v) :=
  ((agree_self ev).executeWithin exact (fun _ => draws) opens root.holds_all levels d
    ⟨trivial, rfl⟩ ⟨v.holds_all, rfl⟩).mono fun _ _ result => result.2

theorem run_self (d : Nat) (op : Operation) : Simulates (T d) Eq (op.run ev) (op.run ev) :=
  ((agree_self ev).run exact (fun _ => draws) opens d op.stays_all).mono fun _ _ result => result.2

end Runs

/-- An operation puts the depth back, and takes it no higher than the limit. -/
theorem depth_run (op : Operation) (run : Run) :
    (op.run ev run).2.depth = run.depth ∧
      (op.run ev run).2.deepest ≤ max run.deepest ev.maxDepth := by
  let limit := max run.deepest ev.maxDepth
  have simulates : Simulates (.level limit run.depth) Eq (op.run ev) (op.run ev) :=
    run_self (Tolerance.level_exact limit) (fun _ => Tolerance.level_draws limit)
      (Tolerance.level_opens (Nat.le_max_right _ _)) run.depth op
  have start : (Tolerance.level limit run.depth).state run run := ⟨rfl, rfl, Nat.le_max_left _ _⟩
  exact (simulates.agrees (Tolerance.level_exact limit _) start).1.2

theorem step_simulates_execute {levels d limit : Nat} (left : ev.maxDepth - d = levels)
    (within : ev.maxDepth ≤ limit) (e : Expr) (v root : Value) :
    Simulates (.level limit d) Eq (step ev (executeWithin ev root levels) root e v)
      (step ev (fun e v => ev.execute e v root) root e v) := by
  have exact := Tolerance.level_exact limit
  have draws := Tolerance.level_draws limit
  have evaluates (e : Expr) (v : Value) :
      Simulates (.level limit d) Eq (executeWithin ev root levels e v) (ev.execute e v root) := by
    intro run run' start
    have depth : run'.depth = d := start.1 ▸ start.2.1
    rw [execute_apply, depth, left]
    exact executeWithin_self exact (fun _ => draws) (Tolerance.level_opens within) root levels d e v
      start
  apply Simulates.mono (R := (Correspondence.diagonal (.level limit d) .all).value)
    fun _ _ result => result.2
  apply (agree_self ev).step (exact d) (fun _ _ => draws d) _ root.holds_all e.within_all v.holds_all
  rintro e _ v _ ⟨_, rfl⟩ ⟨_, rfl⟩
  exact (evaluates e v).mono fun a _ result => ⟨a.holds_all, result⟩

/-- Evaluation is evaluation of one node one level deeper: the counter alone holds it back. -/
theorem execute_eq_nested (e : Expr) (v root : Value) : ev.execute e v root =
    Eval.nested ev.maxDepth (step ev (fun e v => ev.execute e v root) root e v) := by
  funext run
  rw [execute_apply]
  cases left : ev.maxDepth - run.depth with
  | zero =>
    have full : ¬ run.depth < ev.maxDepth := by omega
    unfold Eval.nested
    rw [if_neg full]
    rfl
  | succ levels =>
    let limit := max run.deepest ev.maxDepth
    have within : ev.maxDepth ≤ limit := Nat.le_max_right _ _
    have below : ev.maxDepth - (run.depth + 1) = levels := by omega
    have inside := step_simulates_execute below within e v root
    have nested := inside.nested (Tolerance.level_opens within run.depth) (.inl rfl)
    have start : (Tolerance.level limit run.depth).state run run := ⟨rfl, rfl, Nat.le_max_left _ _⟩
    obtain ⟨state, outcome⟩ := nested.agrees (Tolerance.level_exact limit _) start
    exact Prod.ext outcome state.1

def shadow (ev : Evaluator) (name : String) (handler : Handler) : Evaluator :=
  if ev.registry.contains name then ev else ev.extend name handler

theorem get?_shadow_ne_none (ev : Evaluator) (name : String) (handler : Handler) :
    (ev.shadow name handler).registry.get? name ≠ none := by
  unfold shadow
  split
  · next there =>
    intro absent
    rw [Registry.contains, absent] at there
    exact absurd there (by decide)
  · rw [extend, Registry.get?_register_self]
    exact Option.some_ne_none handler

end Evaluator

/-- Whether it makes no difference to an operation which function is put under a name that no custom
function has, so that the operation does not call the built-in function of the name. -/
def Operation.Avoids (op : Operation) (ev : Evaluator) (name : String) : Prop :=
  ∀ (handler : Handler) (run : Run), run.depth = 0 → run.supply = op.identityBound →
    op.run (ev.shadow name handler) run = op.run ev run

namespace Instance

/-- Whether nothing tells an evaluator from a new one but how deep it has been. -/
structure AsNew (i : Instance) (ev : Evaluator) (g : Generator) : Prop where
  evaluator : i.evaluator = ev
  depth : i.state.depth = 0
  generator : i.state.generator = g

variable {i : Instance} {ev : Evaluator} {g : Generator}

theorem run_of_avoids {op : Operation} (avoids : op.Avoids ev Builtin.shuffle.name) (run run' : Run)
    (idle : run.depth = 0) (idle' : run'.depth = 0) (supply : run.supply = op.identityBound)
    (supply' : run'.supply = op.identityBound) :
    (op.run ev run).2.generator = run.generator ∧ (op.run ev run).1 = (op.run ev run').1 := by
  -- with another function under the name there is nothing left that draws
  let handler : Handler := .fail ""
  let unchanged (a b : Generator) : Prop := a = run.generator ∧ b = run'.generator
  have exact : (Tolerance.generators unchanged).Exact := Tolerance.generators_exact _
  have simulates : Simulates (.generators unchanged) Eq
      (op.run (ev.shadow Builtin.shuffle.name handler))
      (op.run (ev.shadow Builtin.shuffle.name handler)) :=
    Evaluator.run_self (fun _ => exact)
      (fun absent => absurd absent (Evaluator.get?_shadow_ne_none ev _ handler))
      (fun _ => Tolerance.generators_opens _ _) 0 op
  have start : (Tolerance.generators unchanged).state run run' :=
    ⟨idle.trans idle'.symm, supply.trans supply'.symm, rfl, rfl⟩
  have agree := simulates.agrees exact start
  rw [avoids handler run idle supply, avoids handler run' idle' supply'] at agree
  exact ⟨agree.1.2.2.1, agree.2⟩

theorem AsNew.perform (h : i.AsNew ev g) {op : Operation}
    (avoids : op.Avoids ev Builtin.shuffle.name) : (i.perform op).2.AsNew ev g := by
  obtain ⟨rfl, depth, generator⟩ := h
  let run : Run := { i.state with supply := op.identityBound }
  have balanced : (op.run i.evaluator run).2.depth = run.depth := (Evaluator.depth_run op run).1
  have kept : (op.run i.evaluator run).2.generator = run.generator :=
    (run_of_avoids avoids run run depth depth rfl rfl).1
  exact ⟨rfl, balanced.trans depth, kept.trans generator⟩

end Instance

namespace Evaluator

/-- An evaluator with one custom function, of which the second node inside a call is one too many. -/
def shallow : Evaluator := { running with maxDepth := 2 }

end Evaluator

end JsonQuery

import JsonQuery.Proofs.Balance
import JsonQuery.Proofs.Composition

/-!
How deep an evaluation stands matters only for the limit. What does not come to the limit at one depth has
the same outcome at every lesser depth, and leaves the same state but for the depth.
-/
namespace JsonQuery

open Eval

namespace Run

def opened (run : Run) : Run :=
  { run with depth := run.depth + 1, deepest := max run.deepest (run.depth + 1) }

/-- States at two depths that differ in nothing else but how deep it has been. -/
structure Beside (d d' : Nat) (run run' : Run) : Prop where
  depth : run.depth = d
  depth' : run'.depth = d'
  supply : run.supply = run'.supply
  generator : run.generator = run'.generator

namespace Beside

variable {d d' : Nat} {run run' after after' : Run}

theorem refl (run : Run) : Beside run.depth run.depth run run := ⟨rfl, rfl, rfl, rfl⟩

theorem opened (h : Beside d d' run run') : Beside (d + 1) (d' + 1) run.opened run'.opened :=
  ⟨congrArg (· + 1) h.depth, congrArg (· + 1) h.depth', h.supply, h.generator⟩

theorem left (h : Beside d d' run run') {e e' : Nat} (inside : Beside e e' after after') :
    Beside d d' { after with depth := run.depth } { after' with depth := run'.depth } :=
  ⟨h.depth, h.depth', inside.supply, inside.generator⟩

end Beside

end Run

namespace Eval

variable {α β γ : Type} {d d' : Nat}

theorem ne_error_of_isOk {outcome : Except Fault α} (h : outcome.isOk = true) (fault : Fault) :
    outcome ≠ .error fault := by
  rintro rfl
  cases h

theorem nested_of_room {limit : Nat} {run : Run} (room : run.depth < limit) (x : Eval α) :
    nested limit x run = ((x run.opened).1, { (x run.opened).2 with depth := run.depth }) :=
  if_pos room

theorem nested_of_full {limit : Nat} {run : Run} (full : ¬ run.depth < limit) (x : Eval α) :
    nested limit x run = (.error (.recursionLimit limit), run) :=
  if_neg full

/-- Whether the second computation does at depth `d'` what the first one does at depth `d`, unless the first
comes to the limit. -/
def Lifts (d d' : Nat) (x y : Eval α) : Prop :=
  ∀ ⦃run run'⦄, Run.Beside d d' run run' →
    (∃ limit, (x run).1 = .error (.recursionLimit limit)) ∨
      ((x run).1 = (y run').1 ∧ Run.Beside d d' (x run).2 (y run').2)

namespace Lifts

theorem ofExcept (outcome : Except Fault α) : Lifts d d' (ofExcept outcome) (ofExcept outcome) :=
  fun _ _ start => .inr ⟨rfl, start⟩

theorem pure (a : α) : Lifts d d' (pure a) (pure a) := ofExcept (.ok a)

theorem throw (fault : Fault) : Lifts d d' (throw fault : Eval α) (throw fault) := ofExcept (.error fault)

theorem bind {x y : Eval α} {f g : α → Eval β} (first : Lifts d d' x y)
    (next : ∀ a, Lifts d d' (f a) (g a)) : Lifts d d' (x >>= f) (y >>= g) := by
  intro run run' start
  rcases hx : x run with ⟨outcome, after⟩
  rcases hy : y run' with ⟨outcome', after'⟩
  have firsts := first start
  rw [hx, hy] at firsts
  rcases firsts with ⟨limit, cut⟩ | ⟨same, between⟩
  · dsimp only at cut
    subst cut
    rw [bind_of_error f hx]
    exact .inl ⟨limit, rfl⟩
  · dsimp only at same between
    subst same
    cases outcome with
    | error fault =>
      rw [bind_of_error f hx, bind_of_error g hy]
      exact .inr ⟨rfl, between⟩
    | ok a =>
      rw [bind_of_ok f hx, bind_of_ok g hy]
      exact next a between

theorem composes : Composes fun _ => Lifts d d' := ⟨pure, bind⟩

theorem freshIdentity : Lifts d d' freshIdentity freshIdentity := by
  intro run run' start
  refine .inr ⟨congrArg (fun n => Except.ok (Identity.made n)) start.supply, ?_⟩
  exact ⟨start.depth, start.depth', congrArg (· + 1) start.supply, start.generator⟩

theorem draw (f : Generator → α × Generator) : Lifts d d' (draw f) (draw f) := by
  intro run run' start
  unfold Eval.draw
  rw [start.generator]
  exact .inr ⟨rfl, start.depth, start.depth', start.supply, rfl⟩

theorem attempt {x y : Eval α} {f g : Except Fault α → Eval β} (step : Lifts d d' x y)
    (fails : ∀ fault, f (.error fault) = Eval.ofExcept (.error fault))
    (next : ∀ outcome, Lifts d d' (f outcome) (g outcome)) :
    Lifts d d' (attempt x >>= f) (attempt y >>= g) := by
  intro run run' start
  rcases step start with ⟨limit, cut⟩ | ⟨same, between⟩
  · have failed : x run = (.error (.recursionLimit limit), (x run).2) := Prod.ext cut rfl
    rw [attempt_bind_of_error f failed, fails]
    exact .inl ⟨limit, rfl⟩
  · cases outcome : (x run).1 with
    | ok a =>
      have left : x run = (.ok a, (x run).2) := Prod.ext outcome rfl
      have right : y run' = (.ok a, (y run').2) := Prod.ext (same.symm.trans outcome) rfl
      rw [attempt_bind_of_ok f left, attempt_bind_of_ok g right]
      exact next _ between
    | error fault =>
      have left : x run = (.error fault, (x run).2) := Prod.ext outcome rfl
      have right : y run' = (.error fault, (y run').2) := Prod.ext (same.symm.trans outcome) rfl
      rw [attempt_bind_of_error f left, attempt_bind_of_error g right]
      split
      · exact .inr ⟨rfl, between⟩
      · exact next _ between

theorem nested (above : d' ≤ d) {limit : Nat} {x y : Eval α} (inside : Lifts (d + 1) (d' + 1) x y) :
    Lifts d d' (nested limit x) (nested limit y) := by
  intro run run' start
  unfold Eval.nested
  by_cases room : run.depth < limit
  · have room' : run'.depth < limit := by
      have := start.depth
      have := start.depth'
      omega
    rw [if_pos room, if_pos room']
    exact (inside start.opened).imp_right fun ⟨same, finish⟩ => ⟨same, start.left finish⟩
  · rw [if_neg room]
    exact .inl ⟨limit, rfl⟩

theorem nested_left {limit : Nat} {x y : Eval α} (inside : Lifts (d + 1) d' x y) :
    Lifts d d' (Eval.nested limit x) y := by
  intro run run' start
  unfold Eval.nested
  by_cases room : run.depth < limit
  · rw [if_pos room]
    have entered : Run.Beside (d + 1) d' run.opened run' :=
      ⟨congrArg (· + 1) start.depth, start.depth', start.supply, start.generator⟩
    refine (inside entered).imp_right fun ⟨same, finish⟩ => ⟨same, ?_⟩
    exact ⟨start.depth, finish.depth', finish.supply, finish.generator⟩
  · rw [if_neg room]
    exact .inl ⟨limit, rfl⟩

/-- From one state, the second computation has the outcome of the first, if that is no failure at the
limit. -/
theorem outcome_eq {x y : Eval α} (h : ∀ d, Lifts d d x y) {run : Run}
    (uncut : ∀ limit, (x run).1 ≠ .error (.recursionLimit limit)) : (y run).1 = (x run).1 := by
  rcases h run.depth (.refl run) with ⟨limit, cut⟩ | ⟨same, _⟩
  · exact absurd cut (uncut limit)
  · exact same.symm

end Lifts

end Eval

section Functions

variable {d d' : Nat}

/-- Routines that return every failure that they are given do not see the depth. -/
theorem Routine.run_lifts {α : Type} {evaluate evaluate' : Expr → Value → Eval Value}
    {call call' : String → List Value → Eval Value}
    (evaluates : ∀ e v, Lifts d d' (evaluate e v) (evaluate' e v))
    (calls : ∀ name args, Lifts d d' (call name args) (call' name args)) {r : Routine α}
    (propagates : r.Propagates) : Lifts d d' (r.run evaluate call) (r.run evaluate' call') := by
  have continues {next : Except Fault Value → Routine α}
      (fails : ∀ fault, next (.error fault) = .done (.error fault))
      (ih : ∀ v, Lifts d d' ((next (.ok v)).run evaluate call) ((next (.ok v)).run evaluate' call'))
      (outcome : Except Fault Value) :
      Lifts d d' ((next outcome).run evaluate call) ((next outcome).run evaluate' call') := by
    cases outcome with
    | ok v => exact ih v
    | error fault =>
      rw [fails fault]
      exact .ofExcept _
  induction r with
  | done outcome => exact .ofExcept outcome
  | execute expr item next ih =>
    obtain ⟨fails, more⟩ := propagates
    refine .attempt ?_ (fun fault => by rw [fails fault]; rfl)
      (continues fails fun v => ih (.ok v) (more v))
    cases expr.body? with
    | none => exact .throw _
    | some body => exact evaluates body item
  | call name args next ih =>
    obtain ⟨fails, more⟩ := propagates
    exact .attempt (calls name args) (fun fault => by rw [fails fault]; rfl)
      (continues fails fun v => ih (.ok v) (more v))

variable {evaluate evaluate' : Function.Evaluate}
  (evaluates : ∀ e v, Lifts d d' (evaluate e v) (evaluate' e v))
include evaluates

namespace Function

theorem keysBy_lifts (b : Builtin) (body : Expr) (first : Option SortKey) (items : List Value) :
    Lifts d d' (keysBy b evaluate body first items) (keysBy b evaluate' body first items) := by
  induction items generalizing first with
  | nil => exact .pure []
  | cons item rest ih =>
    refine (evaluates body item).bind fun result => ?_
    exact (Lifts.ofExcept _).bind fun key => (ih _).bind fun keys => .pure _

theorem byKey_lifts (b : Builtin) (few : List Value → Value)
    (many : List Value → List SortKey → Except Fault Value)
    (slots : List Slot) :
    Lifts d d' (byKey b evaluate few many slots) (byKey b evaluate' few many slots) := by
  unfold byKey
  split
  · split
    · exact .pure _
    · exact (keysBy_lifts evaluates b _ none _).bind fun keys => .ofExcept _
  · exact .throw _

theorem map_lifts (slots : List Slot) : Lifts d d' (map evaluate slots) (map evaluate' slots) := by
  unfold map
  split
  · exact (Lifts.composes.mapM fun item _ => evaluates _ item).bind fun results => .pure _
  · exact .throw _

omit evaluates in
theorem shuffle_lifts (slots : List Slot) : Lifts d d' (shuffle slots) (shuffle slots) := by
  unfold shuffle
  split
  · exact (Lifts.draw _).bind fun swaps => .pure _
  · exact .throw _

end Function

theorem Builtin.apply_lifts (sorter : Sorter) (b : Builtin) (slots : List Slot) :
    Lifts d d' (b.apply sorter evaluate slots) (b.apply sorter evaluate' slots) := by
  cases b with
  | maxBy | minBy | sortBy | dedupBy => exact Function.byKey_lifts evaluates _ _ _ slots
  | map => exact Function.map_lifts evaluates slots
  | shuffle => exact Function.shuffle_lifts slots
  | _ => exact .ofExcept _

end Functions

namespace Evaluator

variable {ev : Evaluator} {d d' : Nat}

section Node

variable (propagate : ∀ name handler, ev.registry.get? name = some handler → Handler.Propagates handler)
  {evaluate evaluate' : Function.Evaluate}
  (evaluates : ∀ e v, Lifts d d' (evaluate e v) (evaluate' e v))
include propagate evaluates

theorem callWithin_lifts (root : Value) (calls : Nat) (name : String) (args : List Value) :
    Lifts d d' (callWithin ev evaluate root calls name args)
      (callWithin ev evaluate' root calls name args) := by
  induction calls generalizing name args with
  | zero =>
    unfold callWithin
    split
    · exact .throw _
    · split
      · exact (Lifts.ofExcept _).bind fun slots => Builtin.apply_lifts evaluates _ _ slots
      · exact .throw _
  | succ calls ih =>
    unfold callWithin
    split
    next handler there => exact Routine.run_lifts evaluates ih (propagate name handler there args root)
    next =>
      split
      · exact (Lifts.ofExcept _).bind fun slots => Builtin.apply_lifts evaluates _ _ slots
      · exact .throw _

theorem step_lifts (root : Value) (e : Expr) (v : Value) :
    Lifts d d' (step ev evaluate root e v) (step ev evaluate' root e v) :=
  step_composed Lifts.composes (fun part _ => evaluates part)
    { compare := fun _ _ _ _ _ _ => .ofExcept _
      reference := fun _ _ => .freshIdentity
      call := fun name _ _ values => callWithin_lifts propagate evaluates root ev.maxCalls name values
      slice := fun _ _ _ => .ofExcept _ } v

omit evaluates in
theorem executeWithin_lifts (root : Value) (above : d' ≤ d) {levels levels' : Nat} (less : levels ≤ levels')
    (e : Expr) (v : Value) :
    Lifts d d' (executeWithin ev root levels e v) (executeWithin ev root levels' e v) := by
  induction levels generalizing levels' d d' e v with
  | zero => exact fun _ _ _ => .inl ⟨_, rfl⟩
  | succ levels ih =>
    obtain ⟨levels', rfl⟩ : ∃ n, levels' = n + 1 := ⟨levels' - 1, by omega⟩
    refine .nested above (step_lifts propagate (fun e v => ?_) root e v)
    exact ih (Nat.succ_le_succ above) (Nat.le_of_succ_le_succ less) e v

omit evaluates in
/-- What does not come to the limit at one depth is the same at a lesser one. -/
theorem execute_lifts (above : d' ≤ d) (e : Expr) (v root : Value) :
    Lifts d d' (ev.execute e v root) (ev.execute e v root) := by
  intro run run' start
  rw [execute_apply, execute_apply, start.depth, start.depth']
  exact executeWithin_lifts propagate root above (Nat.sub_le_sub_left above ev.maxDepth) e v start

end Node

end Evaluator

end JsonQuery

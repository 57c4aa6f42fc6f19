import JsonQuery.Proofs.Composition
import JsonQuery.Proofs.Simulation.Outcome

/-!
What a computation may fail with. Faults that no part of a computation raises are not raised by the
whole.
-/
namespace JsonQuery

variable {α β : Type} {P : Fault → Prop}

def Raises (P : Fault → Prop) : Except Fault α → Prop
  | .ok _ => True
  | .error fault => P fault

namespace Raises

@[simp] theorem ok (a : α) : Raises P (.ok a) := trivial

@[simp] theorem error_iff {fault : Fault} : Raises P (.error fault : Except Fault α) ↔ P fault := Iff.rfl

theorem of_error {x : Except Fault α} (h : Raises P x) {fault : Fault} (failed : x = .error fault) :
    P fault := by
  subst failed
  exact h

theorem bind {x : Except Fault α} {f : α → Except Fault β} (h : Raises P x)
    (next : ∀ a, Raises P (f a)) : Raises P (x >>= f) := by
  cases x with
  | ok a => exact next a
  | error fault => exact h

@[simp] theorem map_iff {x : Except Fault α} {f : α → β} : Raises P (x.map f) ↔ Raises P x := by
  cases x <;> rfl

theorem mapM {f : α → Except Fault β} {xs : List α} (each : ∀ a ∈ xs, Raises P (f a)) :
    Raises P (xs.mapM f) := by
  induction xs with
  | nil => trivial
  | cons a as ih =>
    obtain ⟨head, rest⟩ := List.forall_mem_cons.1 each
    rw [List.mapM_cons]
    exact head.bind fun b => (ih rest).bind fun bs => trivial

theorem foldlM {f : β → α → Except Fault β} (each : ∀ b a, Raises P (f b a)) (xs : List α)
    (b : β) : Raises P (xs.foldlM f b) := by
  induction xs generalizing b with
  | nil => trivial
  | cons a as ih =>
    rw [List.foldlM_cons]
    exact (each b a).bind ih

end Raises

namespace Eval

/-- Whether a computation, from any state, succeeds or raises one of the faults of `P`. -/
def Raises (P : Fault → Prop) (x : Eval α) : Prop := ∀ run, JsonQuery.Raises P (x run).1

namespace Raises

theorem ofExcept {x : Except Fault α} (h : JsonQuery.Raises P x) : Raises P (ofExcept x) := fun _ => h

theorem pure (a : α) : Raises P (pure a : Eval α) := fun _ => trivial

theorem throw {fault : Fault} (h : P fault) : Raises P (throw fault : Eval α) := fun _ => h

theorem bind {x : Eval α} {f : α → Eval β} (h : Raises P x) (next : ∀ a, Raises P (f a)) :
    Raises P (x >>= f) := by
  intro run
  have first := h run
  rcases hx : x run with ⟨_ | _, after⟩
  · rw [bind_of_error f hx]
    exact first.of_error (congrArg Prod.fst hx)
  · rw [bind_of_ok f hx]
    exact next _ after

theorem composes : Composes fun _ x _ => Raises P x := ⟨pure, bind⟩

theorem freshIdentity : Raises P freshIdentity := fun _ => trivial

theorem draw (f : Generator → α × Generator) : Raises P (draw f) := fun _ => trivial

theorem nested {limit : Nat} (deep : P (.recursionLimit limit)) {x : Eval α} (h : Raises P x) :
    Raises P (nested limit x) := by
  intro run
  unfold Eval.nested
  split
  · exact h _
  · exact deep

theorem attempt {x : Eval α} (h : Raises P x) {f : Except Fault α → Eval β}
    (next : ∀ outcome, JsonQuery.Raises P outcome → Raises P (f outcome)) :
    Raises P (attempt x >>= f) := by
  intro run
  have raised := h run
  rcases hx : x run with ⟨fault | a, after⟩ <;> rw [hx] at raised
  · rw [attempt_bind_of_error f hx]
    split
    · exact raised
    · exact next _ raised after
  · rw [attempt_bind_of_ok f hx]
    exact next _ raised after

end Raises

end Eval

def Routine.Raises (P : Fault → Prop) : Routine α → Prop
  | .done outcome => JsonQuery.Raises P outcome
  | .execute _ _ next | .call _ _ next =>
    ∀ outcome, JsonQuery.Raises P outcome → (next outcome).Raises P

def Handler.Raises (P : Fault → Prop) (handler : Handler) : Prop :=
  ∀ args root, (handler args root).Raises P

theorem Routine.Raises.run {evaluate : Expr → Value → Eval Value}
    {call : String → List Value → Eval Value} (unfit : P .nonExpression)
    (evaluates : ∀ e v, Eval.Raises P (evaluate e v))
    (calls : ∀ name args, Eval.Raises P (call name args)) {r : Routine α} (h : r.Raises P) :
    Eval.Raises P (r.run evaluate call) := by
  induction r with
  | done outcome => exact .ofExcept h
  | execute expr item next ih =>
    refine .attempt ?_ fun outcome raised => ih outcome (h outcome raised)
    cases expr.body? with
    | none => exact .throw unfit
    | some body => exact evaluates body item
  | call name args next ih =>
    exact .attempt (calls name args) fun outcome raised => ih outcome (h outcome raised)

end JsonQuery

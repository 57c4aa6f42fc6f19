import JsonQuery.Proofs.Failure.Coverage
import JsonQuery.Proofs.Propagation

/-!
No evaluation comes to a built-in function whose slots do not fit it, unless a custom function makes it seem
so by raising that fault of its own.
-/
namespace JsonQuery

open Fault (Regular)

section Messages

/-- The last two characters of a text, the last one first. -/
def ending (s : String) : List Char := s.toList.reverse.take 2

theorem ending_append (s : String) {t : String} (long : 2 ≤ t.toList.length) :
    ending (s ++ t) = ending t := by
  have : 2 ≤ t.toList.reverse.length := by simpa using long
  simp [ending, List.take_append_of_le_length this]

theorem ending_kind (s : String) (kind : Kind) : ending (s ++ kind.name) = ending kind.name :=
  ending_append s (by cases kind <;> decide)

theorem TypeCause.ending_of_regular {cause : TypeCause} (h : Regular (.type cause)) :
    ending cause.message ≠ ending "signature" ∧ ending cause.message ≠ ending "()" := by
  have kinds (kind : Kind) :
      ending kind.name ≠ ending "signature" ∧ ending kind.name ≠ ending "()" := by
    cases kind <;> decide
  cases cause with
  | slots | noLength => exact h.elim
  | noNumber kind | noCandidates kind | noSliceSubject kind | noMergeObject kind | mixedKeys _ kind
  | incomparable _ _ kind | noEntry kind =>
    unfold message
    simpa [toString, ending_kind] using kinds kind
  | unnamedKind => decide
  | keyKind function kind =>
    have : ending (TypeCause.keyKind function kind).message = ending ", must be number or string" :=
      ending_append _ (by decide)
    rw [this]
    decide

theorem TypeCause.message_of_regular {cause : TypeCause} (h : Regular (.type cause)) :
    (∀ name : String, cause.message ≠ s!"{name}: arguments do not match the signature") ∧
      cause.message ≠ "could not compute length()" := by
  obtain ⟨signature, brackets⟩ := ending_of_regular h
  constructor
  · intro name same
    apply signature
    rw [same]
    exact (ending_append _ (by decide)).trans (by decide)
  · intro same
    apply brackets
    rw [same]
    decide

end Messages

namespace Parameter

theorem check_regular (p : Parameter) (function : String) (position : Nat) (v : Value) :
    Raises Regular (p.check function position v) := by
  unfold check
  split <;> trivial

theorem checkAll_regular (function : String) (position : Nat) (ps : List Parameter) (vs : List Value) :
    Raises Regular (checkAll function position ps vs) := by
  induction ps generalizing position vs with
  | nil => trivial
  | cons p ps ih =>
    cases vs with
    | nil => trivial
    | cons v vs => exact (check_regular ..).bind fun _ => (ih (position + 1) vs).bind fun _ => trivial

theorem resolve_regular (function : String) (ps : List Parameter) (args : List Value) :
    Raises Regular (resolve function ps args) := by
  unfold resolve
  split
  · split <;> trivial
  · split
    · exact checkAll_regular function 0 ps args
    · trivial

end Parameter

namespace Evaluator

theorem compare_regular (op : Comparison) (left right : Value) :
    Raises Regular (compare op left right) := by
  cases op with
  | equal | notEqual => trivial
  | less | lessOrEqual | greater | greaterOrEqual => dsimp only [compare]; split <;> trivial

section Evaluation

variable {evaluate : Function.Evaluate} (evaluates : ∀ e v, Eval.Raises Regular (evaluate e v))
include evaluates

variable {ev : Evaluator}
  (customs : ∀ name handler, ev.registry.get? name = some handler → Handler.Raises Regular handler)
include customs

/-- A call comes to a built-in function only with slots that its parameters admit. -/
theorem callWithin_regular (root : Value) (calls : Nat) (name : String) (args : List Value) :
    Eval.Raises Regular (callWithin ev evaluate root calls name args) := by
  have builtin {calls : Nat} {name : String} {args : List Value}
      (absent : ev.registry.get? name = none) :
      Eval.Raises Regular (callWithin ev evaluate root calls name args) := by
    unfold callWithin
    rw [absent]
    dsimp only
    split
    next b _ =>
      intro run
      cases resolved : Parameter.resolve b.name b.parameters args with
      | error fault => exact (Parameter.resolve_regular ..).of_error resolved
      | ok slots => exact b.apply_regular ev.sorter evaluates (Parameter.resolve_shaped resolved) run
    next => exact .throw trivial
  induction calls generalizing name args with
  | zero =>
    cases there : ev.registry.get? name with
    | none => exact builtin there
    | some handler =>
      unfold callWithin
      rw [there]
      exact .throw trivial
  | succ calls ih =>
    cases there : ev.registry.get? name with
    | none => exact builtin there
    | some handler =>
      unfold callWithin
      rw [there]
      exact (customs name handler there args root).run trivial evaluates ih

theorem step_regular (root : Value) (e : Expr) (v : Value) :
    Eval.Raises Regular (step ev evaluate root e v) := by
  have own : Own (fun _ x _ => Eval.Raises Regular x) ev evaluate evaluate root e :=
    { compare := fun op _ _ _ left right => .ofExcept (compare_regular op left right)
      reference := fun _ _ => .freshIdentity
      call := fun name _ _ values => callWithin_regular evaluates customs root ev.maxCalls name values
      slice := fun _ _ _ => .ofExcept (Slice.bidirectional_regular ..) }
  exact step_composed Eval.Raises.composes (fun part _ => evaluates part) own v

omit evaluates in
theorem executeWithin_regular (root : Value) (levels : Nat) (e : Expr) (v : Value) :
    Eval.Raises Regular (executeWithin ev root levels e v) := by
  induction levels generalizing e v with
  | zero => exact .throw trivial
  | succ levels ih => exact .nested trivial (step_regular ih customs root e v)

omit evaluates in
theorem run_regular (op : Operation) : Eval.Raises Regular (op.run ev) := by
  have execute (e : Expr) (v root : Value) : Eval.Raises Regular (ev.execute e v root) :=
    fun run => executeWithin_regular customs root (ev.maxDepth - run.depth) e v run
  cases op with
  | evaluate e v => exact execute e v v
  | execute e v root => exact execute e v root
  | call name args root =>
    exact callWithin_regular (fun e v => execute e v root) customs root ev.maxCalls name args

end Evaluation

/-- Admitted slots always fit. Whatever is evaluated or called, no function finds that its slots do not have
the shape of its parameters, as long as no custom function raises that fault itself; and whatever arguments
the parameters of a built-in function admit, the function covers their slots. -/
theorem slots_fit {ev : Evaluator}
    (customs : ∀ name handler, ev.registry.get? name = some handler → Handler.Raises Regular handler) :
    (∀ (op : Operation) run cause, (op.run ev run).1 = .error (.type cause) →
      (∀ name : String, cause.message ≠ s!"{name}: arguments do not match the signature") ∧
        cause.message ≠ "could not compute length()") ∧
    ∀ (b : Builtin) args slots, Parameter.resolve b.name b.parameters args = .ok slots →
      ∀ (sorter : Sorter) (evaluate : Function.Evaluate), (∀ e v, Eval.Raises Regular (evaluate e v)) →
        Eval.Raises Regular (b.apply sorter evaluate slots) := by
  constructor
  · intro op run cause failed
    exact TypeCause.message_of_regular ((run_regular customs op run).of_error failed)
  · intro b args slots resolved sorter evaluate evaluates
    exact b.apply_regular sorter evaluates (Parameter.resolve_shaped resolved)

theorem execute_raises : Handler.Raises Regular Handler.execute := fun _ _ _ raised => raised

/-- `sort_by(@, &@)` -/
def sortBySelf : Expr := .call "sort_by" [.current, .reference .current]

theorem slots_fit_sortBySelf :
    ((Operation.evaluate sortBySelf (.array [.array [], .null])).run running (.seeded 0)).1 =
      .error (.type (.keyKind "sort_by" .array)) ∧
    (TypeCause.keyKind "sort_by" .array).message ≠ "sort_by: arguments do not match the signature" ∧
    Parameter.resolve Builtin.length.name Builtin.length.parameters [.array []] = .ok [.array []] ∧
    Eval.Raises Regular (Builtin.length.apply .merging (fun _ _ => pure .null) [.array []]) := by
  have failed : ((Operation.evaluate sortBySelf (.array [.array [], .null])).run running (.seeded 0)).1 =
      .error (.type (.keyKind "sort_by" .array)) := rfl
  have resolved : Parameter.resolve Builtin.length.name Builtin.length.parameters [.array []] =
      .ok [.array []] := rfl
  obtain ⟨evaluated, called⟩ := @slots_fit running fun name handler there =>
    eq_execute_of_running there ▸ execute_raises
  exact ⟨failed, (evaluated _ _ _ failed).1 "sort_by", resolved,
    called _ _ _ resolved _ _ fun _ _ => .pure _⟩

end Evaluator

end JsonQuery

import JsonQuery.Proofs.Failure.Raises
import JsonQuery.Proofs.Nesting

/-!
Expressions without calls fail in three ways only. A node opens one level and its parts stand on the
next, so that an expression needs as many levels as it is high; besides the limit there are only the
comparison that needs two numbers and the slice that does not move.
-/
namespace JsonQuery

namespace Expr

mutual

/-- The levels of an expression; one that evaluates no other has one level. -/
def height : Expr → Nat
  | .comparison _ lhs rhs | .or lhs rhs | .and lhs rhs | .projection lhs rhs | .subexpression lhs rhs
  | .indexExpression lhs rhs | .valueProjection lhs rhs => max lhs.height rhs.height + 1
  | .filterProjection lhs rhs predicate => max lhs.height (max rhs.height predicate.height) + 1
  | .flatten body | .not body => body.height + 1
  | .call _ es | .selectList es | .pipe es => highest es + 1
  | .selectHash entries => highestEntry entries + 1
  | .reference _ | .field _ | .identity | .current | .root | .index _ | .literal _ | .slice _ => 1

def highest : List Expr → Nat
  | [] => 0
  | e :: rest => max e.height (highest rest)

def highestEntry : List (String × Expr) → Nat
  | [] => 0
  | (_, e) :: rest => max e.height (highestEntry rest)

end

theorem highestEntry_eq (entries : List (String × Expr)) : highestEntry entries = highest (entries.map (·.2)) := by
  induction entries with
  | nil => rfl
  | cons entry rest ih => rw [highestEntry, ih, List.map_cons, highest]

theorem height_eq (e : Expr) : e.height = highest e.children + 1 := by
  cases e <;> simp [height, children, highest, highestEntry_eq]

theorem height_le_highest {e : Expr} {es : List Expr} (mem : e ∈ es) : e.height ≤ highest es := by
  induction mem with
  | head rest => exact Nat.le_max_left ..
  | tail other mem ih => exact Nat.le_trans ih (Nat.le_max_right ..)

theorem height_lt_of_mem_children {part e : Expr} (mem : part ∈ e.children) : part.height < e.height := by
  rw [height_eq e]
  exact Nat.lt_succ_of_le (height_le_highest mem)

end Expr

def Comparison.Orders (op : Comparison) : Prop := op ≠ .equal ∧ op ≠ .notEqual

/-- The ways in which an expression without calls may fail when there are only so many levels for it. -/
inductive Expr.Prone (limit levels : Nat) (e : Expr) : Fault → Prop
  | tooHigh (high : levels < e.height) : Prone limit levels e (.recursionLimit limit)
  | incomparable {op lhs rhs} (inside : Inside (.comparison op lhs rhs) e) (orders : op.Orders) (left right) :
    Prone limit levels e (.type (.incomparable left op right))
  | zeroStep {bounds} (inside : Inside (.slice bounds) e) (still : bounds.step = some 0) :
    Prone limit levels e (.slice .zeroStep)

theorem Expr.Prone.of_child {limit levels : Nat} {part e : Expr} {fault : Fault} (mem : part ∈ e.children)
    (h : part.Prone limit levels fault) : e.Prone limit (levels + 1) fault := by
  cases h with
  | tooHigh high => exact .tooHigh (Nat.lt_of_le_of_lt high (height_lt_of_mem_children mem))
  | incomparable inside orders left right => exact .incomparable (.child mem inside) orders left right
  | zeroStep inside still => exact .zeroStep (.child mem inside) still

namespace Eval

variable {α β : Type} {P Q : Fault → Prop} {d : Nat}

/-- Whether a computation, from any state at a depth, puts the depth back and succeeds or raises one of the
faults of `P`. -/
def RaisesAt (d : Nat) (P : Fault → Prop) (x : Eval α) : Prop :=
  ∀ run, run.depth = d → (x run).2.depth = d ∧ JsonQuery.Raises P (x run).1

namespace RaisesAt

theorem ofExcept {x : Except Fault α} (h : JsonQuery.Raises P x) : RaisesAt d P (ofExcept x) :=
  fun _ at_depth => ⟨at_depth, h⟩

theorem pure (a : α) : RaisesAt d P (pure a : Eval α) := ofExcept (.ok a)

theorem mono {x : Eval α} (h : RaisesAt d P x) (imp : ∀ fault, P fault → Q fault) : RaisesAt d Q x := by
  intro run at_depth
  obtain ⟨back, raised⟩ := h run at_depth
  refine ⟨back, ?_⟩
  cases outcome : (x run).1 with
  | ok a => trivial
  | error fault => exact imp fault (raised.of_error outcome)

theorem bind {x : Eval α} {f : α → Eval β} (h : RaisesAt d P x) (next : ∀ a, RaisesAt d P (f a)) :
    RaisesAt d P (x >>= f) := by
  intro run at_depth
  obtain ⟨back, raised⟩ := h run at_depth
  rcases hx : x run with ⟨_ | a, after⟩ <;> rw [hx] at back raised
  · rw [bind_of_error f hx]
    exact ⟨back, raised⟩
  · rw [bind_of_ok f hx]
    exact next a after back

theorem composes : Composes fun _ x _ => RaisesAt d P x := ⟨pure, bind⟩

theorem freshIdentity : RaisesAt d P freshIdentity := fun _ at_depth => ⟨at_depth, trivial⟩

theorem nested {limit : Nat} (room : d < limit) {x : Eval α} (h : RaisesAt (d + 1) P x) :
    RaisesAt d P (nested limit x) := by
  rintro run rfl
  rw [nested_of_room room]
  exact ⟨rfl, (h run.opened rfl).2⟩

end RaisesAt

end Eval

namespace Evaluator

open Eval

section Step

variable {ev : Evaluator} {evaluate : Function.Evaluate} {d : Nat} {P : Fault → Prop}

theorem compare_raises {op : Comparison}
    (incomparable : op.Orders → ∀ left right, P (.type (.incomparable left op right))) (a b : Value) :
    Raises P (compare op a b) := by
  cases op with
  | equal | notEqual => trivial
  | less | lessOrEqual | greater | greaterOrEqual =>
    dsimp only [compare]
    split
    · trivial
    · exact incomparable ⟨nofun, nofun⟩ _ _

theorem bidirectional_raises {bounds : SliceBounds} (zeroStep : bounds.step = some 0 → P (.slice .zeroStep))
    (items : List Value) : Raises P (Slice.bidirectional items bounds) := by
  dsimp only [Slice.bidirectional]
  split
  · next still =>
    refine zeroStep ?_
    cases step : bounds.step <;> simp_all
  · trivial

theorem step_raisesAt (root : Value) {e : Expr} (noCall : ∀ name args, e ≠ .call name args)
    (parts : ∀ part ∈ e.children, ∀ v, RaisesAt d P (evaluate part v))
    (incomparable : ∀ op lhs rhs, e = .comparison op lhs rhs → op.Orders →
      ∀ left right, P (.type (.incomparable left op right)))
    (zeroStep : ∀ bounds, e = .slice bounds → bounds.step = some 0 → P (.slice .zeroStep)) (v : Value) :
    RaisesAt d P (step ev evaluate root e v) := by
  have own : Own (fun _ x _ => RaisesAt d P x) ev evaluate evaluate root e :=
    { compare := fun op lhs rhs same a b => .ofExcept (compare_raises (incomparable op lhs rhs same) a b)
      reference := fun _ _ => .freshIdentity
      call := fun name args same _ => absurd same (noCall name args)
      slice := fun bounds same items => .ofExcept (bidirectional_raises (zeroStep bounds same) items) }
  exact step_composed RaisesAt.composes parts own v

end Step

variable (ev : Evaluator) {e : Expr}

theorem executeWithin_prone (free : ∀ name args, ¬ Expr.Inside (.call name args) e) {d levels : Nat}
    (left : ev.maxDepth - d = levels) (root v : Value) :
    RaisesAt d (e.Prone ev.maxDepth levels) (executeWithin ev root levels e v) := by
  induction levels generalizing d e v with
  | zero =>
    refine .ofExcept (.tooHigh ?_)
    rw [Expr.height_eq]
    exact Nat.succ_pos _
  | succ levels ih =>
    refine .nested (by omega) (step_raisesAt root ?_ ?_ ?_ ?_ v)
    · rintro name args rfl
      exact free name args .self
    · intro part mem v
      have partFree (name args) (inside : Expr.Inside (.call name args) part) := free name args (.child mem inside)
      exact (ih partFree (by omega) v).mono fun fault => .of_child mem
    · rintro op lhs rhs rfl orders left right
      exact .incomparable .self orders left right
    · rintro bounds rfl still
      exact .zeroStep .self still

/-- An expression that evaluates no call fails at the limit only if it is too high for the levels that
are left, and otherwise only for an order or a slice of step zero that is in it. So without these it has
a value wherever there is room for its height. -/
theorem callFree_failures (free : ∀ name args, ¬ Expr.Inside (.call name args) e) (v root : Value) (run : Run) :
    (∀ fault, (ev.execute e v root run).1 = .error fault →
      (fault = .recursionLimit ev.maxDepth ∧ ev.maxDepth < run.depth + e.height) ∨
      (∃ op lhs rhs left right, op.Orders ∧ Expr.Inside (.comparison op lhs rhs) e ∧
        fault = .type (.incomparable left op right)) ∨
      ∃ bounds, bounds.step = some 0 ∧ Expr.Inside (.slice bounds) e ∧ fault = .slice .zeroStep) ∧
    (run.depth + e.height ≤ ev.maxDepth →
      (∀ op lhs rhs, Expr.Inside (.comparison op lhs rhs) e → ¬ op.Orders) →
      (∀ bounds, Expr.Inside (.slice bounds) e → bounds.step ≠ some 0) →
      ∃ w, (ev.execute e v root run).1 = .ok w) := by
  have raised := (executeWithin_prone ev free rfl root v run rfl).2
  rw [← execute_apply] at raised
  constructor
  · intro fault failed
    cases raised.of_error failed with
    | tooHigh high => exact .inl ⟨rfl, by omega⟩
    | incomparable inside orders left right => exact .inr (.inl ⟨_, _, _, left, right, orders, inside, rfl⟩)
    | zeroStep inside still => exact .inr (.inr ⟨_, still, inside, rfl⟩)
  · intro room unordered moving
    cases outcome : (ev.execute e v root run).1 with
    | ok w => exact ⟨w, rfl⟩
    | error fault =>
      cases raised.of_error outcome with
      | tooHigh high => omega
      | incomparable inside orders => exact absurd orders (unordered _ _ _ inside)
      | zeroStep inside still => exact absurd still (moving _ inside)

def everySecond : Expr := .slice ⟨none, none, some 2⟩

/-- `@ < [::2]` -/
def belowSecond : Expr := .comparison .less .current everySecond

theorem callFree_everySecond :
    (execute {} belowSecond .null .null (.seeded 0)).1 = .error (.type (.incomparable .null .less .null)) ∧
    (∃ op lhs rhs, op.Orders ∧ Expr.Inside (.comparison op lhs rhs) belowSecond) ∧
    ∃ w, (execute { maxDepth := 1 } everySecond .null .null (.seeded 0)).1 = .ok w := by
  have failed : (execute {} belowSecond .null .null (.seeded 0)).1 =
      .error (.type (.incomparable .null .less .null)) :=
    rfl
  have leaf {node : Expr} : Expr.Inside node everySecond ↔ node = everySecond := Expr.inside_leaf_iff rfl
  have free (name args) : ¬ Expr.Inside (.call name args) belowSecond := by
    rintro (_ | ⟨mem, inside⟩)
    rcases List.mem_pair.1 mem with rfl | rfl
    · cases (Expr.inside_leaf_iff rfl).1 inside
    · cases leaf.1 inside
  refine ⟨failed, ?_, ?_⟩
  · rcases (callFree_failures {} free _ _ _).1 _ failed with ⟨limit, -⟩ | ⟨op, lhs, rhs, -, -, orders, inside, -⟩ |
      ⟨-, -, -, zero⟩
    · cases limit
    · exact ⟨op, lhs, rhs, orders, inside⟩
    · cases zero
  · refine (callFree_failures { maxDepth := 1 } (fun name args inside => ?_) _ _ _).2 (by decide) ?_ ?_
    · cases leaf.1 inside
    · intro op lhs rhs inside
      cases leaf.1 inside
    · intro bounds inside
      obtain rfl := Expr.slice.inj (leaf.1 inside)
      decide

end Evaluator

end JsonQuery

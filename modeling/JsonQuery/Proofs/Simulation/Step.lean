import JsonQuery.Proofs.Simulation.Correspondence
import JsonQuery.Proofs.Simulation.Sequence

/-!
One node of an evaluation simulates the same node of another, given that the nodes in it and the calls
it makes do. From there a whole evaluation follows by induction on the levels.
-/
namespace JsonQuery

open Eval

namespace Correspondence

variable {C : Correspondence}

namespace Lawful

variable (L : C.Lawful)
include L

theorem flatten {vs ws : List Value} (h : List.Forall₂ C.value vs ws) :
    List.Forall₂ C.value (Value.flatten vs) (Value.flatten ws) := by
  refine List.rel_flatMap h fun v w related => ?_
  exact rel_getD (L.sequence related) (.cons related .nil)

theorem element (place : Int) {vs ws : List Value} (h : List.Forall₂ C.value vs ws) :
    C.value (Evaluator.element place vs) (Evaluator.element place ws) := by
  unfold Evaluator.element
  simp only [h.length_eq]
  split <;> split
  · exact rel_getD (rel_getElem? h _) L.null
  · exact L.null
  · exact rel_getD (rel_getElem? h _) L.null
  · exact L.null

theorem objectOf {es fs : List (String × Value)} (h : List.Forall₂ C.member es fs) :
    C.value (Value.objectOf es) (Value.objectOf fs) := by
  refine List.rel_foldl (P := C.object) (R := C.member) ?_ L.empty h
  rintro ms ns members ⟨key, v⟩ ⟨_, w⟩ ⟨rfl, related⟩
  exact L.insert key related members

theorem project {f g : Value → Eval Value} {vs ws : List Value}
    (each : ∀ v w, C.value v w → Simulates C.tolerance C.value (f v) (g w))
    (h : List.Forall₂ C.value vs ws) :
    Simulates C.tolerance C.value (Evaluator.project f vs) (Evaluator.project g ws) := by
  refine (Simulates.mapM each h).bind fun results results' related => .pure (L.array ?_)
  refine List.rel_filter (fun v w this => ?_) related
  dsimp only
  rw [L.isNull this]

theorem guarded {p q f g : Value → Eval Value}
    (test : ∀ v w, C.value v w → Simulates C.tolerance C.value (p v) (q w))
    (each : ∀ v w, C.value v w → Simulates C.tolerance C.value (f v) (g w)) (v w : Value)
    (h : C.value v w) :
    Simulates C.tolerance C.value (Evaluator.guarded p f v) (Evaluator.guarded q g w) := by
  refine (test v w h).bind fun verdict verdict' related => ?_
  rw [L.isFalseLike related]
  split
  · exact .pure L.null
  · exact each v w h

theorem ordered (op : Comparison) (test : Double → Double → Bool) {a a' b b' : Value}
    (left : C.value a a') (right : C.value b b') :
    Corresponds C.tolerance C.value
      (match a.coerce?, b.coerce? with
        | some x, some y => .ok (.bool (test x y))
        | _, _ => .error (.type (.incomparable a.kind op b.kind)))
      (match a'.coerce?, b'.coerce? with
        | some x, some y => .ok (.bool (test x y))
        | _, _ => .error (.type (.incomparable a'.kind op b'.kind))) := by
  rw [L.coerce left, L.coerce right]
  split
  · exact .ok (L.bool _)
  · refine .error (C.tolerance.trans
      (L.kind left (fun kind => .type (.incomparable kind op b.kind)) (fun _ _ => rfl)
        fun _ => rfl) ?_)
    exact L.kind right (fun kind => .type (.incomparable a'.kind op kind)) (fun _ _ => rfl)
      fun _ => rfl

theorem compare (op : Comparison) (equality : op = .equal ∨ op = .notEqual → C.Equality)
    {a a' b b' : Value} (left : C.value a a') (right : C.value b b') :
    Corresponds C.tolerance C.value (Evaluator.compare op a b) (Evaluator.compare op a' b') := by
  cases op with
  | equal =>
    refine .ok ?_
    rw [equality (.inl rfl) left right]
    exact L.bool _
  | notEqual =>
    refine .ok ?_
    rw [equality (.inr rfl) left right]
    exact L.bool _
  | less => exact L.ordered .less Double.less left right
  | lessOrEqual => exact L.ordered .lessOrEqual Double.lessOrEqual left right
  | greater => exact L.ordered .greater (fun a b => b.less a) left right
  | greaterOrEqual => exact L.ordered .greaterOrEqual (fun a b => b.lessOrEqual a) left right

end Lawful

/-- What two evaluators must have in common to evaluate the expressions of a fragment alike. -/
structure Shared (C : Correspondence) (F : Fragment) (ev ev' : Evaluator) : Prop where
  lawful : C.Lawful
  equality : F.comparison .equal ∨ F.comparison .notEqual → C.Equality
  order : F.valueProjection → C.Ordered
  field (name) {v w} : C.value v w →
    C.value (Evaluator.field ev.resolver name v) (Evaluator.field ev'.resolver name w)

section Step

variable {F : Fragment} {ev ev' : Evaluator} {evaluate evaluate' : Function.Evaluate}
  {root root' : Value}

theorem Shared.step (shared : C.Shared F ev ev') {e f : Expr}
    (roots : e = .root → C.value root root')
    (evaluates : ∀ {e f v w}, C.expr e f → C.value v w →
      Simulates C.tolerance C.value (evaluate e v) (evaluate' f w))
    (calls : ∀ {name args args'}, F.function name → List.Forall₂ C.value args args' →
      Simulates C.tolerance C.value
        (Evaluator.callWithin ev evaluate root ev.maxCalls name args)
        (Evaluator.callWithin ev' evaluate' root' ev'.maxCalls name args'))
    (layer : Expr.Layer F C.expr e f) {v w : Value} (h : C.value v w) :
    Simulates C.tolerance C.value (Evaluator.step ev evaluate root e v)
      (Evaluator.step ev' evaluate' root' f w) := by
  have L := shared.lawful
  have list {es fs : List Expr} (items : List.Forall₂ C.expr es fs) :
      Simulates C.tolerance (List.Forall₂ C.value) (es.mapM fun e => evaluate e v)
        (fs.mapM fun e => evaluate' e w) :=
    Simulates.mapM (fun _ _ related => evaluates related h) items
  cases layer with
  | comparison allowed lhs rhs =>
    refine (evaluates lhs h).bind fun a a' left => ?_
    refine (evaluates rhs h).bind fun b b' right => .ofExcept ?_
    refine L.compare _ (fun which => shared.equality ?_) left right
    rcases which with rfl | rfl
    · exact .inl allowed
    · exact .inr allowed
  | reference body =>
    refine Simulates.freshIdentity.bind ?_
    rintro i _ rfl
    exact .pure (L.reference i body)
  | call allowed args => exact (list args).bind fun _ _ related => calls allowed related
  | field name => exact .pure (shared.field name h)
  | filterProjection lhs rhs predicate =>
    refine (evaluates lhs h).bind fun a a' left => ?_
    rcases rel_cases (L.sequence left) with ⟨ha, hb⟩ | ⟨vs, ws, ha, hb, items⟩ <;> rw [ha, hb]
    · exact .pure L.null
    · exact L.project (L.guarded (fun _ _ => evaluates predicate) fun _ _ => evaluates rhs) items
  | flatten body =>
    refine (evaluates body h).bind fun a a' left => ?_
    rcases rel_cases (L.sequence left) with ⟨ha, hb⟩ | ⟨vs, ws, ha, hb, items⟩ <;> rw [ha, hb]
    · exact .pure L.null
    · exact .pure (L.array (L.flatten items))
  | identity => exact .pure h
  | current => exact .pure h
  | root => exact .pure (roots rfl)
  | index place =>
    dsimp only [Evaluator.step]
    rcases rel_cases (L.sequence h) with ⟨hv, hw⟩ | ⟨vs, ws, hv, hw, items⟩ <;> rw [hv, hw]
    · exact .pure L.null
    · exact .pure (L.element _ items)
  | literal value => exact .pure (L.literal value)
  | selectHash entries =>
    dsimp only [Evaluator.step]
    rw [L.isNull h]
    split
    · exact .pure L.null
    · refine Simulates.bind (Simulates.mapM (S := C.member) ?_ entries)
        fun _ _ members => .pure (L.objectOf members)
      rintro ⟨key, e⟩ ⟨_, f⟩ ⟨rfl, related⟩
      exact (evaluates related h).bind fun _ _ value => .pure ⟨rfl, value⟩
  | selectList items =>
    dsimp only [Evaluator.step]
    rw [L.isNull h]
    split
    · exact .pure L.null
    · exact (list items).bind fun _ _ results => .pure (L.array results)
  | or lhs rhs =>
    refine (evaluates lhs h).bind fun a a' left => ?_
    rw [L.isFalseLike left]
    split
    · exact evaluates rhs h
    · exact .pure left
  | and lhs rhs =>
    refine (evaluates lhs h).bind fun a a' left => ?_
    rw [L.isFalseLike left]
    split
    · exact .pure left
    · exact evaluates rhs h
  | not body =>
    refine (evaluates body h).bind fun a a' result => .pure ?_
    rw [L.isFalseLike result]
    exact L.bool _
  | pipe stages =>
    refine Simulates.foldlM (Q := C.expr) ?_ stages h
    exact fun _ _ _ _ current stage => evaluates stage current
  | projection lhs rhs =>
    refine (evaluates lhs h).bind fun a a' left => ?_
    rcases rel_cases (L.sequence left) with ⟨ha, hb⟩ | ⟨vs, ws, ha, hb, items⟩ <;> rw [ha, hb]
    · exact .pure L.null
    · exact L.project (fun _ _ => evaluates rhs) items
  | subexpression lhs rhs => exact (evaluates lhs h).bind fun _ _ left => evaluates rhs left
  | indexExpression lhs rhs => exact (evaluates lhs h).bind fun _ _ left => evaluates rhs left
  | slice bounds =>
    dsimp only [Evaluator.step]
    rcases rel_cases (L.sequence h) with ⟨hv, hw⟩ | ⟨vs, ws, hv, hw, items⟩ <;> rw [hv, hw]
    · exact .pure L.null
    · refine (Simulates.ofExcept (Slice.bidirectional_corresponds _ items bounds)).bind ?_
      exact fun _ _ results => .pure (L.array results)
  | valueProjection allowed lhs rhs =>
    refine (evaluates lhs h).bind fun a a' left => ?_
    rcases rel_cases (L.object left) with ⟨ha, hb⟩ | ⟨ms, ns, ha, hb, members⟩ <;> rw [ha, hb]
    · exact .pure L.null
    · exact L.project (fun _ _ => evaluates rhs) (Ordered.values (shared.order allowed) members)

end Step

/-- Evaluations simulate each other on all levels if one node does, where each level may have a tolerance
of its own. Of two limits the first may be the lower one, where reaching it is excused. -/
theorem executeWithin_simulates {T : Nat → Tolerance} {X : Expr → Expr → Prop}
    {V : Value → Value → Prop} {ev ev' : Evaluator} {root root' : Value}
    (opens : ∀ d, (T d).Opens (T (d + 1)) ev.maxDepth)
    (limits : ev.maxDepth = ev'.maxDepth ∨
      ev.maxDepth ≤ ev'.maxDepth ∧ ∀ d, (T d).excused (.recursionLimit ev.maxDepth))
    (step : ∀ (d : Nat) (evaluate evaluate' : Function.Evaluate),
      (∀ {e f v w}, X e f → V v w → Simulates (T d) V (evaluate e v) (evaluate' f w)) →
      ∀ {e f v w}, X e f → V v w →
        Simulates (T d) V (Evaluator.step ev evaluate root e v)
          (Evaluator.step ev' evaluate' root' f w))
    {levels levels' : Nat}
    (room : levels = levels' ∨
      levels ≤ levels' ∧ ∀ d, (T d).excused (.recursionLimit ev.maxDepth))
    (d : Nat) {e f : Expr} {v w : Value} (expr : X e f) (value : V v w) :
    Simulates (T d) V (Evaluator.executeWithin ev root levels e v)
      (Evaluator.executeWithin ev' root' levels' f w) := by
  induction levels generalizing levels' d e f v w with
  | zero =>
    rcases room with rfl | ⟨_, excuse⟩
    · rcases limits with same | ⟨_, excuse⟩
      · apply Simulates.throw
        rw [same]
        exact (T d).refl _ rfl
      · exact .excused (excuse d) _
    · exact .excused (excuse d) _
  | succ levels ih =>
    obtain ⟨levels', rfl⟩ : ∃ n, levels' = n + 1 := ⟨levels' - 1, by omega⟩
    have below : levels = levels' ∨
        levels ≤ levels' ∧ ∀ d, (T d).excused (.recursionLimit ev.maxDepth) :=
      room.imp Nat.succ.inj fun ⟨less, excuse⟩ => ⟨Nat.le_of_succ_le_succ less, excuse⟩
    have inside := step (d + 1) _ _ (fun expr value => ih below (d + 1) expr value) expr value
    exact inside.nested (opens d) (limits.imp_right fun ⟨less, excuse⟩ => ⟨less, excuse d⟩)

end Correspondence

end JsonQuery

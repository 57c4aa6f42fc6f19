import JsonQuery.Proofs.Simulation.Plain
import JsonQuery.Proofs.Simulation.Step

/-!
All built-in functions under a correspondence, those among them that evaluate expressions, and whole
evaluations that call nothing else.
-/
namespace JsonQuery.Correspondence

open Eval JsonQuery.Function

variable {C : Correspondence} {evaluate evaluate' : Function.Evaluate}

/-- What a function needs of a correspondence besides the common laws. -/
def Admits (C : Correspondence) : Builtin → Prop
  | .type | .toArray | .toNumber => C.Kinds
  | .contains | .containsAny => C.Equality
  | .toString => C.Texts
  | .fromItems => C.Kinds ∧ C.Texts
  | .keys | .values | .items => C.Ordered
  | .slice => C.Bounds
  | .shuffle => C.tolerance.Draws
  | _ => True

theorem checkKind_error {b : Builtin} {first : Option SortKey} {key : SortKey} {fault : Fault}
    (h : checkKind b first key = .error fault) : fault.isOrdinary = true := by
  unfold checkKind at h
  split at h
  · split at h
    · cases h
    · cases h
      rfl
  · cases h

theorem arity_byKey (b : Builtin) (few : List Value → Value)
    (many : List Value → List SortKey → Except Fault Value) :
    Binary (Function.byKey b evaluate few many) (throw b.misfit) where
  none := rfl
  one s := by cases s <;> rfl
  many s t _ _ := by cases s <;> cases t <;> rfl

theorem arity_map : Binary (Function.map evaluate) (throw Builtin.map.misfit) where
  none := rfl
  one s := by cases s <;> rfl
  many s t _ _ := by cases s <;> cases t <;> rfl

namespace Lawful

variable (L : C.Lawful)
include L

theorem sortKey (b : Builtin) {v w : Value} (h : C.value v w) :
    Corresponds C.tolerance Eq (Function.sortKey b v) (Function.sortKey b w) := by
  have number := L.number h
  have string := L.string h
  have other : Corresponds C.tolerance (Eq (α := SortKey))
      (.error (.type (.keyKind b.name v.kind))) (.error (.type (.keyKind b.name w.kind))) :=
    .error (L.kind h (fun kind => .type (.keyKind b.name kind)) (fun _ _ => rfl) fun _ => rfl)
  cases v with
  | number m =>
    cases w with
    | number n =>
      cases number with
      | some number => exact (L.numericValue b number).map fun _ _ same => by rw [same]
    | _ => cases number
  | string s =>
    cases w with
    | string t =>
      cases string
      exact .ok rfl
    | _ => cases string
  | _ =>
    cases w with
    | number n => cases number
    | string t => cases string
    | _ => exact other

variable (evaluates : ∀ {e f v w}, C.expr e f → C.value v w →
  Simulates C.tolerance C.value (evaluate e v) (evaluate' f w))
include evaluates

theorem keysBy (b : Builtin) {e f : Expr} (body : C.expr e f) (first : Option SortKey)
    {vs ws : List Value} (items : List.Forall₂ C.value vs ws) :
    Simulates C.tolerance Eq (Function.keysBy b evaluate e first vs)
      (Function.keysBy b evaluate' f first ws) := by
  induction items generalizing first with
  | nil => exact .pure rfl
  | cons item _ ih =>
    refine (evaluates body item).bind fun r r' result => ?_
    have key : Corresponds C.tolerance Eq
        (Function.sortKey b r >>= Function.checkKind b first)
        (Function.sortKey b r' >>= Function.checkKind b first) := by
      refine (L.sortKey b result).bind ?_
      rintro key _ rfl
      cases checked : Function.checkKind b first key with
      | ok key => exact .ok rfl
      | error fault => exact .error (C.tolerance.refl fault (checkKind_error checked))
    refine (Simulates.ofExcept key).bind ?_
    rintro key _ rfl
    exact (ih _).bind fun _ _ rest => .pure (congrArg (key :: ·) rest)

theorem byKey (b : Builtin) {few few' : List Value → Value}
    {many many' : List Value → List SortKey → Except Fault Value}
    (fews : ∀ vs ws, List.Forall₂ C.value vs ws → C.value (few vs) (few' ws))
    (manys : ∀ vs ws keys, List.Forall₂ C.value vs ws →
      Corresponds C.tolerance C.value (many vs keys) (many' ws keys))
    {ss ts : List Slot} (h : List.Forall₂ C.SlotsAlike ss ts) :
    Simulates C.tolerance C.value (Function.byKey b evaluate few many ss)
      (Function.byKey b evaluate' few' many' ts) := by
  have misfit : Simulates C.tolerance C.value (throw b.misfit) (throw b.misfit) :=
    .throw (C.tolerance.refl _ rfl)
  refine Binary.rel (arity_byKey b few many) (arity_byKey b few' many') misfit
    (fun s t s' t' first second => ?_) h
  cases first with
  | array items =>
    cases second with
    | reference body _ =>
      dsimp only [Function.byKey]
      rw [items.length_eq]
      split
      · exact .pure (fews _ _ items)
      · refine (L.keysBy evaluates b body none items).bind ?_
        rintro keys _ rfl
        exact .ofExcept (manys _ _ keys items)
    | _ => exact misfit
  | _ => exact misfit

theorem map {ss ts : List Slot} (h : List.Forall₂ C.SlotsAlike ss ts) :
    Simulates C.tolerance C.value (Function.map evaluate ss) (Function.map evaluate' ts) := by
  have misfit : Simulates C.tolerance C.value (throw Builtin.map.misfit)
      (throw Builtin.map.misfit) := .throw (C.tolerance.refl _ rfl)
  refine Binary.rel arity_map arity_map misfit (fun s t s' t' first second => ?_) h
  cases first with
  | reference body _ =>
    cases second with
    | array items =>
      refine Simulates.bind (Simulates.mapM (Q := C.value) ?_ items) fun _ _ results =>
        .pure (L.array results)
      exact fun _ _ => evaluates body
    | _ => exact misfit
  | _ => exact misfit

omit evaluates in
/-- The places come in the same order, since the keys are the same. -/
theorem sortByKeys (sorter : Sorter) {vs ws : List Value} (keys : List SortKey)
    (items : List.Forall₂ C.value vs ws) :
    Corresponds C.tolerance C.value (Function.sortByKeys sorter vs keys)
      (Function.sortByKeys sorter ws keys) := by
  refine L.sortedArray ?_
  cases sorter.sort (Function.orderAt keys.toArray) (List.finRange keys.toArray.size) with
  | none => exact .none
  | some places =>
    refine .some ?_
    rw [List.forall₂_map_left_iff, List.forall₂_map_right_iff]
    refine List.forall₂_same.2 fun i _ => ?_
    rw [List.getElem?_toArray, List.getElem?_toArray]
    exact rel_getD (rel_getElem? items i.val) L.null

omit evaluates in
theorem shuffle (draws : C.tolerance.Draws) {ss ts : List Slot} (h : List.Forall₂ C.SlotsAlike ss ts) :
    Simulates C.tolerance C.value (Function.shuffle ss) (Function.shuffle ts) := by
  have misfit : Simulates C.tolerance C.value (throw Builtin.shuffle.misfit)
      (throw Builtin.shuffle.misfit) := .throw (C.tolerance.refl _ rfl)
  have arity : Unary Function.shuffle (throw Builtin.shuffle.misfit) :=
    ⟨rfl, fun s _ _ => by cases s <;> rfl⟩
  refine arity.rel arity misfit (fun s t slot => ?_) h
  cases slot with
  | array items =>
    dsimp only [Function.shuffle]
    rw [items.length_eq]
    refine (Simulates.draw draws _).bind ?_
    rintro swaps _ rfl
    exact .pure (L.array (exchange_rel items swaps))
  | _ => exact misfit

theorem apply (sorter : Sorter) (b : Builtin) (admits : C.Admits b) {ss ts : List Slot}
    (h : List.Forall₂ C.SlotsAlike ss ts) :
    Simulates C.tolerance C.value (b.apply sorter evaluate ss) (b.apply sorter evaluate' ts) := by
  have first {vs ws : List Value} (items : List.Forall₂ C.value vs ws) :
      C.value (vs.head?.getD .null) (ws.head?.getD .null) :=
    rel_getD (rel_head? items) L.null
  have best (wanted : Ordering) (vs ws : List Value) (keys : List SortKey) (items : List.Forall₂ C.value vs ws) :
      Corresponds C.tolerance C.value (.ok (extremeBy wanted vs keys)) (.ok (extremeBy wanted ws keys)) :=
    .ok (rel_getD (rel_getElem? items _) L.null)
  cases b with
  | maxBy => exact L.byKey evaluates _ (fun _ _ => first) (best .gt) h
  | minBy => exact L.byKey evaluates _ (fun _ _ => first) (best .lt) h
  | sortBy => exact L.byKey evaluates _ (fun _ _ => L.array) (fun _ _ => L.sortByKeys sorter) h
  | dedupBy =>
    refine L.byKey evaluates _ (fun _ _ => L.array) (fun vs ws keys items => .ok (L.array ?_)) h
    have pairs : List.Forall₂ (fun p q => C.value p.1 q.1 ∧ p.2 = q.2) (vs.zip keys) (ws.zip keys) :=
      rel_zip items keys
    exact List.rel_map (fun _ _ item => item.1) (distinctAfter_rel (fun _ _ item => item.2) [] pairs)
  | map => exact L.map evaluates h
  | shuffle => exact L.shuffle admits h
  | length => exact .ofExcept (Preserves.length L h)
  | startsWith => exact .ofExcept (Preserves.startsWith L h)
  | endsWith => exact .ofExcept (Preserves.endsWith L h)
  | abs => exact .ofExcept (Preserves.unary L .abs Double.abs h)
  | ceil => exact .ofExcept (Preserves.unary L .ceil Double.ceil h)
  | floor => exact .ofExcept (Preserves.unary L .floor Double.floor h)
  | avg => exact .ofExcept (Preserves.avg L h)
  | sum => exact .ofExcept (Preserves.sum L h)
  | max => exact .ofExcept (Preserves.extremum L .max .gt h)
  | min => exact .ofExcept (Preserves.extremum L .min .lt h)
  | sort => exact .ofExcept (Preserves.sort L sorter h)
  | dedup => exact .ofExcept (Preserves.dedup L h)
  | contains => exact .ofExcept (Preserves.contains L admits h)
  | containsAny => exact .ofExcept (Preserves.containsAny L admits h)
  | merge => exact .ofExcept (Preserves.merge L h)
  | zip => exact .ofExcept (Preserves.zip L h)
  | keys => exact .ofExcept (Preserves.keys L admits h)
  | values => exact .ofExcept (Preserves.values L admits h)
  | items => exact .ofExcept (Preserves.items L admits h)
  | get => exact .ofExcept (Preserves.get L h)
  | slice => exact .ofExcept (Preserves.slice L admits h)
  | join => exact .ofExcept (Preserves.join L h)
  | reverse => exact .ofExcept (Preserves.reverse L h)
  | toArray => exact .ofExcept (Preserves.toArray L admits h)
  | fromItems => exact .ofExcept (Preserves.fromItems L admits.1 admits.2 h)
  | toString => exact .ofExcept (Preserves.toString L admits h)
  | toNumber => exact .ofExcept (Preserves.toNumber L admits h)
  | notNull => exact .ofExcept (Preserves.notNull L h)
  | type => exact .ofExcept (Preserves.type L admits h)

end Lawful

theorem Lawful.builtin (L : C.Lawful) {ev ev' : Evaluator} (sorter : ev.sorter = ev'.sorter)
    {root root' : Value} {calls calls' : Nat}
    (evaluates : ∀ {e f v w}, C.expr e f → C.value v w →
      Simulates C.tolerance C.value (evaluate e v) (evaluate' f w))
    {name : String} (absent : ev.registry.get? name = none)
    (absent' : ev'.registry.get? name = none)
    (admits : ∀ b : Builtin, b.name = name → C.Admits b) {args args' : List Value}
    (h : List.Forall₂ C.value args args') :
    Simulates C.tolerance C.value (Evaluator.callWithin ev evaluate root calls name args)
      (Evaluator.callWithin ev' evaluate' root' calls' name args') := by
  unfold Evaluator.callWithin
  rw [absent, absent', sorter]
  dsimp only
  cases found : Builtin.ofName? name with
  | none => exact .throw (C.tolerance.refl _ rfl)
  | some b =>
    have named : b.name = name := by simpa using List.find?_some found
    refine (Simulates.ofExcept (L.resolve b.name b.parameters h)).bind fun ss ts slots => ?_
    exact L.apply evaluates ev'.sorter b (admits b named) slots

end JsonQuery.Correspondence

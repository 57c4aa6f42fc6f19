import JsonQuery.Proofs.Nesting
import JsonQuery.Proofs.Order.Extreme

/-!
Projections beside the functions that do the same work. A projection is the function `map` without its
nulls, a projection over the values of an object is one over the array of these values, and a filter
projects what passes its test, from the states that the test leaves.
-/
namespace JsonQuery

open Eval

namespace Run

def named (run : Run) : Run := { run with supply := run.supply + 1 }

/-- States that differ at most in how deep they have been. -/
def Matches (run run' : Run) : Prop :=
  run.depth = run'.depth ∧ run.supply = run'.supply ∧ run.generator = run'.generator

/-- States at one depth, whatever they give next. -/
def Level (run run' : Run) : Prop := run.depth = run'.depth

end Run

theorem Run.Matches.trans {run run' run'' : Run} (first : run.Matches run') (second : run'.Matches run'') :
    run.Matches run'' :=
  ⟨first.1.trans second.1, first.2.1.trans second.2.1, first.2.2.trans second.2.2⟩

def Value.ofResults (results : List Value) : Value := .array (results.filter (!·.isNull))

namespace Eval

variable {α β : Type} {S : Run → Run → Prop}

/-- Whether a computation cannot tell states apart that are related. -/
def Blind (S : Run → Run → Prop) (x : Eval α) : Prop :=
  ∀ ⦃run run'⦄, S run run' → (x run).1 = (x run').1 ∧ S (x run).2 (x run').2

theorem Blind.exists_after {x : Eval α} (blind : Blind S x) {run run' after : Run} (related : S run run')
    {outcome : Except Fault α} (h : x run' = (outcome, after)) :
    ∃ between, x run = (outcome, between) ∧ S between after := by
  obtain ⟨same, left⟩ := blind related
  rw [h] at same left
  exact ⟨(x run).2, Prod.ext same rfl, left⟩

theorem Blind.ofExcept (outcome : Except Fault α) : Blind S (Eval.ofExcept outcome) :=
  fun _ _ related => ⟨rfl, related⟩

theorem Blind.bind {x : Eval α} {f : α → Eval β} (first : Blind S x) (next : ∀ a, Blind S (f a)) :
    Blind S (x >>= f) := by
  intro run run' related
  rcases hy : x run' with ⟨fault | a, right⟩
  · obtain ⟨left, hx, after⟩ := first.exists_after related hy
    rw [bind_of_error f hx, bind_of_error f hy]
    exact ⟨rfl, after⟩
  · obtain ⟨left, hx, after⟩ := first.exists_after related hy
    rw [bind_of_ok f hx, bind_of_ok f hy]
    exact next a after

theorem Blind.composes : Composes fun _ x _ => Blind S x := ⟨fun a => .ofExcept (.ok a), .bind⟩

theorem Blind.mapM {f : α → Eval β} (each : ∀ a, Blind S (f a)) (xs : List α) : Blind S (xs.mapM f) :=
  Blind.composes.mapM (g := f) fun a _ => each a

theorem Blind.nested {limit : Nat} {x : Eval α} (h : Blind Run.Level x) : Blind Run.Level (nested limit x) := by
  intro run run' level
  by_cases room : run.depth < limit
  · have entered : Run.Level run.opened run'.opened := congrArg (· + 1) level
    rw [nested_of_room room, nested_of_room (level ▸ room)]
    exact ⟨(h entered).1, level⟩
  · rw [nested_of_full room, nested_of_full (level ▸ room)]
    exact ⟨rfl, level⟩

/-- Whether a computation leaves the state as it was but for how deep it has been. -/
def Rests (x : Eval α) : Prop := ∀ run, (x run).2.Matches run

theorem Rests.ofExcept (outcome : Except Fault α) : Rests (Eval.ofExcept outcome) := fun _ => ⟨rfl, rfl, rfl⟩

theorem Rests.bind {x : Eval α} {f : α → Eval β} (first : Rests x) (next : ∀ a, Rests (f a)) : Rests (x >>= f) := by
  intro run
  have rested := first run
  rcases hx : x run with ⟨_ | a, after⟩ <;> rw [hx] at rested
  · rw [bind_of_error f hx]
    exact rested
  · rw [bind_of_ok f hx]
    exact (next a after).trans rested

theorem Rests.nested {limit : Nat} {x : Eval α} (h : Rests x) : Rests (nested limit x) := by
  intro run
  by_cases room : run.depth < limit
  · rw [nested_of_room room]
    obtain ⟨-, supply, generator⟩ := h run.opened
    exact ⟨rfl, supply, generator⟩
  · rw [nested_of_full room]
    exact ⟨rfl, rfl, rfl⟩

theorem Rests.composes : Composes fun _ x _ => Rests x := ⟨fun a => .ofExcept (.ok a), .bind⟩

theorem of_mapM_cons {f : α → Eval β} {a : α} {as : List α} {run : Run} {results : List β}
    (h : (List.mapM f (a :: as) run).1 = .ok results) : ∃ b bs after, f a run = (.ok b, after) ∧
      (as.mapM f after).1 = .ok bs ∧ results = b :: bs := by
  obtain ⟨b, bs, after, first, rest, whole⟩ := mapM_cons_eq_ok_iff.1 (Prod.ext h rfl)
  exact ⟨b, bs, after, first, congrArg Prod.fst rest, whole⟩

theorem mapM_cons_of_error {f : α → Eval β} {a : α} {fault : Fault} {run after : Run}
    (h : f a run = (.error fault, after)) (as : List α) : List.mapM f (a :: as) run = (.error fault, after) := by
  rw [List.mapM_cons, bind_of_error _ h]

theorem mapM_cons_of_ok {f : α → Eval β} {a : α} {b : β} {run after : Run} (h : f a run = (.ok b, after))
    {as : List α} {bs : List β} (rest : (as.mapM f after).1 = .ok bs) :
    (List.mapM f (a :: as) run).1 = .ok (b :: bs) :=
  congrArg Prod.fst (mapM_cons_eq_ok_iff.2 ⟨b, bs, after, h, Prod.ext rest rfl, rfl⟩)

theorem bind_pure_outcome (f : α → β) (x : Eval α) (run : Run) :
    ((x >>= fun a => pure (f a)) run).1 = (x run).1.map f := by
  rcases outcome : x run with ⟨_ | a, after⟩
  · rw [bind_of_error _ outcome]
    rfl
  · rw [bind_of_ok _ outcome]
    rfl

theorem nested_bind_of_ok {limit : Nat} {x : Eval α} (f : α → Eval β) {run after : Run} {a : α}
    (room : run.depth < limit) (h : x run.opened = (.ok a, after)) :
    (nested limit (x >>= f) run).1 = (f a after).1 := by
  rw [nested_of_room room, bind_of_ok f h]

theorem nested_bind_of_error {limit : Nat} {x : Eval α} (f : α → Eval β) {run after : Run} {fault : Fault}
    (room : run.depth < limit) (h : x run.opened = (.error fault, after)) :
    (nested limit (x >>= f) run).1 = .error fault := by
  rw [nested_of_room room, bind_of_error f h]

end Eval

namespace Evaluator

variable {ev : Evaluator}

theorem execute_blind (ev : Evaluator) (e : Expr) (v root : Value) : Blind Run.Matches (ev.execute e v root) := by
  intro run run' matching
  have simulates : Simulates (.generators Eq) Eq (ev.execute e v root) (ev.execute e v root) :=
    run_self (fun _ => Tolerance.generators_exact Eq) (fun _ _ => Tolerance.generators_draws)
      (fun _ => Tolerance.generators_opens Eq _) 0 (.execute e v root)
  obtain ⟨after, same⟩ := simulates.agrees (Tolerance.generators_exact Eq) matching
  exact ⟨same, after⟩

theorem execute_of_full {run : Run} (full : ¬ run.depth < ev.maxDepth) (e : Expr) (v root : Value) :
    ev.execute e v root run = (.error (.recursionLimit ev.maxDepth), run) := by
  rw [execute_eq_nested, nested_of_full full]

theorem room_of_ok {e : Expr} {v root w : Value} {run : Run} (h : (ev.execute e v root run).1 = .ok w) :
    run.depth < ev.maxDepth := by
  by_contra full
  rw [execute_of_full full] at h
  cases h

theorem execute_call (name : String) (args : List Expr) (v root : Value) : ev.execute (.call name args) v root =
    nested ev.maxDepth (args.mapM (ev.execute · v root) >>= fun values => ev.call name values root) :=
  execute_eq_nested ..

theorem project_apply (f : Value → Eval Value) (items : List Value) (run : Run) :
    (project f items run).1 = (items.mapM f run).1.map Value.ofResults :=
  bind_pure_outcome Value.ofResults (items.mapM f) run

section Nodes

variable {l : Expr} {v root subject : Value} {items : List Value} {run after : Run}

theorem execute_projection (room : run.depth < ev.maxDepth)
    (left : ev.execute l v root run.opened = (.ok subject, after)) (sequence : subject.sequence? = some items)
    (e : Expr) : (ev.execute (.projection l e) v root run).1 =
      (items.mapM (ev.execute e · root) after).1.map Value.ofResults := by
  rw [execute_eq_nested]
  unfold step
  rw [nested_bind_of_ok _ room left, sequence]
  exact project_apply ..

theorem execute_valueProjection (room : run.depth < ev.maxDepth) {members : List (String × Value)}
    (left : ev.execute l v root run.opened = (.ok (.object members), after)) (e : Expr) :
    (ev.execute (.valueProjection l e) v root run).1 =
      ((Keyed.values members).mapM (ev.execute e · root) after).1.map Value.ofResults := by
  rw [execute_eq_nested]
  unfold step
  rw [nested_bind_of_ok _ room left]
  exact project_apply ..

theorem execute_filterProjection (room : run.depth < ev.maxDepth)
    (left : ev.execute l v root run.opened = (.ok subject, after)) (sequence : subject.sequence? = some items)
    (e p : Expr) : (ev.execute (.filterProjection l e p) v root run).1 =
      (items.mapM (guarded (ev.execute p · root) (ev.execute e · root)) after).1.map Value.ofResults := by
  rw [execute_eq_nested]
  unfold step
  rw [nested_bind_of_ok _ room left, sequence]
  exact project_apply ..

theorem execute_reference (room : run.depth < ev.maxDepth) (e : Expr) (v root : Value) :
    ∃ between, ev.execute (.reference e) v root run = (.ok (.reference (.made run.supply) e), between) ∧
      between.Matches run.named := by
  rw [execute_eq_nested, nested_of_room room]
  exact ⟨_, rfl, rfl, rfl, rfl⟩

/-- A failure of the second argument is that of both, since a reference needs no more levels than it. -/
theorem reference_args_of_error {fault : Fault}
    (left : ev.execute l v root run.named.opened = (.error fault, after)) (e : Expr) :
    ∃ last, [.reference e, l].mapM (ev.execute · v root) run.opened = (.error fault, last) := by
  rw [List.mapM_cons]
  by_cases room : run.opened.depth < ev.maxDepth
  · obtain ⟨between, reference, matching⟩ := execute_reference room e v root
    obtain ⟨last, left', -⟩ := (execute_blind ev l v root).exists_after matching left
    rw [bind_of_ok _ reference]
    exact ⟨last, bind_of_error _ (mapM_cons_of_error left' [])⟩
  · have cut := (execute_of_full (show ¬ run.named.opened.depth < ev.maxDepth from room) ..).symm.trans left
    cases cut
    exact ⟨_, bind_of_error _ (execute_of_full room ..)⟩

end Nodes

section Map

variable (builtin : ev.registry.get? Builtin.map.name = none) {e l : Expr} {v root subject : Value}
  {items : List Value} {run after : Run}
include builtin

theorem call_map (sequence : subject.sequence? = some items) (identity : Identity) :
    (ev.call Builtin.map.name [.reference identity e, subject] root run).1 =
      (items.mapM (ev.execute e · root) run).1.map .array := by
  rw [call_eq_apply builtin (Parameter.resolve_two rfl rfl (Parameter.check_array sequence))]
  exact bind_pure_outcome Value.array (items.mapM (ev.execute e · root)) run

theorem execute_map (room : run.depth < ev.maxDepth) {identity : Identity} {between : Run}
    (reference : ev.execute (.reference e) v root run.opened = (.ok (.reference identity e), between))
    (left : ev.execute l v root between = (.ok subject, after)) (sequence : subject.sequence? = some items) :
    (ev.execute (.call Builtin.map.name [.reference e, l]) v root run).1 =
      (items.mapM (ev.execute e · root) after).1.map .array := by
  have args : [.reference e, l].mapM (ev.execute · v root) run.opened =
      (.ok [.reference identity e, subject], after) :=
    mapM_cons_eq_ok_iff.2 ⟨_, _, between, reference, mapM_one left, rfl⟩
  rw [execute_call, nested_bind_of_ok _ room args]
  exact call_map builtin sequence identity

/-- Whatever the left side does but give something else than a sequence, the function `map` and the
projection have results on the same items or fail alike. The function first takes an identity for its
reference. -/
theorem exists_map_outcome
    (sequence : ∀ subject, (ev.execute l v root run.named.opened).1 = .ok subject → subject.sequence?.isSome) :
    ∃ outcome : Except Fault (List Value),
      (ev.execute (.call Builtin.map.name [.reference e, l]) v root run).1 = outcome.map .array ∧
      (ev.execute (.projection l e) v root run.named).1 = outcome.map .ofResults := by
  by_cases room : run.depth < ev.maxDepth
  swap
  · refine ⟨.error (.recursionLimit ev.maxDepth), ?_, ?_⟩
    · exact congrArg Prod.fst (execute_of_full room ..)
    · exact congrArg Prod.fst (execute_of_full (show ¬ run.named.depth < ev.maxDepth from room) ..)
  rcases left : ev.execute l v root run.named.opened with ⟨fault | subject, after⟩
  · obtain ⟨last, args⟩ := reference_args_of_error left e
    refine ⟨.error fault, ?_, ?_⟩
    · rw [execute_call]
      exact nested_bind_of_error _ room args
    · rw [execute_eq_nested]
      exact nested_bind_of_error _ room left
  · have inside : run.named.opened.depth < ev.maxDepth := room_of_ok (congrArg Prod.fst left)
    obtain ⟨between, reference, matching⟩ :=
      execute_reference (show run.opened.depth < ev.maxDepth from inside) e v root
    obtain ⟨after', left', matching'⟩ := (execute_blind ev l v root).exists_after matching left
    obtain ⟨items, there⟩ := Option.isSome_iff_exists.1 (sequence subject (congrArg Prod.fst left))
    refine ⟨(items.mapM (ev.execute e · root) after).1, ?_,
      execute_projection (show run.named.depth < ev.maxDepth from room) left there e⟩
    rw [execute_map builtin room reference left' there,
      (Blind.mapM (fun item => execute_blind ev e item root) items matching').1]

end Map

section Values

variable (builtin : ev.registry = .empty)
include builtin

theorem call_values (members : List (String × Value)) (root : Value) (run : Run) :
    ev.call Builtin.values.name [.object members] root run = (.ok (.array (Keyed.values members)), run) := by
  have absent : ev.registry.get? Builtin.values.name = none := by
    rw [builtin]
    rfl
  exact returns_plain absent rfl (Parameter.resolve_object members) root run

theorem execute_values {l : Expr} {v root : Value} {members : List (String × Value)} {run after : Run}
    (left : ev.execute l v root run = (.ok (.object members), after))
    (uncut : ∀ limit, (ev.execute (.call Builtin.values.name [l]) v root run).1 ≠ .error (.recursionLimit limit)) :
    ∃ last, ev.execute (.call Builtin.values.name [l]) v root run = (.ok (.array (Keyed.values members)), last) ∧
      last.Matches after := by
  have propagate (name handler) (there : ev.registry.get? name = some handler) : Handler.Propagates handler := by
    rw [builtin] at there
    cases there
  have room : run.depth < ev.maxDepth := room_of_ok (congrArg Prod.fst left)
  have beside : Run.Beside (run.depth + 1) run.depth run.opened run := ⟨rfl, rfl, rfl, rfl⟩
  have lifted := execute_lifts propagate (Nat.le_succ run.depth) l v root beside
  rcases deeper : ev.execute l v root run.opened with ⟨outcome, inner⟩
  rw [deeper, left] at lifted
  rcases lifted with ⟨limit, cut⟩ | ⟨same, between⟩
  · dsimp only at cut
    subst cut
    have failed : (ev.execute (.call Builtin.values.name [l]) v root run).1 = .error (.recursionLimit limit) := by
      rw [execute_call]
      exact nested_bind_of_error _ room (mapM_cons_of_error deeper [])
    exact absurd failed (uncut limit)
  · dsimp only at same
    subst same
    have args : [l].mapM (ev.execute · v root) run.opened = (.ok [.object members], inner) := mapM_one deeper
    refine ⟨{ inner with depth := run.depth }, ?_, between.depth'.symm, between.supply, between.generator⟩
    rw [execute_call, nested_of_room room, bind_of_ok _ args, call_values builtin]

end Values

section Filter

variable {test body : Value → Eval Value}

/-- The items that pass a test, each with the state that the test leaves. The body goes on from there,
and the next test from where the body ends. -/
def sift (test body : Value → Eval Value) : List Value → Run → List (Value × Run)
  | [], _ => []
  | item :: rest, run =>
    match test item run with
    | (.error _, _) => []
    | (.ok verdict, tested) =>
      if verdict.isFalseLike then sift test body rest tested
      else (item, tested) :: sift test body rest (body item tested).2

/-- States that the body cannot tell apart, although a test may lead from one to the other. -/
structure Unseen (S : Run → Run → Prop) (test body : Value → Eval Value) : Prop where
  deepest : ∀ run deepest, S run { run with deepest }
  test : ∀ item ⦃run run'⦄, S run run' → S (test item run).2 run'
  body : ∀ item, Blind S (body item)

theorem sift_of_passed {item verdict : Value} {run tested : Run} (h : test item run = (.ok verdict, tested))
    (passed : ¬ verdict.isFalseLike) (rest : List Value) : sift test body (item :: rest) run =
      (item, tested) :: sift test body rest (body item tested).2 := by
  rw [sift, h]
  exact if_neg passed

theorem sift_of_failed {item verdict : Value} {run tested : Run} (h : test item run = (.ok verdict, tested))
    (failed : verdict.isFalseLike) (rest : List Value) :
    sift test body (item :: rest) run = sift test body rest tested := by
  rw [sift, h]
  exact if_pos failed

/-- What a filter gives are the results of the body on what passes the test, and the results that it has
on the same items without the test, if it does not see what the test does. -/
theorem exists_sifted_results {items : List Value} {run : Run} {ws : List Value}
    (h : (items.mapM (guarded test body) run).1 = .ok ws) : ∃ results,
      List.Forall₂ (fun kept result => (body kept.1 kept.2).1 = .ok result) (sift test body items run) results ∧
      Value.ofResults ws = Value.ofResults results ∧
      ∀ S, Unseen S test body → ∀ run', S run run' →
        (((sift test body items run).map Prod.fst).mapM body run').1 = .ok results := by
  induction items generalizing run ws with
  | nil =>
    obtain rfl := Except.ok.inj h
    exact ⟨[], .nil, rfl, fun _ _ _ _ => rfl⟩
  | cons item rest ih =>
    obtain ⟨w, others, after, first, more, rfl⟩ := of_mapM_cons h
    unfold guarded at first
    rcases tests : test item run with ⟨fault | verdict, tested⟩
    · rw [bind_of_error _ tests] at first
      cases first
    · rw [bind_of_ok _ tests] at first
      split at first
      · next failed =>
        cases first
        obtain ⟨results, each, same, unseen⟩ := ih more
        rw [sift_of_failed tests failed]
        refine ⟨results, each, same, fun S seen run' related => unseen S seen run' ?_⟩
        have moved := seen.test item related
        rwa [tests] at moved
      · next passed =>
        obtain ⟨results, each, same, unseen⟩ := ih more
        have left : (body item tested).2 = after := congrArg Prod.snd first
        rw [sift_of_passed tests passed, left]
        refine ⟨w :: results, .cons (congrArg Prod.fst first) each, ?_, fun S seen run' related => ?_⟩
        · unfold Value.ofResults at same ⊢
          rw [List.filter_cons, List.filter_cons, Value.array.inj same]
        · have moved := seen.test item related
          rw [tests] at moved
          obtain ⟨same', related'⟩ := seen.body item moved
          rw [first] at same' related'
          have second : body item run' = (.ok w, (body item run').2) := Prod.ext same'.symm rfl
          exact mapM_cons_of_ok second (unseen S seen _ related')

end Filter

theorem execute_current {run : Run} (room : run.depth < ev.maxDepth) (v root : Value) :
    ev.execute .current v root run = (.ok v, { run with deepest := max run.deepest (run.depth + 1) }) := by
  rw [execute_eq_nested, nested_of_room room]
  rfl

/-- No body sees a test that leaves the state as it was but for how deep it has been. -/
theorem unseen_of_still {e p : Expr} {root : Value}
    (still : ∀ item run, (ev.execute p item root run).2.Matches run) :
    Unseen Run.Matches (ev.execute p · root) (ev.execute e · root) where
  deepest _ _ := ⟨rfl, rfl, rfl⟩
  test item run _ related := (still item run).trans related
  body item := execute_blind ev e item root

section Stateless

variable (builtin : ev.registry = .empty)
include builtin

theorem execute_rests {e : Expr} (stateless : e.Stateless) (v root : Value) : Rests (ev.execute e v root) := by
  intro run
  rw [execute_apply]
  exact executeWithin_stateless Rests.composes builtin .ofExcept .nested stateless _ v run

theorem execute_blind_level {e : Expr} (stateless : e.Stateless) (v root : Value) :
    Blind Run.Level (ev.execute e v root) := by
  intro run run' level
  rw [execute_apply, execute_apply, show run'.depth = run.depth from level.symm]
  exact executeWithin_stateless Blind.composes builtin .ofExcept .nested stateless _ v level

theorem unseen_of_stateless_test {p : Expr} (stateless : p.Stateless) (e : Expr) (root : Value) :
    Unseen Run.Matches (ev.execute p · root) (ev.execute e · root) :=
  unseen_of_still fun item run => execute_rests builtin stateless item root run

/-- A body that makes no reference and calls no function that evaluates or draws sees no test. -/
theorem unseen_of_stateless_body {e : Expr} (stateless : e.Stateless) (p : Expr) (root : Value) :
    Unseen Run.Level (ev.execute p · root) (ev.execute e · root) where
  deepest _ _ := rfl
  test item run _ level := (@depth_run ev (.execute p item root) run).1.trans level
  body item := execute_blind_level builtin stateless item root

end Stateless

theorem stateless_current : Expr.Stateless .current := by
  have bare {node : Expr} : ¬ node = .current → ¬ Expr.Inside node .current :=
    fun other inside => other ((Expr.inside_leaf_iff rfl).1 inside)
  exact ⟨fun body => bare nofun, fun b args inside => absurd inside (bare nofun)⟩

theorem filterProjection_of_ok {l e p : Expr} {v root subject w : Value} {items : List Value} {run after : Run}
    (left : ev.execute l v root run.opened = (.ok subject, after)) (sequence : subject.sequence? = some items)
    (filtered : (ev.execute (.filterProjection l e p) v root run).1 = .ok w) :
    let kept := sift (ev.execute p · root) (ev.execute e · root) items after
    (∃ results, List.Forall₂ (fun item result => (ev.execute e item.1 root item.2).1 = .ok result) kept results ∧
      w = .ofResults results) ∧
    ∀ S, Unseen S (ev.execute p · root) (ev.execute e · root) →
      (ev.execute (.projection .current e) (.array (kept.map Prod.fst)) root { after with depth := run.depth }).1 =
        .ok w := by
  intro kept
  have inside : run.depth + 1 < ev.maxDepth := room_of_ok (congrArg Prod.fst left)
  have room : run.depth < ev.maxDepth := Nat.lt_of_succ_lt inside
  rw [execute_filterProjection room left sequence] at filtered
  rcases mapped : (items.mapM (guarded (ev.execute p · root) (ev.execute e · root)) after).1 with fault | ws
  · rw [mapped] at filtered
    cases filtered
  obtain ⟨results, each, same, unseen⟩ := exists_sifted_results mapped
  rw [mapped] at filtered
  obtain rfl : w = .ofResults results := (Except.ok.inj filtered).symm.trans same
  refine ⟨⟨results, each, rfl⟩, fun S seen => ?_⟩
  -- the projection comes to the same state inside but for how deep it has been
  have level : after.depth = run.depth + 1 := by
    have back := (@depth_run ev (.execute l v root) run.opened).1
    change (ev.execute l v root run.opened).2.depth = _ at back
    rw [left] at back
    exact back
  let start : Run := { after with depth := run.depth }
  have entered : start.opened = { after with deepest := max after.deepest (run.depth + 1) } := by
    simp [start, Run.opened, level]
  have current := execute_current (show start.opened.depth < ev.maxDepth from inside)
    (.array (kept.map Prod.fst)) root
  rw [execute_projection (show start.depth < ev.maxDepth from room) current rfl, entered,
    unseen S seen _ (seen.deepest after _)]
  rfl

/-- The projections beside `map` and `values`, in an evaluator without custom functions. Where the left
side gives a sequence or fails, the projection fails as `map` does, and otherwise has its results without
nulls; `map` has taken an identity for its reference, and the projection starts where it is taken. A
filter that succeeds has the results of its body on what passes the test, each from the state that the
test leaves, and is a projection of these items if the body does not see what the test does to the state.
A projection over an object is one over its values, unless the level of the call of `values` is one too
many. -/
theorem projections_agree (builtin : ev.registry = .empty) (l e p : Expr) (v root : Value) (run : Run) :
    ((∀ subject, (ev.execute l v root run.named.opened).1 = .ok subject → subject.sequence?.isSome) →
      ∃ outcome : Except Fault (List Value),
        (ev.execute (.call Builtin.map.name [.reference e, l]) v root run).1 = outcome.map .array ∧
        (ev.execute (.projection l e) v root run.named).1 = outcome.map .ofResults) ∧
    (∀ subject items after w, ev.execute l v root run.opened = (.ok subject, after) →
      subject.sequence? = some items → (ev.execute (.filterProjection l e p) v root run).1 = .ok w →
      let kept := sift (ev.execute p · root) (ev.execute e · root) items after
      (∃ results, List.Forall₂ (fun item result => (ev.execute e item.1 root item.2).1 = .ok result) kept results ∧
        w = .ofResults results) ∧
      ∀ S, Unseen S (ev.execute p · root) (ev.execute e · root) →
        (ev.execute (.projection .current e) (.array (kept.map Prod.fst)) root { after with depth := run.depth }).1 =
          .ok w) ∧
    (∀ members, (ev.execute l v root run.opened).1 = .ok (.object members) →
      (∀ limit, (ev.execute (.call Builtin.values.name [l]) v root run.opened).1 ≠
        .error (.recursionLimit limit)) →
      (ev.execute (.valueProjection l e) v root run).1 =
        (ev.execute (.projection (.call Builtin.values.name [l]) e) v root run).1) := by
  refine ⟨exists_map_outcome (by rw [builtin]; rfl),
    fun _ _ _ _ left sequence filtered => filterProjection_of_ok left sequence filtered, ?_⟩
  · intro members object uncut
    rcases left : ev.execute l v root run.opened with ⟨outcome, after⟩
    rw [left] at object
    dsimp only at object
    subst object
    have inside : run.opened.depth < ev.maxDepth := room_of_ok (congrArg Prod.fst left)
    have room : run.depth < ev.maxDepth := Nat.lt_of_succ_lt inside
    obtain ⟨last, values, matching⟩ := execute_values builtin left uncut
    rw [execute_valueProjection room left, execute_projection room values rfl,
      (Blind.mapM (fun item => execute_blind ev e item root) _ matching).1]

def truths : Value := .array [.bool false, .bool true]

def single : Value := .object [("a", .null)]

theorem projections_truths :
    (∃ outcome : Except Fault (List Value),
      (execute {} (.call Builtin.map.name [.reference (.not .current), .current]) truths .null (.seeded 0)).1 =
        outcome.map .array ∧
      (execute {} (.projection .current (.not .current)) truths .null (Run.seeded 0).named).1 =
        outcome.map .ofResults) ∧
    (∃ w items start,
      (execute {} (.filterProjection .current (.not .current) .current) truths .null (.seeded 0)).1 = .ok w ∧
      (execute {} (.projection .current (.not .current)) (.array items) .null start).1 = .ok w) ∧
    (execute {} (.valueProjection .current .identity) single .null (.seeded 0)).1 =
      (execute {} (.projection (.call Builtin.values.name [.current]) .identity) single .null (.seeded 0)).1 := by
  obtain ⟨maps, filters, -⟩ := @projections_agree {} rfl .current (.not .current) .current truths .null (.seeded 0)
  obtain ⟨-, -, objects⟩ := @projections_agree {} rfl .current .identity .current single .null (.seeded 0)
  refine ⟨maps fun subject given => ?_, ?_, objects _ rfl fun limit => ne_error_of_isOk (by decide +kernel) _⟩
  · obtain rfl : truths = subject := Except.ok.inj given
    rfl
  · have succeeds : (execute {} (.filterProjection .current (.not .current) .current) truths .null
        (.seeded 0)).1.isOk = true := by
      decide +kernel
    cases filtered : (execute {} (.filterProjection .current (.not .current) .current) truths .null
      (.seeded 0)).1 with
    | error fault => exact absurd filtered (ne_error_of_isOk succeeds fault)
    | ok w =>
      have left := execute_current (show (Run.seeded 0).opened.depth < maxDepth {} by decide) truths .null
      have projected := (filters truths _ _ w left rfl filtered).2 Run.Matches
        (unseen_of_stateless_test rfl stateless_current _ _)
      exact ⟨w, _, _, rfl, projected⟩

/-- Both letters in an order that is drawn; whatever it is, it passes a test. -/
def shuffledLetters : Expr := .call Builtin.shuffle.name [.root]

def textOnLetters (e : Expr) : Except Fault String :=
  (execute {} e (.array letters) (.array letters) (.seeded 0)).1.bind Value.text

def keptLetters : List (Value × Run) :=
  sift (execute {} shuffledLetters · (.array letters)) (execute {} drawnLetter · (.array letters)) letters
    (execute {} .current (.array letters) (.array letters) (Run.seeded 0).opened).2

/-- A test that draws passes both letters, and yet the body draws others than without it. -/
theorem filterProjection_drawnLetter :
    keptLetters.map (·.1.textOrEmpty) = ["a", "b"] ∧
    textOnLetters (.filterProjection .current drawnLetter shuffledLetters) = .ok "[\"b\",\"a\"]" ∧
    textOnLetters (.projection .current drawnLetter) = .ok "[\"a\",\"b\"]" := by
  decide +kernel

end Evaluator

end JsonQuery

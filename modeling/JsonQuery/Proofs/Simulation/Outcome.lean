import JsonQuery.Run
import Mathlib.Data.List.Forall2

/-!
Computations side by side. Two computations that start in states that go together simulate each other when
they end in such states with corresponding outcomes. A tolerance says which states go together, which faults
correspond, and which faults of the first computation excuse the second from following it.
-/
namespace JsonQuery

/-- Whether a fault is none of those that only malformed numbers and undecodable texts give. -/
def Fault.isOrdinary : Fault → Bool
  | .number _ | .undecodable | .unwritable _ => false
  | _ => true

/-- What may differ between two computations. -/
structure Tolerance where
  /-- The first computation may end in such a fault whatever the second does. -/
  excused : Fault → Prop
  alike : Fault → Fault → Prop
  state : Run → Run → Prop
  refl : ∀ f : Fault, f.isOrdinary = true → alike f f
  trans : ∀ {f g h}, alike f g → alike g h → alike f h
  depth : ∀ {run run'}, state run run' → run.depth = run'.depth
  supply : ∀ {run run'}, state run run' → run.supply = run'.supply ∧
    state { run with supply := run.supply + 1 } { run' with supply := run'.supply + 1 }

namespace Tolerance

theorem supply_of_eq {run run' : Run} (h : run = run') : run.supply = run'.supply ∧
    { run with supply := run.supply + 1 } = { run' with supply := run'.supply + 1 } := by
  subst h
  exact ⟨rfl, rfl⟩

def excusing (P : Fault → Prop) : Tolerance where
  excused := P
  alike := Eq
  state := Eq
  refl _ _ := rfl
  trans := Eq.trans
  depth := congrArg Run.depth
  supply := supply_of_eq

def strict : Tolerance := excusing fun _ => False

def Draws (T : Tolerance) : Prop :=
  ∀ ⦃run run'⦄, T.state run run' → run.generator = run'.generator ∧
    ∀ generator, T.state { run with generator } { run' with generator }

def Reflexive (T : Tolerance) : Prop := ∀ f, T.alike f f

/-- Whether nothing but the states may differ. -/
structure Exact (T : Tolerance) : Prop where
  reflexive : T.Reflexive
  excused : ∀ {f}, ¬ T.excused f
  eq : ∀ {f g}, T.alike f g → f = g

/-- Whether computations of `T'` may stand one level deeper inside those of `T`, up to a limit. -/
structure Opens (T T' : Tolerance) (limit : Nat) : Prop where
  excused : ∀ {f}, T'.excused f → T.excused f
  alike : ∀ {f g}, T'.alike f g → T.alike f g
  enter : ∀ {run run'}, T.state run run' → run.depth < limit →
    T'.state { run with depth := run.depth + 1, deepest := max run.deepest (run.depth + 1) }
      { run' with depth := run'.depth + 1, deepest := max run'.deepest (run'.depth + 1) }
  leave : ∀ {run run' after after'}, T.state run run' → T'.state after after' →
    T.state { after with depth := run.depth } { after' with depth := run'.depth }

theorem excusing_reflexive (P : Fault → Prop) : (excusing P).Reflexive := fun _ => rfl

theorem draws_of_eq {T : Tolerance} (states : T.state = Eq) : T.Draws := by
  intro run run' start
  rw [states] at start ⊢
  subst start
  exact ⟨rfl, fun _ => rfl⟩

theorem opens_of_eq {T : Tolerance} (states : T.state = Eq) (limit : Nat) : T.Opens T limit where
  excused := id
  alike := id
  enter start _ := by
    rw [states] at start ⊢
    rw [start]
  leave start finish := by
    rw [states] at start finish ⊢
    rw [start, finish]

variable {α : Type}

/-- Ordinary faults that show one of the two things correspond, as long as their category does not depend
on what they show. -/
def Shows (T : Tolerance) (a b : α) : Prop :=
  ∀ f : α → Fault, (∀ s t, (f s).category = (f t).category) → (∀ s, (f s).isOrdinary = true) →
    T.alike (f a) (f b)

theorem Shows.of_eq {T : Tolerance} {a b : α} (h : a = b) : T.Shows a b := by
  subst h
  intro f _ ordinary
  exact T.refl (f a) (ordinary a)

end Tolerance

variable {α β γ δ : Type}

/-- Outcomes that correspond: results related by `R`, or faults that are alike. -/
inductive Corresponds (T : Tolerance) (R : α → β → Prop) :
    Except Fault α → Except Fault β → Prop
  | ok {a b} (h : R a b) : Corresponds T R (.ok a) (.ok b)
  | error {f g} (h : T.alike f g) : Corresponds T R (.error f) (.error g)

namespace Corresponds

variable {T : Tolerance} {R : α → β → Prop} {S : γ → δ → Prop}

theorem mono {T' : Tolerance} {R' : α → β → Prop} (alike : ∀ {f g}, T.alike f g → T'.alike f g)
    (imp : ∀ a b, R a b → R' a b) {x : Except Fault α} {y : Except Fault β}
    (h : Corresponds T R x y) : Corresponds T' R' x y := by
  cases h with
  | ok h => exact .ok (imp _ _ h)
  | error h => exact .error (alike h)

theorem eq (same : ∀ {f g}, T.alike f g → f = g) {x y : Except Fault α}
    (h : Corresponds T Eq x y) : x = y := by
  cases h with
  | ok h => rw [h]
  | error h => rw [same h]

theorem bind {x : Except Fault α} {y : Except Fault β} {f : α → Except Fault γ}
    {g : β → Except Fault δ} (h : Corresponds T R x y)
    (next : ∀ a b, R a b → Corresponds T S (f a) (g b)) :
    Corresponds T S (x >>= f) (y >>= g) := by
  cases h with
  | ok h => exact next _ _ h
  | error h => exact .error h

theorem map {x : Except Fault α} {y : Except Fault β} {f : α → γ} {g : β → δ}
    (h : Corresponds T R x y) (next : ∀ a b, R a b → S (f a) (g b)) :
    Corresponds T S (x.map f) (y.map g) := by
  cases h with
  | ok h => exact .ok (next _ _ h)
  | error h => exact .error h

theorem mapM {Q : α → β → Prop} {f : α → Except Fault γ} {g : β → Except Fault δ}
    (each : ∀ a b, Q a b → Corresponds T S (f a) (g b)) {xs : List α} {ys : List β}
    (h : List.Forall₂ Q xs ys) : Corresponds T (List.Forall₂ S) (xs.mapM f) (ys.mapM g) := by
  induction h with
  | nil => exact .ok .nil
  | cons head _ ih =>
    rw [List.mapM_cons, List.mapM_cons]
    refine (each _ _ head).bind fun c d first => ?_
    exact ih.bind fun cs ds rest => .ok (.cons first rest)

theorem foldlM {Q : α → β → Prop} {f : γ → α → Except Fault γ} {g : δ → β → Except Fault δ}
    (each : ∀ c d a b, S c d → Q a b → Corresponds T S (f c a) (g d b)) {xs : List α}
    {ys : List β} (h : List.Forall₂ Q xs ys) {c : γ} {d : δ} (start : S c d) :
    Corresponds T S (xs.foldlM f c) (ys.foldlM g d) := by
  induction h generalizing c d with
  | nil => exact .ok start
  | cons head _ ih =>
    rw [List.foldlM_cons, List.foldlM_cons]
    exact (each _ _ _ _ start head).bind fun c d next => ih next

theorem caught (exact : T.Exact) {x : Except Fault α} {y : Except Fault β} (h : Corresponds T R x y) :
    Corresponds T (Corresponds T R) (Eval.caught x) (Eval.caught y) := by
  cases h with
  | ok h => exact .ok (.ok h)
  | @error f g h =>
    obtain rfl := exact.eq h
    rw [Eval.caught, Eval.caught]
    cases f.isFatal with
    | true => exact .error h
    | false => exact .ok (.error h)

end Corresponds

namespace Eval

theorem bind_of_ok {x : Eval α} (f : α → Eval γ) {run after : Run} {a : α}
    (h : x run = (.ok a, after)) : (x >>= f) run = f a after := by
  change ExceptT.bindCont f (x run).1 (x run).2 = _
  rw [h]
  rfl

theorem bind_of_error {x : Eval α} (f : α → Eval γ) {run after : Run} {fault : Fault}
    (h : x run = (.error fault, after)) : (x >>= f) run = (.error fault, after) := by
  change ExceptT.bindCont f (x run).1 (x run).2 = _
  rw [h]
  rfl

theorem mapM_cons_eq_ok_iff {f : α → Eval γ} {a : α} {as : List α} {results : List γ} {run after : Run} :
    List.mapM f (a :: as) run = (.ok results, after) ↔ ∃ b bs between, f a run = (.ok b, between) ∧
      as.mapM f between = (.ok bs, after) ∧ results = b :: bs := by
  constructor
  · intro h
    rw [List.mapM_cons] at h
    rcases first : f a run with ⟨fault | b, between⟩
    · rw [bind_of_error _ first] at h
      cases h
    · rw [bind_of_ok _ first] at h
      rcases rest : as.mapM f between with ⟨fault | bs, last⟩
      · rw [bind_of_error _ rest] at h
        cases h
      · rw [bind_of_ok _ rest] at h
        cases h
        exact ⟨b, bs, between, rfl, rest, rfl⟩
  · rintro ⟨b, bs, between, first, rest, rfl⟩
    rw [List.mapM_cons, bind_of_ok _ first, bind_of_ok _ rest]
    rfl

theorem mapM_one {f : α → Eval γ} {a : α} {b : γ} {run after : Run} (only : f a run = (.ok b, after)) :
    List.mapM f [a] run = (.ok [b], after) :=
  mapM_cons_eq_ok_iff.2 ⟨b, [], after, only, congrFun List.mapM_nil after, rfl⟩

theorem attempt_apply (body : Eval α) (run : Run) :
    attempt body run = (caught (body run).1, (body run).2) := rfl

theorem attempt_bind_of_ok {x : Eval α} (f : Except Fault α → Eval γ) {run after : Run} {a : α}
    (h : x run = (.ok a, after)) : (attempt x >>= f) run = f (.ok a) after := by
  apply bind_of_ok
  rw [attempt_apply, h]
  rfl

theorem attempt_bind_of_error {x : Eval α} (f : Except Fault α → Eval γ) {run after : Run} {fault : Fault}
    (h : x run = (.error fault, after)) : (attempt x >>= f) run =
      if fault.isFatal then (.error fault, after) else f (.error fault) after := by
  have outcome : attempt x run = (caught (.error fault), after) := by rw [attempt_apply, h]
  rw [caught] at outcome
  cases fatal : fault.isFatal with
  | true =>
    rw [fatal] at outcome
    exact bind_of_error f outcome
  | false =>
    rw [fatal] at outcome
    exact bind_of_ok f outcome

/-- From states that go together the computations come to states that go together, with corresponding
outcomes, unless the first one fails in a way that excuses the second. -/
def Simulates (T : Tolerance) (R : α → β → Prop) (x : Eval α) (y : Eval β) : Prop :=
  ∀ ⦃run run'⦄, T.state run run' → (∃ fault, T.excused fault ∧ (x run).1 = .error fault) ∨
    (T.state (x run).2 (y run').2 ∧ Corresponds T R (x run).1 (y run').1)

namespace Simulates

variable {T : Tolerance} {R : α → β → Prop} {S : γ → δ → Prop}

theorem ofExcept {x : Except Fault α} {y : Except Fault β} (h : Corresponds T R x y) :
    Simulates T R (ofExcept x) (ofExcept y) :=
  fun _ _ start => .inr ⟨start, h⟩

theorem pure {a : α} {b : β} (h : R a b) : Simulates T R (pure a) (pure b) :=
  ofExcept (.ok h)

theorem throw {f g : Fault} (h : T.alike f g) :
    Simulates T R (throw f : Eval α) (throw g : Eval β) :=
  ofExcept (.error h)

theorem excused {f : Fault} (h : T.excused f) (y : Eval β) :
    Simulates T R (MonadExcept.throw f : Eval α) y :=
  fun _ _ _ => .inl ⟨f, h, rfl⟩

theorem mono {R' : α → β → Prop} (imp : ∀ a b, R a b → R' a b) {x : Eval α} {y : Eval β}
    (h : Simulates T R x y) : Simulates T R' x y := by
  intro run run' start
  rcases h start with out | ⟨state, outcome⟩
  · exact .inl out
  · exact .inr ⟨state, outcome.mono id imp⟩

theorem bind {x : Eval α} {y : Eval β} {f : α → Eval γ} {g : β → Eval δ} (h : Simulates T R x y)
    (next : ∀ a b, R a b → Simulates T S (f a) (g b)) :
    Simulates T S (x >>= f) (y >>= g) := by
  intro run run' start
  have first := h start
  rcases hx : x run with ⟨outcome, after⟩
  rcases hy : y run' with ⟨outcome', after'⟩
  rw [hx, hy] at first
  rcases first with ⟨fault, excuse, failed⟩ | ⟨state, related⟩
  · left
    dsimp only at failed
    subst failed
    rw [bind_of_error f hx]
    exact ⟨fault, excuse, rfl⟩
  · dsimp only at state related
    cases related with
    | ok related =>
      rw [bind_of_ok f hx, bind_of_ok g hy]
      exact next _ _ related state
    | error alike =>
      rw [bind_of_error f hx, bind_of_error g hy]
      exact .inr ⟨state, .error alike⟩

theorem mapM {Q : α → β → Prop} {f : α → Eval γ} {g : β → Eval δ}
    (each : ∀ a b, Q a b → Simulates T S (f a) (g b)) {xs : List α} {ys : List β}
    (h : List.Forall₂ Q xs ys) : Simulates T (List.Forall₂ S) (xs.mapM f) (ys.mapM g) := by
  induction h with
  | nil => exact pure .nil
  | cons head _ ih =>
    rw [List.mapM_cons, List.mapM_cons]
    refine (each _ _ head).bind fun c d first => ?_
    exact ih.bind fun cs ds rest => pure (.cons first rest)

theorem foldlM {Q : α → β → Prop} {f : γ → α → Eval γ} {g : δ → β → Eval δ}
    (each : ∀ c d a b, S c d → Q a b → Simulates T S (f c a) (g d b)) {xs : List α}
    {ys : List β} (h : List.Forall₂ Q xs ys) {c : γ} {d : δ} (start : S c d) :
    Simulates T S (xs.foldlM f c) (ys.foldlM g d) := by
  induction h generalizing c d with
  | nil => exact pure start
  | cons head _ ih =>
    rw [List.foldlM_cons, List.foldlM_cons]
    exact (each _ _ _ _ start head).bind fun c d next => ih next

theorem freshIdentity : Simulates T Eq freshIdentity freshIdentity := by
  intro run run' start
  obtain ⟨same, after⟩ := T.supply start
  exact .inr ⟨after, .ok (congrArg Identity.made same)⟩

theorem draw (draws : T.Draws) (f : Generator → α × Generator) :
    Simulates T Eq (draw f) (draw f) := by
  intro run run' start
  obtain ⟨same, after⟩ := draws start
  unfold Eval.draw
  rw [same]
  exact .inr ⟨after _, .ok rfl⟩

theorem agrees (exact : T.Exact) {x y : Eval α} (h : Simulates T Eq x y) {run run' : Run}
    (start : T.state run run') : T.state (x run).2 (y run').2 ∧ (x run).1 = (y run').1 := by
  rcases h start with ⟨_, excuse, _⟩ | ⟨state, outcome⟩
  · exact absurd excuse exact.excused
  · exact ⟨state, outcome.eq exact.eq⟩

/-- Where nothing but the states may differ, outcomes are results like any other. -/
theorem attempt (exact : T.Exact) {x : Eval α} {y : Eval β} (h : Simulates T R x y) :
    Simulates T (Corresponds T R) (attempt x) (attempt y) := by
  intro run run' start
  rw [attempt_apply, attempt_apply]
  rcases h start with ⟨_, excuse, _⟩ | ⟨state, outcome⟩
  · exact absurd excuse exact.excused
  · exact .inr ⟨state, outcome.caught exact⟩

/-- One level deeper. Where only the first computation reaches its limit, the second is excused. -/
theorem nested {T' : Tolerance} {limit limit' : Nat} (opens : T.Opens T' limit) {x : Eval α}
    {y : Eval β} (h : Simulates T' R x y)
    (limits : limit = limit' ∨ limit ≤ limit' ∧ T.excused (.recursionLimit limit)) :
    Simulates T R (nested limit x) (nested limit' y) := by
  intro run run' start
  have level := T.depth start
  unfold Eval.nested
  by_cases room : run.depth < limit
  · have room' : run'.depth < limit' := by omega
    rw [if_pos room, if_pos room']
    rcases h (opens.enter start room) with ⟨fault, excuse, failed⟩ | ⟨state, outcome⟩
    · exact .inl ⟨fault, opens.excused excuse, failed⟩
    · exact .inr ⟨opens.leave start state, outcome.mono opens.alike fun _ _ => id⟩
  · rw [if_neg room]
    rcases limits with rfl | ⟨_, excuse⟩
    · rw [level] at room
      rw [if_neg room]
      exact .inr ⟨start, .error (T.refl _ rfl)⟩
    · exact .inl ⟨_, excuse, rfl⟩

theorem eq_of_not_excused {P : Fault → Prop} {x y : Eval α}
    (h : Simulates (.excusing P) Eq x y) {run : Run}
    (kept : ∀ fault, P fault → (x run).1 ≠ .error fault) : y run = x run := by
  rcases h (Eq.refl run) with ⟨fault, excuse, failed⟩ | ⟨state, outcome⟩
  · exact absurd failed (kept fault excuse)
  · exact Prod.ext (outcome.eq id).symm (Eq.symm state)

theorem eq_map {f : α → β} {x : Eval α} {y : Eval β} (h : Simulates .strict R x y)
    (image : ∀ a b, R a b → b = f a) (run : Run) : y run = ((x run).1.map f, (x run).2) := by
  rcases h (Eq.refl run) with ⟨_, excused, _⟩ | ⟨state, outcome⟩
  · exact excused.elim
  · apply Prod.ext
    · cases hx : (x run).1 <;> cases hy : (y run).1 <;> rw [hx, hy] at outcome <;> cases outcome
      · next alike => exact congrArg Except.error (Eq.symm alike)
      · next related => exact congrArg Except.ok (image _ _ related)
    · exact Eq.symm state

end Simulates

end Eval

end JsonQuery

import JsonQuery.Proofs.Part

/-!
A correspondence restricted to a content. Its laws stay, and since evaluation does not lead out of the
content, the references that come up carry only expressions of a fragment. So for expressions of the
fragment evaluations correspond that may fail for the same kind of reason.
-/
namespace JsonQuery

open Eval

namespace Tolerance

def byCategory : Tolerance where
  excused _ := False
  alike f g := f.category = g.category
  state := Eq
  refl _ _ := rfl
  trans := Eq.trans
  depth := congrArg Run.depth
  supply := supply_of_eq

theorem byCategory_shows {α : Type} (a b : α) : byCategory.Shows a b :=
  fun _ category _ => category a b

end Tolerance

theorem rel_mono {α β : Type} {R S : α → β → Prop} {x : Option α} {y : Option β}
    (h : Option.Rel R x y) (imp : ∀ a b, x = some a → R a b → S a b) : Option.Rel S x y := by
  cases h with
  | none => exact .none
  | some h => exact .some (imp _ _ rfl h)

def Registry.builtinsBut (r : Registry) (excluded : List Builtin) (name : String) : Prop :=
  r.get? name = none ∧ ∀ b ∈ excluded, b.name ≠ name

theorem Registry.builtinsBut.notMem {r : Registry} {excluded some : List Builtin} {b : Builtin}
    (called : r.builtinsBut excluded b.name) (sub : some ⊆ excluded) : b ∉ some :=
  fun there => called.2 b (sub there) rfl

/-- References to expressions of a fragment, and no records. -/
def Content.recordFree (F : Fragment) : Content := ⟨fun _ => True, Expr.Within F, fun _ => False⟩

theorem Content.recordFree_closed (F : Fragment) (resolver : Resolver) :
    (Content.recordFree F).Closed resolver where
  double _ := trivial
  integer _ := trivial
  elements h := h.elim
  field h := h.elim

namespace Value

variable {K : Content} {resolver : Resolver}

theorem Holds.of_part {F : Fragment} {u v : Value} (h : v.Holds (.recordFree F)) (part : Part u v) :
    u.Holds (.recordFree F) := by
  induction part with
  | self => exact h
  | item there _ ih => exact ih (itemsHold_iff.1 h _ there)
  | member there _ ih => exact ih (membersHold_iff.1 h _ there)
  | field | element => exact h.elim

theorem Holds.carries {F : Fragment} {v : Value} (h : v.Holds (.recordFree F)) : v.Carries F :=
  fun _ _ part => h.of_part part

theorem holds_of_number? {v : Value} {n : Number} (h : v.Holds K) (seen : v.number? = some n) :
    (Value.number n).Holds K := by
  cases v with
  | number => cases seen; exact h
  | _ => cases seen

theorem holds_of_object? {v : Value} {members : List (String × Value)} (h : v.Holds K)
    (seen : v.object? = some members) : (Value.object members).Holds K := by
  cases v with
  | object => cases seen; exact h
  | _ => cases seen

theorem body_of_body? {v : Value} {e : Expr} (h : v.Holds K) (seen : v.body? = some e) : K.body e := by
  cases v with
  | reference => cases seen; exact h
  | _ => cases seen

theorem itemsHold_of_sequence? (closed : K.Closed resolver) {v : Value} {items : List Value}
    (h : v.Holds K) (seen : v.sequence? = some items) : ItemsHold K items := by
  cases v with
  | array => cases seen; exact h
  | record => exact closed.elements h seen
  | _ => cases seen

theorem holds_field (closed : K.Closed resolver) (name : String) {v : Value} (h : v.Holds K) :
    (Evaluator.field resolver name v).Holds K := by
  cases v with
  | object members =>
    dsimp only [Evaluator.field]
    cases there : Keyed.get? name members with
    | none => trivial
    | some v => exact holds_of_get? h there
  | record r =>
    dsimp only [Evaluator.field]
    cases found : resolver name r with
    | none => trivial
    | some v => exact closed.field h found
  | _ => trivial

end Value

namespace Correspondence

def restrict (C : Correspondence) (K : Content) : Correspondence :=
  ⟨C.tolerance, fun e f => K.body e ∧ C.expr e f, fun v w => v.Holds K ∧ C.value v w⟩

section Restrict

variable {C : Correspondence} {K : Content} {resolver : Resolver}

theorem restrict_items_iff {vs ws : List Value} :
    List.Forall₂ (C.restrict K).value vs ws ↔
      Value.ItemsHold K vs ∧ List.Forall₂ C.value vs ws := by
  rw [Value.itemsHold_iff]
  exact List.forall₂_and_left vs ws

theorem Lawful.restrict (L : C.Lawful) (closed : K.Closed resolver) : (C.restrict K).Lawful where
  isNull h := L.isNull h.2
  isFalseLike h := L.isFalseLike h.2
  string h := L.string h.2
  coerce h := L.coerce h.2
  number h := rel_mono (L.number h.2) fun _ _ seen number =>
    ⟨Value.holds_of_number? h.1 seen, number⟩
  sequence h := rel_mono (L.sequence h.2) fun _ _ seen items =>
    restrict_items_iff.2 ⟨Value.itemsHold_of_sequence? closed h.1 seen, items⟩
  object h := rel_mono (L.object h.2) fun _ _ seen members =>
    ⟨Value.holds_of_object? h.1 seen, members⟩
  body h := rel_mono (L.body h.2) fun _ _ seen body => ⟨Value.body_of_body? h.1 seen, body⟩
  kind h := L.kind h.2
  display h := L.display h.2
  toDouble h := L.toDouble h.2
  noValue b _ _ h none := L.noValue b h.2 none
  size h := L.size h.2
  get key _ _ h := rel_mono (L.get key h.2) fun _ _ there value =>
    ⟨Value.holds_of_get? h.1 there, value⟩
  null := ⟨trivial, L.null⟩
  bool b := ⟨trivial, L.bool b⟩
  text s := ⟨trivial, L.text s⟩
  double d := ⟨closed.double d, L.double d⟩
  nat n := ⟨closed.integer n, L.nat n⟩
  literal l := ⟨closed.literal l, L.literal l⟩
  array h := ⟨(restrict_items_iff.1 h).1, L.array (restrict_items_iff.1 h).2⟩
  reference i _ _ h := ⟨h.1, L.reference i h.2⟩
  empty := ⟨trivial, L.empty⟩
  insert key _ _ _ _ value members :=
    ⟨Value.membersHold_insert key value.1 members.1, L.insert key value.2 members.2⟩
  insertAll members entries :=
    ⟨Value.membersHold_insertAll members.1 entries.1, L.insertAll members.2 entries.2⟩

theorem Ordered.restrict (order : C.Ordered) : (C.restrict K).Ordered := by
  intro ms ns h
  have hold : ∀ m ∈ ms, m.2.Holds K := Value.membersHold_iff.1 h.1
  have both := (List.forall₂_and_left ms ns).2 ⟨hold, order h.2⟩
  exact both.imp fun _ _ member => ⟨member.2.1, member.1, member.2.2⟩

theorem Shared.restrict {F : Fragment} {ev ev' : Evaluator} (shared : C.Shared F ev ev')
    (closed : K.Closed ev.resolver) : (C.restrict K).Shared F ev ev' where
  lawful := shared.lawful.restrict closed
  equality allowed _ _ _ _ left right := shared.equality allowed left.2 right.2
  order allowed := Ordered.restrict (shared.order allowed)
  field name _ _ h := ⟨Value.holds_field closed name h.1, shared.field name h.2⟩

theorem admits_restrict {b : Builtin} (h : C.Admits b) : (C.restrict K).Admits b := by
  cases b with
  | type | toArray | toNumber => exact fun _ _ value => h value.2
  | contains | containsAny => exact fun _ _ _ _ left right => h left.2 right.2
  | toString => exact fun _ _ value => h value.2
  | fromItems => exact ⟨fun _ _ value => h.1 value.2, fun _ _ value => h.2 value.2⟩
  | keys | values | items => exact Ordered.restrict h
  | slice => exact fun _ _ value => h value.2
  | shuffle => exact h
  | _ => trivial

end Restrict

theorem texts_byCategory {C : Correspondence} (category : C.tolerance = .byCategory)
    (same : ∀ {v w}, C.value v w → w.text = v.text) : C.Texts := by
  intro v w h
  rw [category, same h]
  cases v.text with
  | ok s => exact .ok rfl
  | error fault => exact .error rfl

/-- Of faults whose category alone counts, a function needs no more than what it tells apart in values. -/
theorem admits_byCategory {C : Correspondence} (category : C.tolerance = .byCategory) {b : Builtin}
    (kinds : b ∈ [.type, .toArray, .toNumber, .fromItems] → C.Kinds)
    (equality : b ∈ [.contains, .containsAny] → C.Equality)
    (texts : b ∈ [.toString, .fromItems] → C.Texts)
    (order : b ∈ [.keys, .values, .items] → C.Ordered) : C.Admits b := by
  cases b with
  | type | toArray | toNumber => exact kinds (by decide)
  | contains | containsAny => exact equality (by decide)
  | toString => exact texts (by decide)
  | fromItems => exact ⟨kinds (by decide), texts (by decide)⟩
  | keys | values | items => exact order (by decide)
  | slice =>
    intro v w _
    rw [category]
    rfl
  | shuffle =>
    rw [Admits, category]
    exact Tolerance.draws_of_eq rfl
  | _ => trivial

end Correspondence

namespace Evaluator

open Correspondence

variable {C : Correspondence} {F : Fragment} {K : Content} {ev : Evaluator}

/-- What a fragment and an evaluator need for evaluations to correspond: the laws that the nodes and
functions of the fragment rely on, and no custom function among these. -/
structure Suits (ev : Evaluator) (C : Correspondence) (F : Fragment) : Prop where
  tolerance : C.tolerance = .byCategory
  expr : C.expr = Eq
  shared : C.Shared F ev ev
  admits : ∀ b : Builtin, F.function b.name → C.Admits b
  builtin : ∀ name, F.function name → ev.registry.get? name = none

theorem Suits.executeWithin (suits : ev.Suits C F) (closed : K.Closed ev.resolver)
    (bodies : ∀ e, K.body e ↔ e.Within F) {root root' : Value} (roots : (C.restrict K).value root root')
    (levels : Nat) {e : Expr} (within : e.Within F) {v w : Value} (value : (C.restrict K).value v w) :
    Simulates C.tolerance (C.restrict K).value (executeWithin ev root levels e v)
      (executeWithin ev root' levels e w) := by
  have states : C.tolerance.state = Eq := by
    rw [suits.tolerance]
    rfl
  have self (e : Expr) (within : e.Within F) : (C.restrict K).expr e e := by
    refine ⟨(bodies e).2 within, ?_⟩
    rw [suits.expr]
  refine Correspondence.executeWithin_simulates (T := fun _ => C.tolerance)
    (fun _ => Tolerance.opens_of_eq states _) (.inl rfl) ?_ (.inl rfl) 0 (self e within) value
  rintro _ evaluate evaluate' evaluates e f v w expr value
  obtain ⟨body, same⟩ := expr
  rw [suits.expr] at same
  subst same
  have shared := suits.shared.restrict closed
  refine shared.step (fun _ => roots) evaluates ?_ (((bodies e).1 body).layer self) value
  intro name args args' called related
  refine shared.lawful.builtin rfl evaluates (suits.builtin name called) (suits.builtin name called) ?_ related
  rintro b rfl
  exact admits_restrict (suits.admits b called)

/-- Evaluations of an expression of the fragment, started in the same state on values that correspond, give
results that correspond or fail for the same kind of reason. -/
theorem Suits.execute (suits : ev.Suits C F) (closed : K.Closed ev.resolver)
    (bodies : ∀ e, K.body e ↔ e.Within F) {e : Expr} (within : e.Within F) {v w root root' : Value}
    (value : (C.restrict K).value v w) (roots : (C.restrict K).value root root') (run : Run) :
    Corresponds .byCategory C.value (ev.execute e v root run).1 (ev.execute e w root' run).1 := by
  have simulates := suits.executeWithin closed bodies roots (ev.maxDepth - run.depth) within value
  rw [suits.tolerance] at simulates
  rcases simulates (Eq.refl run) with ⟨_, excused, _⟩ | ⟨_, outcome⟩
  · exact excused.elim
  · exact outcome.mono id fun _ _ related => related.2

/-- `map([0], [1:])`, which has a reference in the data evaluated on the values after it. -/
def mapRest : Expr := .call "map" [.index 0, .slice ⟨some 1, none, none⟩]

theorem mapRest_within (called : F.function "map") : mapRest.Within F :=
  ⟨called, trivial, trivial, trivial⟩

end Evaluator

end JsonQuery

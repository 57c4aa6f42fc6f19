import JsonQuery.Proofs.Keyed
import JsonQuery.Proofs.Root.Basic
import JsonQuery.Proofs.Simulation.Content

/-!
The root stays the one of the outermost evaluation. Whatever an expression and the references made by it
are evaluated on, a root in them stands for the same value, so a constant can stand in its place.
-/
namespace JsonQuery

open Eval

def Content.within (F : Fragment) : Content :=
  ⟨fun _ => True, Expr.Within F, fun r => (Value.record r).ReferenceFree⟩

namespace Value

section Within

variable {F : Fragment}

mutual

theorem ReferenceFree.holds : ∀ {v : Value}, v.ReferenceFree → v.Holds (.within F)
  | .null, _ | .bool _, _ | .number _, _ | .string _, _ => trivial
  | .array _, h => itemsHold_of_referenceFree h
  | .object _, h => membersHold_of_referenceFree h
  | .record _, h => h

theorem itemsHold_of_referenceFree : ∀ {items : List Value}, ItemsReferenceFree items →
    ItemsHold (.within F) items
  | [], _ => trivial
  | _ :: _, h => ⟨h.1.holds, itemsHold_of_referenceFree h.2⟩

theorem membersHold_of_referenceFree : ∀ {members : List (String × Value)},
    MembersReferenceFree members → MembersHold (.within F) members
  | [], _ => trivial
  | (_, _) :: _, h => ⟨h.1.holds, membersHold_of_referenceFree h.2⟩

end

mutual

theorem ofLiteral_referenceFree : ∀ l : Literal, (ofLiteral l).ReferenceFree
  | .null | .bool _ | .integer _ | .double _ | .string _ => trivial
  | .array items => ofLiterals_referenceFree items
  | .object members => ofLiteralMembers_referenceFree members

theorem ofLiterals_referenceFree : ∀ items : List Literal, ItemsReferenceFree (ofLiterals items)
  | [] => trivial
  | item :: rest => ⟨ofLiteral_referenceFree item, ofLiterals_referenceFree rest⟩

theorem ofLiteralMembers_referenceFree : ∀ members : List (String × Literal),
    MembersReferenceFree (ofLiteralMembers members)
  | [] => trivial
  | (_, value) :: rest => ⟨ofLiteral_referenceFree value, ofLiteralMembers_referenceFree rest⟩

end

end Within

end Value

/-- Whether the fields a resolver finds in records without references have none either. -/
def Resolver.Closed (resolver : Resolver) : Prop :=
  ∀ ⦃name r v⦄, (Value.record r).ReferenceFree → resolver name r = some v → v.ReferenceFree

namespace Resolver

theorem exact_closed : Closed exact := by
  intro name r v free found
  obtain ⟨f, there, rfl⟩ := Option.map_eq_some_iff.1 found
  obtain ⟨_, _, fields, elements⟩ := r
  have fieldsFree : Value.FieldsReferenceFree fields := by
    cases elements with
    | none => exact free
    | some items => exact free.1
  exact Value.fieldsReferenceFree_iff.1 fieldsFree f (List.mem_of_find?_eq_some there)

theorem byTag_closed : Closed byTag := fun _ _ _ free found => exact_closed free found

end Resolver

namespace Correspondence

def rooted (F : Fragment) (l : Literal) : Correspondence :=
  ⟨.strict, fun e f => e.Within F ∧ f = e.withRoot l, fun v w => v.Holds (.within F) ∧ w = v.withRoot l⟩

section Rooted

variable {F : Fragment} {l : Literal}

theorem rooted_refl {v : Value} (h : v.ReferenceFree) : (rooted F l).value v v :=
  ⟨h.holds, (Value.withRoot_of_referenceFree l h).symm⟩

theorem rooted_items {vs : List Value} (h : Value.ItemsHold (.within F) vs) :
    List.Forall₂ (rooted F l).value vs (vs.map (Value.withRoot l)) := by
  induction vs with
  | nil => exact .nil
  | cons v rest ih => exact .cons ⟨h.1, rfl⟩ (ih h.2)

theorem rooted_array {vs ws : List Value} (h : List.Forall₂ (rooted F l).value vs ws) :
    (rooted F l).value (.array vs) (.array ws) := by
  suffices Value.ItemsHold (.within F) vs ∧ ws = vs.map (Value.withRoot l) by
    obtain ⟨within, rfl⟩ := this
    exact ⟨within, (Value.withRoot_array l vs).symm⟩
  induction h with
  | nil => exact ⟨trivial, rfl⟩
  | cons head _ ih =>
    obtain ⟨within, rfl⟩ := head
    obtain ⟨rest, rfl⟩ := ih
    exact ⟨⟨within, rest⟩, rfl⟩

theorem rooted_object {ms ns : List (String × Value)} (h : (rooted F l).object ms ns) :
    Value.MembersHold (.within F) ms ∧ ns = Value.membersWithRoot l ms := by
  obtain ⟨within, same⟩ := h
  rw [Value.withRoot] at same
  exact ⟨within, Value.object.inj same⟩

theorem rooted_ordered : (rooted F l).Ordered := by
  intro ms ns h
  obtain ⟨within, rfl⟩ := rooted_object h
  clear h
  induction ms with
  | nil => exact .nil
  | cons member rest ih => exact .cons ⟨rfl, within.1, rfl⟩ (ih within.2)

theorem rooted_lawful : (rooted F l).Lawful where
  isNull := by
    rintro v _ ⟨_, rfl⟩
    have shallow : Value.Shallow Value.isNull :=
      ⟨fun _ _ => rfl, fun _ _ => rfl, fun _ _ _ => rfl, fun _ _ _ => rfl⟩
    exact (shallow.withRoot l v).symm
  isFalseLike := by
    rintro v _ ⟨_, rfl⟩
    cases v with
    | array items =>
      rw [Value.withRoot_array]
      cases items <;> rfl
    | object members =>
      rw [Value.withRoot_object]
      cases members <;> rfl
    | record r =>
      rw [Value.withRoot_record]
      obtain ⟨_, _, _, _ | _ | _⟩ := r <;> rfl
    | _ => rfl
  string := by
    rintro v _ ⟨_, rfl⟩
    have shallow : Value.Shallow Value.string? :=
      ⟨fun _ _ => rfl, fun _ _ => rfl, fun _ _ _ => rfl, fun _ _ _ => rfl⟩
    exact (shallow.withRoot l v).symm
  coerce := by
    rintro v _ ⟨_, rfl⟩
    have shallow : Value.Shallow Value.coerce? :=
      ⟨fun _ _ => rfl, fun _ _ => rfl, fun _ _ _ => rfl, fun _ _ _ => rfl⟩
    exact (shallow.withRoot l v).symm
  number := by
    rintro v _ ⟨_, rfl⟩
    cases v with
    | number n => exact .some ⟨trivial, rfl⟩
    | record r =>
      rw [Value.withRoot_record]
      exact .none
    | _ => exact .none
  sequence := by
    rintro v _ ⟨within, rfl⟩
    cases v with
    | array items =>
      rw [Value.withRoot_array]
      exact .some (rooted_items within)
    | record r =>
      rw [Value.withRoot_record]
      obtain ⟨_, _, _, _ | items⟩ := r
      · exact .none
      · exact .some (rooted_items (Value.itemsHold_of_referenceFree within.2))
    | _ => exact .none
  object := by
    rintro v _ ⟨within, rfl⟩
    cases v with
    | object members => exact .some ⟨within, rfl⟩
    | record r =>
      rw [Value.withRoot_record]
      exact .none
    | _ => exact .none
  body := by
    rintro v _ ⟨within, rfl⟩
    cases v with
    | reference _ body => exact .some ⟨within, rfl⟩
    | record r =>
      rw [Value.withRoot_record]
      exact .none
    | _ => exact .none
  kind := by
    rintro v _ ⟨_, rfl⟩
    exact .of_eq (Value.kind_withRoot l v).symm
  display := by
    rintro v _ ⟨_, rfl⟩
    exact .of_eq (congrArg String.ofList (Value.displayChars_withRoot l v).symm)
  toDouble := by
    rintro m n ⟨_, same⟩
    cases same
    rfl
  noValue b m n h _ := by
    obtain ⟨_, same⟩ := h
    cases same
    exact rfl
  size h := by
    rw [(rooted_object h).2, Value.membersWithRoot_eq_map, List.length_map]
  get key ms ns h := by
    obtain ⟨within, rfl⟩ := rooted_object h
    rw [Value.get?_withRoot]
    cases there : Keyed.get? key ms with
    | none => exact .none
    | some v => exact .some ⟨Value.holds_of_get? within there, rfl⟩
  null := rooted_refl trivial
  bool _ := rooted_refl trivial
  text _ := rooted_refl trivial
  double _ := rooted_refl trivial
  nat _ := rooted_refl trivial
  literal value := rooted_refl (Value.ofLiteral_referenceFree value)
  array := rooted_array
  reference i _ _ h := ⟨h.1, congrArg (Value.reference i) h.2⟩
  empty := rooted_refl trivial
  insert key v w ms ns value members := by
    obtain ⟨within, rfl⟩ := rooted_object members
    obtain ⟨fits, rfl⟩ := value
    refine ⟨Value.membersHold_insert key fits within, ?_⟩
    rw [Value.withRoot, Value.insert_withRoot]
  insertAll members entries := by
    obtain ⟨within, rfl⟩ := rooted_object members
    obtain ⟨new, rfl⟩ := rooted_object entries
    refine ⟨Value.membersHold_insertAll within new, ?_⟩
    rw [Value.withRoot, Value.insertAll_withRoot]

theorem rooted_equality : (rooted F l).Equality := by
  rintro v _ w _ ⟨_, rfl⟩ ⟨_, rfl⟩
  exact (Value.same_withRoot l v w).symm

theorem rooted_admits (b : Builtin) : (rooted F l).Admits b := by
  have kinds : (rooted F l).Kinds := by
    rintro v _ ⟨_, rfl⟩
    exact (Value.kind_withRoot l v).symm
  have texts : (rooted F l).Texts := by
    rintro v _ ⟨_, rfl⟩
    have same : v.text = (v.withRoot l).text :=
      congrArg (Except.map Json.compact) (Value.toJson_withRoot l v).symm
    rw [← same]
    cases v.text with
    | ok s => exact .ok rfl
    | error fault => exact .error rfl
  cases b with
  | type | toArray | toNumber => exact kinds
  | contains | containsAny => exact rooted_equality
  | toString => exact texts
  | fromItems => exact ⟨kinds, texts⟩
  | keys | values | items => exact rooted_ordered
  | slice =>
    rintro v _ ⟨_, rfl⟩
    have same : v.display = (v.withRoot l).display :=
      congrArg String.ofList (Value.displayChars_withRoot l v).symm
    rw [same]
    exact rfl
  | shuffle => exact Tolerance.draws_of_eq rfl
  | _ => trivial

theorem rooted_shared {ev : Evaluator} (closed : ev.resolver.Closed) :
    (rooted F l).Shared F ev ev where
  lawful := rooted_lawful
  equality _ := rooted_equality
  order _ := rooted_ordered
  field name v w h := by
    obtain ⟨within, rfl⟩ := h
    cases v with
    | object members =>
      exact rel_getD (rooted_lawful.get name ⟨within, rfl⟩) (rooted_refl trivial)
    | record r =>
      rw [Value.withRoot_of_referenceFree l within]
      dsimp only [Evaluator.field]
      cases found : ev.resolver name r with
      | none => exact rooted_refl trivial
      | some v => exact rooted_refl (closed within found)
    | _ => exact rooted_refl trivial

theorem rooted_all {es : List Expr} (h : Expr.AllWithin F es) :
    List.Forall₂ (rooted F l).expr es (Expr.allWithRoot l es) := by
  induction es with
  | nil => exact .nil
  | cons e rest ih => exact .cons ⟨h.1, rfl⟩ (ih h.2)

theorem rooted_entries {es : List (String × Expr)} (h : Expr.EntriesWithin F es) :
    List.Forall₂ (fun a b => a.1 = b.1 ∧ (rooted F l).expr a.2 b.2) es
      (Expr.entriesWithRoot l es) := by
  induction es with
  | nil => exact .nil
  | cons entry rest ih => exact .cons ⟨rfl, h.1, rfl⟩ (ih h.2)

theorem rooted_layer {e : Expr} (h : e.Within F) (other : e ≠ .root) :
    Expr.Layer F (rooted F l).expr e (e.withRoot l) := by
  cases e with
  | root => exact absurd rfl other
  | comparison => exact .comparison h.1 ⟨h.2.1, rfl⟩ ⟨h.2.2, rfl⟩
  | reference => exact .reference ⟨h, rfl⟩
  | call => exact .call h.1 (rooted_all h.2)
  | field name => exact .field name
  | filterProjection => exact .filterProjection ⟨h.1, rfl⟩ ⟨h.2.1, rfl⟩ ⟨h.2.2, rfl⟩
  | flatten => exact .flatten ⟨h, rfl⟩
  | identity => exact .identity
  | current => exact .current
  | index place => exact .index place
  | literal value => exact .literal value
  | selectHash => exact .selectHash (rooted_entries h)
  | selectList => exact .selectList (rooted_all h)
  | or => exact .or ⟨h.1, rfl⟩ ⟨h.2, rfl⟩
  | and => exact .and ⟨h.1, rfl⟩ ⟨h.2, rfl⟩
  | not => exact .not ⟨h, rfl⟩
  | pipe => exact .pipe (rooted_all h)
  | projection => exact .projection ⟨h.1, rfl⟩ ⟨h.2, rfl⟩
  | subexpression => exact .subexpression ⟨h.1, rfl⟩ ⟨h.2, rfl⟩
  | indexExpression => exact .indexExpression ⟨h.1, rfl⟩ ⟨h.2, rfl⟩
  | slice bounds => exact .slice bounds
  | valueProjection => exact .valueProjection h.1 ⟨h.2.1, rfl⟩ ⟨h.2.2, rfl⟩

end Rooted

end Correspondence

def Registry.uncalled (r : Registry) : Fragment := .calling fun name => r.get? name = none

namespace Evaluator

open Correspondence

variable {ev : Evaluator} {l : Literal}

theorem executeWithin_withRoot_simulates (closed : ev.resolver.Closed) (root : Value)
    (levels : Nat) {e f : Expr} {v w : Value}
    (expr : (rooted ev.registry.uncalled l).expr e f)
    (value : (rooted ev.registry.uncalled l).value v w) :
    Simulates .strict (rooted ev.registry.uncalled l).value
      (executeWithin ev (.ofLiteral l) levels e v) (executeWithin ev root levels f w) := by
  refine executeWithin_simulates (T := fun _ => .strict)
    (fun _ => Tolerance.opens_of_eq rfl _) (.inl rfl) ?_ (.inl rfl) 0 expr value
  rintro _ evaluate evaluate' evaluates e _ v w ⟨within, rfl⟩ value
  by_cases this : e = .root
  · -- at the root itself one side has the value, and the other side the constant
    subst this
    exact .pure (rooted_refl (Value.ofLiteral_referenceFree l))
  · refine (rooted_shared closed).step (fun root => absurd root this) evaluates ?_
      (rooted_layer within this) value
    intro name args args' absent related
    exact rooted_lawful.builtin rfl evaluates absent absent (fun b _ => rooted_admits b) related

/-- Evaluating an expression that calls built-in functions only, on a value without references, with a
constant as the root gives the same as writing the constant in the place of the root: the same failure,
or a result that differs at most in the expressions that its references carry. -/
theorem execute_withRoot (closed : ev.resolver.Closed) (l : Literal) {e : Expr}
    (builtin : e.Within ev.registry.uncalled) {v : Value} (free : v.ReferenceFree) (root : Value)
    (run : Run) :
    ev.execute (e.withRoot l) v root run =
      (((ev.execute e v (.ofLiteral l)) run).1.map (Value.withRoot l),
        ((ev.execute e v (.ofLiteral l)) run).2) := by
  have simulates := executeWithin_withRoot_simulates (l := l) closed root
    (ev.maxDepth - run.depth) ⟨builtin, rfl⟩ (rooted_refl free)
  exact simulates.eq_map (fun _ _ related => related.2) run

/-- `map(&$.key, @)` -/
def keyOfRoot : Expr :=
  .call "map" [.reference (.subexpression .root (.field "key")), .current]

theorem execute_keyOfRoot :
    (Evaluator.execute {} keyOfRoot (.array [.null, .string "s"])
      (.ofLiteral (.object [("key", .bool true)])) (.seeded 0)).1 =
        .ok (.array [.bool true, .bool true]) ∧
    Evaluator.execute {} (keyOfRoot.withRoot (.object [("key", .bool true)]))
        (.array [.null, .string "s"]) .null (.seeded 0) =
      ((Evaluator.execute {} keyOfRoot (.array [.null, .string "s"])
          (.ofLiteral (.object [("key", .bool true)])) (.seeded 0)).1.map
            (Value.withRoot (.object [("key", .bool true)])),
        (Evaluator.execute {} keyOfRoot (.array [.null, .string "s"])
          (.ofLiteral (.object [("key", .bool true)])) (.seeded 0)).2) := by
  refine ⟨?_, execute_withRoot Resolver.byTag_closed _ ?_ ?_ _ _⟩
  · -- values cannot be decided to be equal, but what their parts are can
    have both : (((Evaluator.execute {} keyOfRoot (.array [.null, .string "s"])
        (.ofLiteral (.object [("key", .bool true)])) (.seeded 0)).1.toOption.bind Value.array?).map
          (List.map Value.bool?)) = some [some true, some true] := by
      decide +kernel
    generalize Prod.fst _ = outcome at both ⊢
    obtain _ | _ | _ | _ | _ | items | _ | _ | _ := outcome <;> try cases both
    obtain _ | ⟨_ | _ | _ | _ | _ | _ | _ | _, _ | ⟨_ | _ | _ | _ | _ | _ | _ | _, _ | _⟩⟩ := items <;>
      cases both
    rfl
  · exact ⟨rfl, ⟨trivial, trivial⟩, trivial, trivial⟩
  · exact ⟨trivial, trivial, trivial⟩

end Evaluator

end JsonQuery

import JsonQuery.Proofs.Equality
import JsonQuery.Proofs.Simulation.Restriction

/-!
Values without records that are alike up to a leeway: the spelling of their numbers may differ in ways that
arithmetic and equality do not notice, and the keys of their objects may stand in another order. Evaluation
keeps values alike, and functions that could show the difference are told from those that cannot.
-/
namespace JsonQuery

open Eval

/-- What may differ between values that are alike. -/
structure Leeway where
  number : Number → Number → Prop
  ordered : Prop
  refl : ∀ n, number n n
  toDouble : ∀ {m n}, number m n → m.toDouble? = n.toDouble?
  same : ∀ {m m' n n'}, number m m' → number n n' → m.same n = m'.same n'

namespace Value

/-- The same value up to a leeway; what stands under each key of an object stands under it on both sides. -/
inductive Alike (A : Leeway) : Value → Value → Prop
  | null : Alike A .null .null
  | bool (b) : Alike A (.bool b) (.bool b)
  | number {m n} (numbers : A.number m n) : Alike A (.number m) (.number n)
  | string (s) : Alike A (.string s) (.string s)
  | array {vs ws} (items : List.Forall₂ (Alike A) vs ws) : Alike A (.array vs) (.array ws)
  | object {ms ns} (order : A.ordered → Keyed.keys ms = Keyed.keys ns)
    (members : ∀ key, List.Forall₂ (Alike A) (Keyed.under key ms) (Keyed.under key ns)) :
    Alike A (.object ms) (.object ns)
  | reference (i e) : Alike A (.reference i e) (.reference i e)

namespace Alike

variable {A : Leeway} {v w : Value}

/-- Objects with distinct keys are alike when each key is there on both sides, with values that are
alike. -/
theorem object_iff {ms ns : List (String × Value)} (left : (Keyed.keys ms).Nodup)
    (right : (Keyed.keys ns).Nodup) : Alike A (.object ms) (.object ns) ↔
      (A.ordered → Keyed.keys ms = Keyed.keys ns) ∧
        ∀ key, Option.Rel (Alike A) (Keyed.get? key ms) (Keyed.get? key ns) := by
  constructor
  · rintro (_ | _ | _ | _ | _ | ⟨order, members⟩)
    exact ⟨order, fun key => (Keyed.forall₂_under_iff left right key).1 (members key)⟩
  · rintro ⟨order, members⟩
    exact .object order fun key => (Keyed.forall₂_under_iff left right key).2 (members key)

theorem refl {F : Fragment} (h : v.Holds (.recordFree F)) : Alike A v v := by
  induction v using induction with
  | null => exact .null
  | bool b => exact .bool b
  | number n => exact .number (A.refl n)
  | string s => exact .string s
  | array items ih =>
    exact .array (List.forall₂_same.2 fun v there => ih v there (itemsHold_iff.1 h v there))
  | object members ih =>
    refine .object (fun _ => rfl) fun key => List.forall₂_same.2 fun v there => ?_
    have member := Keyed.mem_under.1 there
    exact ih _ member (membersHold_iff.1 h _ member)
  | reference i e => exact .reference i e
  | record => exact h.elim

theorem exists_of_mem {ms ns : List (String × Value)}
    (h : ∀ key, List.Forall₂ (Alike A) (Keyed.under key ms) (Keyed.under key ns)) {m : String × Value}
    (there : m ∈ ms) : ∃ w, (m.1, w) ∈ ns ∧ Alike A m.2 w := by
  obtain ⟨w, other, alike⟩ := exists_rel_of_mem (h m.1) (Keyed.mem_under.2 there)
  exact ⟨w, Keyed.mem_under.1 other, alike⟩

theorem exists_of_part {u : Value} (part : Part u v) (h : Alike A v w) : ∃ u', Alike A u u' := by
  induction part generalizing w with
  | self => exact ⟨w, h⟩
  | item there _ ih =>
    cases h with
    | array items =>
      obtain ⟨w, _, alike⟩ := exists_rel_of_mem items there
      exact ih alike
  | member there _ ih =>
    cases h with
    | object _ members =>
      obtain ⟨w, _, alike⟩ := exists_of_mem members there
      exact ih alike
  | field | element => cases h

theorem holds {F : Fragment} (h : Alike A v w) (references : v.Carries F) :
    v.Holds (.recordFree F) := by
  refine holds_of_parts (fun _ _ => trivial) references fun r part => ?_
  obtain ⟨_, impossible⟩ := h.exists_of_part part
  cases impossible

theorem sameItems_eq {vs vs' ws ws' : List Value} (left : List.Forall₂ (Alike A) vs vs')
    (right : List.Forall₂ (Alike A) ws ws')
    (each : ∀ v ∈ vs, ∀ {v' w w'}, Alike A v v' → Alike A w w' → v.same w = v'.same w') :
    sameItems vs ws = sameItems vs' ws' := by
  induction left generalizing ws ws' with
  | nil => cases right <;> rfl
  | cons head _ ih =>
    cases right with
    | nil => rfl
    | cons head' rest =>
      rw [List.forall_mem_cons] at each
      rw [sameItems, sameItems, each.1 head head', ih rest each.2]

theorem sameMembers_eq {ms ms' ns ns' : List (String × Value)}
    (left : ∀ key, List.Forall₂ (Alike A) (Keyed.under key ms) (Keyed.under key ms'))
    (right : ∀ key, List.Forall₂ (Alike A) (Keyed.under key ns) (Keyed.under key ns'))
    (each : ∀ m ∈ ms, ∀ {v' w w'}, Alike A m.2 v' → Alike A w w' → m.2.same w = v'.same w') :
    sameMembers ms ns = sameMembers ms' ns' := by
  rw [Bool.eq_iff_iff, sameMembers_iff, sameMembers_iff]
  constructor
  · rintro h ⟨key, v'⟩ there
    obtain ⟨v, other, alike⟩ := exists_rel_of_mem (left key).flip (Keyed.mem_under.2 there)
    have member := Keyed.mem_under.1 other
    obtain ⟨w, found, same⟩ := h _ member
    rcases rel_cases (Keyed.get?_rel key (right key)) with ⟨none, _⟩ | ⟨_, w', here, found', value⟩
    · cases found.symm.trans none
    · cases found.symm.trans here
      exact ⟨w', found', (each _ member alike value).symm.trans same⟩
  · rintro h ⟨key, v⟩ there
    obtain ⟨v', other, alike⟩ := exists_of_mem left there
    obtain ⟨w', found', same⟩ := h _ other
    rcases rel_cases (Keyed.get?_rel key (right key)) with ⟨_, none⟩ | ⟨w, _, found, here, value⟩
    · cases found'.symm.trans none
    · cases found'.symm.trans here
      exact ⟨w, found, (each _ there alike value).trans same⟩

theorem same_eq {v v' w w' : Value} (left : Alike A v v') (right : Alike A w w') :
    v.same w = v'.same w' := by
  induction v using induction generalizing v' w w' with
  | null | bool | string | reference => cases left; cases right <;> rfl
  | number n =>
    cases left with
    | number left =>
      cases right with
      | number right => exact A.same left right
      | _ => rfl
  | array vs ih =>
    cases left with
    | array left =>
      cases right with
      | array right => exact sameItems_eq left right ih
      | _ => rfl
  | object ms ih =>
    cases left with
    | object _ left =>
      cases right with
      | object _ right =>
        rw [same, same, Keyed.length_eq_of_under left, Keyed.length_eq_of_under right,
          sameMembers_eq left right ih]
      | _ => rfl
  | record => cases left

theorem toJson_eq (ordered : A.ordered) (written : ∀ {m n}, A.number m n → m.toLiteral = n.toLiteral)
    (h : Alike A v w) : v.toJson = w.toJson := by
  induction v using induction generalizing w with
  | null | bool | string | reference => cases h; rfl
  | number =>
    cases h with
    | number numbers => rw [toJson, toJson, Number.toJson, Number.toJson, written numbers]
  | array vs ih =>
    cases h with
    | array items =>
      rw [toJson, toJson]
      suffices itemsToJson vs = itemsToJson _ by rw [this]
      induction items with
      | nil => rfl
      | cons head _ next =>
        rw [List.forall_mem_cons] at ih
        rw [itemsToJson, itemsToJson, ih.1 head, next ih.2]
  | object ms ih =>
    cases h with
    | object order members =>
      have listed := Keyed.forall₂_of_under (order ordered) members
      clear order members
      rw [toJson, toJson]
      suffices membersToJson ms = membersToJson _ by rw [this]
      induction listed with
      | nil => rfl
      | @cons m n _ _ head _ next =>
        obtain ⟨key, v⟩ := m
        obtain ⟨_, w⟩ := n
        obtain ⟨rfl, value⟩ := head
        rw [List.forall_mem_cons] at ih
        rw [membersToJson, membersToJson, ih.1 value, next ih.2]
  | record => cases h

theorem text_eq (ordered : A.ordered) (written : ∀ {m n}, A.number m n → m.toLiteral = n.toLiteral)
    (h : Alike A v w) : v.text = w.text :=
  congrArg (Except.map Json.compact) (h.toJson_eq ordered written)

end Alike

end Value

namespace Correspondence

variable {A : Leeway}

def alike (A : Leeway) : Correspondence := ⟨.byCategory, Eq, Value.Alike A⟩

theorem alike_object_iff {ms ns : List (String × Value)} : (alike A).object ms ns ↔
    (A.ordered → Keyed.keys ms = Keyed.keys ns) ∧
      ∀ key, List.Forall₂ (Value.Alike A) (Keyed.under key ms) (Keyed.under key ns) := by
  constructor
  · rintro (_ | _ | _ | _ | _ | ⟨order, members⟩)
    exact ⟨order, members⟩
  · exact fun h => .object h.1 h.2

theorem alike_kinds : (alike A).Kinds := by
  intro v w h
  cases h <;> rfl

theorem alike_equality : (alike A).Equality := fun _ _ _ _ left right => left.same_eq right

theorem alike_ordered (ordered : A.ordered) : (alike A).Ordered := by
  intro ms ns h
  obtain ⟨order, members⟩ := alike_object_iff.1 h
  exact Keyed.forall₂_of_under (order ordered) members

theorem alike_texts (ordered : A.ordered)
    (written : ∀ {m n}, A.number m n → m.toLiteral = n.toLiteral) : (alike A).Texts :=
  texts_byCategory rfl fun h => (Value.Alike.text_eq ordered written h).symm

theorem alike_lawful : (alike A).Lawful where
  isNull h := by cases h <;> rfl
  isFalseLike {v w} h := by
    cases h with
    | array items => cases items <;> rfl
    | @object ms ns _ members =>
      have size := Keyed.length_eq_of_under members
      cases ms <;> cases ns <;> first | rfl | cases size
    | _ => rfl
  string h := by cases h <;> rfl
  coerce h := by
    cases h with
    | number numbers => exact A.toDouble numbers
    | _ => rfl
  number h := by
    cases h with
    | number numbers => exact .some (.number numbers)
    | _ => exact .none
  sequence h := by
    cases h with
    | array items => exact .some items
    | _ => exact .none
  object h := by
    cases h with
    | object order members => exact .some (.object order members)
    | _ => exact .none
  body h := by
    cases h with
    | reference => exact .some rfl
    | _ => exact .none
  kind _ := Tolerance.byCategory_shows _ _
  display _ := Tolerance.byCategory_shows _ _
  toDouble := by
    rintro m n (_ | _ | numbers)
    exact A.toDouble numbers
  noValue _ _ _ _ _ := rfl
  size h := Keyed.length_eq_of_under (alike_object_iff.1 h).2
  get key _ _ h := Keyed.get?_rel key ((alike_object_iff.1 h).2 key)
  null := .null
  bool b := .bool b
  text s := .string s
  double d := .number (A.refl (.double d))
  nat n := .number (A.refl (.ofInt n))
  literal l := .refl ((Content.recordFree_closed .all .byTag).literal l)
  array h := .array h
  reference i e f same := by
    cases same
    exact .reference i e
  empty := .object (fun _ => rfl) fun _ => .nil
  insert key v w ms ns value h := by
    obtain ⟨order, members⟩ := alike_object_iff.1 h
    refine .object (fun ordered => ?_) (Keyed.under_insert_rel key value members)
    rw [Keyed.keys_insert, Keyed.keys_insert, order ordered]
  insertAll h h' := by
    obtain ⟨order, members⟩ := alike_object_iff.1 h
    obtain ⟨order', entries⟩ := alike_object_iff.1 h'
    refine .object (fun ordered => ?_) (Keyed.under_insertAll_rel members entries)
    exact Keyed.keys_insertAll (order ordered) (order' ordered)

end Correspondence

namespace Evaluator

open Correspondence

variable {A : Leeway} {F : Fragment} {ev : Evaluator}

theorem suits_alike (projection : F.valueProjection → A.ordered)
    (admits : ∀ b : Builtin, F.function b.name → (alike A).Admits b)
    (builtin : ∀ name, F.function name → ev.registry.get? name = none) : ev.Suits (alike A) F where
  tolerance := rfl
  expr := rfl
  shared := {
    lawful := alike_lawful
    equality _ := alike_equality
    order allowed := alike_ordered (projection allowed)
    field := by
      intro name v w h
      cases h with
      | object _ members => exact rel_getD (Keyed.get?_rel name (members name)) .null
      | _ => exact .null }
  admits := admits
  builtin := builtin

theorem Suits.execute_alike (suits : ev.Suits (alike A) F) {e : Expr} (within : e.Within F)
    {v w root root' : Value} (values : v.Alike A w) (roots : root.Alike A root')
    (references : v.Carries F ∧ root.Carries F) (run : Run) :
    Corresponds .byCategory (Value.Alike A) (ev.execute e v root run).1 (ev.execute e w root' run).1 :=
  suits.execute (Content.recordFree_closed F ev.resolver) (fun _ => Iff.rfl) within
    ⟨values.holds references.1, values⟩ ⟨roots.holds references.2, roots⟩ run

end Evaluator

end JsonQuery

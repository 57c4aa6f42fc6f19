import JsonQuery.Proofs.Keyed
import JsonQuery.Proofs.Simulation.Builtin

/-!
What values hold. A content says which numbers, references and records there may be in a value. If the
values that evaluation builds from those of a content are of the content again, each value of the content
corresponds to itself, and no evaluation leads out of it.
-/
namespace JsonQuery

structure Content where
  number : Number → Prop
  body : Expr → Prop
  record : Record Value → Prop

namespace Value

mutual

/-- Whether everything in a value is of a content; records are taken as a whole. -/
def Holds (K : Content) : Value → Prop
  | .null | .bool _ | .string _ => True
  | .number n => K.number n
  | .array items => ItemsHold K items
  | .object members => MembersHold K members
  | .reference _ body => K.body body
  | .record r => K.record r

def ItemsHold (K : Content) : List Value → Prop
  | [] => True
  | item :: rest => item.Holds K ∧ ItemsHold K rest

def MembersHold (K : Content) : List (String × Value) → Prop
  | [] => True
  | (_, value) :: rest => value.Holds K ∧ MembersHold K rest

end

section Holds

variable {K : Content}

theorem itemsHold_iff {items : List Value} : ItemsHold K items ↔ ∀ item ∈ items, item.Holds K := by
  induction items with
  | nil => simp [ItemsHold]
  | cons item rest ih => simp [ItemsHold, ih]

theorem membersHold_iff {members : List (String × Value)} :
    MembersHold K members ↔ ∀ m ∈ members, m.2.Holds K := by
  induction members with
  | nil => simp [MembersHold]
  | cons member rest ih => simp [MembersHold, ih]

theorem holds_of_get? {key : String} {v : Value} {members : List (String × Value)}
    (h : MembersHold K members) (there : Keyed.get? key members = some v) : v.Holds K :=
  membersHold_iff.1 h _ (Keyed.mem_of_get? there)

theorem membersHold_insert (key : String) {v : Value} {members : List (String × Value)}
    (value : v.Holds K) (h : MembersHold K members) :
    MembersHold K (Keyed.insert key v members) := by
  rw [membersHold_iff] at h ⊢
  intro m there
  rcases Keyed.mem_insert there with rfl | there
  · exact value
  · exact h m there

theorem membersHold_insertAll {members entries : List (String × Value)}
    (h : MembersHold K members) (new : MembersHold K entries) :
    MembersHold K (Keyed.insertAll members entries) := by
  rw [membersHold_iff] at h new ⊢
  exact fun m there => (Keyed.mem_insertAll there).elim (h m) (new m)

end Holds

end Value

/-- Whether evaluation finds and makes nothing in values of a content that is not of it. -/
structure Content.Closed (K : Content) (resolver : Resolver) : Prop where
  double (d : Double) : K.number (.double d)
  integer (n : Int) : K.number (.ofInt n)
  elements {r items} : K.record r → r.elements = some items → Value.ItemsHold K items
  field {r name v} : K.record r → resolver name r = some v → v.Holds K

namespace Content

def all : Content := ⟨fun _ => True, fun _ => True, fun _ => True⟩

end Content

namespace Value

mutual

theorem holds_all : ∀ v : Value, v.Holds .all
  | .null | .bool _ | .number _ | .string _ | .reference .. | .record _ => trivial
  | .array items => itemsHold_all items
  | .object members => membersHold_all members

theorem itemsHold_all : ∀ items : List Value, ItemsHold .all items
  | [] => trivial
  | item :: rest => ⟨holds_all item, itemsHold_all rest⟩

theorem membersHold_all : ∀ members : List (String × Value), MembersHold .all members
  | [] => trivial
  | (_, value) :: rest => ⟨holds_all value, membersHold_all rest⟩

end

end Value

namespace Content.Closed

variable {K : Content} {resolver : Resolver}

theorem all (resolver : Resolver) : Content.all.Closed resolver where
  double _ := trivial
  integer _ := trivial
  elements _ _ := Value.itemsHold_all _
  field _ _ := Value.holds_all _

mutual

theorem literal (closed : K.Closed resolver) : ∀ l : Literal, (Value.ofLiteral l).Holds K
  | .null | .bool _ | .string _ => trivial
  | .integer n => closed.integer n
  | .double d => closed.double d
  | .array items => closed.literals items
  | .object members => closed.literalMembers members

theorem literals (closed : K.Closed resolver) :
    ∀ items : List Literal, Value.ItemsHold K (Value.ofLiterals items)
  | [] => trivial
  | item :: rest => ⟨closed.literal item, closed.literals rest⟩

theorem literalMembers (closed : K.Closed resolver) :
    ∀ members : List (String × Literal), Value.MembersHold K (Value.ofLiteralMembers members)
  | [] => trivial
  | (_, value) :: rest => ⟨closed.literal value, closed.literalMembers rest⟩

end

end Content.Closed

namespace Correspondence

def diagonal (T : Tolerance) (K : Content) : Correspondence :=
  ⟨T, fun e f => K.body e ∧ e = f, fun v w => v.Holds K ∧ v = w⟩

section Diagonal

variable {T : Tolerance} {K : Content} {resolver : Resolver}

theorem diagonal_items_iff {vs ws : List Value} :
    List.Forall₂ (diagonal T K).value vs ws ↔ Value.ItemsHold K vs ∧ vs = ws := by
  rw [Value.itemsHold_iff, ← List.forall₂_eq_eq_eq]
  exact List.forall₂_and_left vs ws

theorem diagonal_items {items : List Value} (h : Value.ItemsHold K items) :
    List.Forall₂ (diagonal T K).value items items := diagonal_items_iff.2 ⟨h, rfl⟩

theorem diagonal_object {ms ns : List (String × Value)} (h : (diagonal T K).object ms ns) :
    Value.MembersHold K ms ∧ ms = ns := ⟨h.1, Value.object.inj h.2⟩

/-- A number without a numeric value is only of a content if the fault that shows it is alike to
itself. -/
theorem diagonal_lawful (closed : K.Closed resolver)
    (noValue : ∀ (b : Builtin) (n : Number), K.number n → n.toDouble? = none →
      T.alike (.number (.noValue b.name (String.ofList n.display)))
        (.number (.noValue b.name (String.ofList n.display)))) :
    (diagonal T K).Lawful where
  isNull h := congrArg _ h.2
  isFalseLike h := congrArg _ h.2
  string h := congrArg _ h.2
  coerce h := congrArg _ h.2
  number := by
    rintro v _ ⟨holds, rfl⟩
    cases v with
    | number n => exact .some ⟨holds, rfl⟩
    | _ => exact .none
  sequence := by
    rintro v _ ⟨holds, rfl⟩
    cases v with
    | array items => exact .some (diagonal_items holds)
    | record r =>
      dsimp only [Value.sequence?]
      cases elements : r.elements with
      | none => exact .none
      | some items => exact .some (diagonal_items (closed.elements holds elements))
    | _ => exact .none
  object := by
    rintro v _ ⟨holds, rfl⟩
    cases v with
    | object members => exact .some ⟨holds, rfl⟩
    | _ => exact .none
  body := by
    rintro v _ ⟨holds, rfl⟩
    cases v with
    | reference _ body => exact .some ⟨holds, rfl⟩
    | _ => exact .none
  kind h := .of_eq (congrArg _ h.2)
  display h := .of_eq (congrArg _ h.2)
  toDouble h := congrArg _ (Value.number.inj h.2)
  noValue b m n h none := by
    obtain ⟨holds, same⟩ := h
    cases same
    exact noValue b m holds none
  size h := congrArg _ (diagonal_object h).2
  get key ms ns h := by
    obtain ⟨holds, rfl⟩ := diagonal_object h
    cases there : Keyed.get? key ms with
    | none => exact .none
    | some v => exact .some ⟨Value.holds_of_get? holds there, rfl⟩
  null := ⟨trivial, rfl⟩
  bool _ := ⟨trivial, rfl⟩
  text _ := ⟨trivial, rfl⟩
  double d := ⟨closed.double d, rfl⟩
  nat n := ⟨closed.integer n, rfl⟩
  literal l := ⟨closed.literal l, rfl⟩
  array h := by
    obtain ⟨hold, same⟩ := diagonal_items_iff.1 h
    exact ⟨hold, congrArg _ same⟩
  reference i _ _ h := ⟨h.1, congrArg (Value.reference i) h.2⟩
  empty := ⟨trivial, rfl⟩
  insert key v w ms ns value members := by
    obtain ⟨holds, rfl⟩ := diagonal_object members
    obtain ⟨fits, rfl⟩ := value
    exact ⟨Value.membersHold_insert key fits holds, rfl⟩
  insertAll members entries := by
    obtain ⟨holds, rfl⟩ := diagonal_object members
    obtain ⟨new, rfl⟩ := diagonal_object entries
    exact ⟨Value.membersHold_insertAll holds new, rfl⟩

theorem diagonal_equality : (diagonal T K).Equality := by
  rintro v _ w _ ⟨_, rfl⟩ ⟨_, rfl⟩
  rfl

theorem diagonal_ordered : (diagonal T K).Ordered := by
  intro ms ns h
  obtain ⟨holds, rfl⟩ := diagonal_object h
  exact List.forall₂_same.2 fun m there => ⟨rfl, Value.membersHold_iff.1 holds m there, rfl⟩

theorem diagonal_admits (b : Builtin)
    (texts : ∀ v : Value, v.Holds K → ∀ f, v.text = .error f → T.alike f f)
    (bounds : b = .slice → ∀ v : Value,
      T.alike (.number (.noBound v.display)) (.number (.noBound v.display)))
    (draws : b = .shuffle → T.Draws) : (diagonal T K).Admits b := by
  have kinds : (diagonal T K).Kinds := fun _ _ h => congrArg _ h.2
  have texts : (diagonal T K).Texts := by
    rintro v _ ⟨holds, rfl⟩
    cases written : v.text with
    | ok s => exact .ok rfl
    | error fault => exact .error (texts v holds fault written)
  cases b with
  | type | toArray | toNumber => exact kinds
  | contains | containsAny => exact diagonal_equality
  | toString => exact texts
  | fromItems => exact ⟨kinds, texts⟩
  | keys | values | items => exact diagonal_ordered
  | slice =>
    rintro v _ ⟨_, rfl⟩
    exact bounds rfl v
  | shuffle => exact draws rfl
  | _ => trivial

theorem diagonal_shared {F : Fragment} (lawful : (diagonal T K).Lawful) {ev ev' : Evaluator}
    (closed : K.Closed ev.resolver) (resolver : ev.resolver = ev'.resolver) :
    (diagonal T K).Shared F ev ev' where
  lawful := lawful
  equality _ := diagonal_equality
  order _ := diagonal_ordered
  field name v w h := by
    obtain ⟨holds, rfl⟩ := h
    rw [← resolver]
    refine ⟨?_, rfl⟩
    cases v with
    | object members =>
      dsimp only [Evaluator.field]
      cases there : Keyed.get? name members with
      | none => trivial
      | some v => exact Value.holds_of_get? holds there
    | record r =>
      dsimp only [Evaluator.field]
      cases found : ev.resolver name r with
      | none => trivial
      | some v => exact closed.field holds found
    | _ => trivial

end Diagonal

end Correspondence

end JsonQuery

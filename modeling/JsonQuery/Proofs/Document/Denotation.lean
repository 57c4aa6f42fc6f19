import JsonQuery.Proofs.Document.Decoded
import JsonQuery.Proofs.Number.Exact

/-!
What documents say. A document denotes a value in which numbers are rationals and objects are maps, so
neither the spelling of a number nor the order of keys is left in it. Equality of documents is equality
of what they denote.
-/
namespace JsonQuery

inductive Denotation where
  | null
  | bool (b : Bool)
  | number (x : ℚ)
  | string (s : String)
  | array (items : List Denotation)
  | object (members : String → Option Denotation)

def Denotation.kind : Denotation → Kind
  | .null => .null
  | .bool _ => .boolean
  | .number _ => .number
  | .string _ => .string
  | .array _ => .array
  | .object _ => .object

namespace Value

mutual

/-- What a value of JSON says; nothing is said by references, by records, and by numbers that are none. -/
def denotation? : Value → Option Denotation
  | .null => some .null
  | .bool b => some (.bool b)
  | .number n => n.rational?.map .number
  | .string s => some (.string s)
  | .array items => (itemsDenotation? items).map .array
  | .object members => (membersDenotation? members).map fun ds => .object fun key => Keyed.get? key ds
  | .reference .. | .record _ => none

def itemsDenotation? : List Value → Option (List Denotation)
  | [] => some []
  | item :: rest => return (← item.denotation?) :: (← itemsDenotation? rest)

def membersDenotation? : List (String × Value) → Option (List (String × Denotation))
  | [] => some []
  | (key, value) :: rest => return (key, ← value.denotation?) :: (← membersDenotation? rest)

end

def Denotes (v : Value) (d : Denotation) : Prop := v.denotation? = some d

theorem itemsDenotation?_eq_some {items : List Value} {ds : List Denotation}
    (h : itemsDenotation? items = some ds) : List.Forall₂ Denotes items ds := by
  induction items generalizing ds with
  | nil =>
    cases h
    exact .nil
  | cons item rest ih =>
    obtain ⟨d, head, more⟩ := Option.bind_eq_some_iff.1 h
    obtain ⟨ds, tail, same⟩ := Option.bind_eq_some_iff.1 more
    cases same
    exact .cons head (ih tail)

theorem membersDenotation?_eq_some {members : List (String × Value)} {ds : List (String × Denotation)}
    (h : membersDenotation? members = some ds) (key : String) :
    Option.Rel Denotes (Keyed.get? key members) (Keyed.get? key ds) := by
  induction members generalizing ds with
  | nil =>
    cases h
    exact .none
  | cons member rest ih =>
    obtain ⟨d, head, more⟩ := Option.bind_eq_some_iff.1 h
    obtain ⟨ds, tail, same⟩ := Option.bind_eq_some_iff.1 more
    cases same
    rw [Keyed.get?, Keyed.get?]
    split
    · exact .some head
    · exact ih tail

theorem kind_of_denotes {v : Value} {d : Denotation} (h : v.Denotes d) : d.kind = v.kind := by
  unfold Denotes at h
  cases v with
  | null | bool | string => cases h; rfl
  | number | array | object =>
    obtain ⟨_, _, rfl⟩ := Option.map_eq_some_iff.1 h
    rfl
  | reference | record => cases h

theorem same_iff_of_kind_ne {v w : Value} {d e : Denotation} (left : v.Denotes d) (right : w.Denotes e)
    (kinds : v.kind ≠ w.kind) : v.same w = true ↔ d = e := by
  refine iff_of_false (fun same => kinds (kind_of_same same)) ?_
  rintro rfl
  exact kinds ((kind_of_denotes left).symm.trans (kind_of_denotes right))

theorem exists_itemsDenotation? {items : List Value} (h : ∀ v ∈ items, ∃ d, v.Denotes d) :
    ∃ ds, itemsDenotation? items = some ds := by
  induction items with
  | nil => exact ⟨[], rfl⟩
  | cons item rest ih =>
    rw [List.forall_mem_cons] at h
    obtain ⟨⟨d, head⟩, more⟩ := h
    obtain ⟨ds, tail⟩ := ih more
    exact ⟨d :: ds, by rw [itemsDenotation?, head, tail]; rfl⟩

theorem exists_membersDenotation? {members : List (String × Value)}
    (h : ∀ m ∈ members, ∃ d, m.2.Denotes d) : ∃ ds, membersDenotation? members = some ds := by
  induction members with
  | nil => exact ⟨[], rfl⟩
  | cons member rest ih =>
    rw [List.forall_mem_cons] at h
    obtain ⟨⟨d, head⟩, more⟩ := h
    obtain ⟨ds, tail⟩ := ih more
    exact ⟨(member.1, d) :: ds, by rw [membersDenotation?, head, tail]; rfl⟩

theorem forall₂_same_iff {vs ws : List Value} {ds es : List Denotation} (left : List.Forall₂ Denotes vs ds)
    (right : List.Forall₂ Denotes ws es)
    (each : ∀ v ∈ vs, ∀ w ∈ ws, ∀ {d e}, v.Denotes d → w.Denotes e → (v.same w = true ↔ d = e)) :
    List.Forall₂ (fun v w => v.same w = true) vs ws ↔ ds = es := by
  induction left generalizing ws es with
  | nil => cases right <;> simp
  | cons head _ ih =>
    cases right with
    | nil => simp
    | cons head' rest =>
      rw [List.forall₂_cons, List.cons.injEq, each _ (.head _) _ (.head _) head head',
        ih rest fun v there w there' => each v (.tail _ there) w (.tail _ there')]

theorem rel_same_iff {x y : Option Value} {d e : Option Denotation} (left : Option.Rel Denotes x d)
    (right : Option.Rel Denotes y e)
    (each : ∀ v, x = some v → ∀ w, y = some w → ∀ {d e}, v.Denotes d → w.Denotes e →
      (v.same w = true ↔ d = e)) :
    Option.Rel (fun v w => v.same w = true) x y ↔ d = e := by
  cases left with
  | none => cases right <;> simp
  | some left =>
    cases right with
    | none => simp
    | some right => rw [Option.rel_some_some, each _ rfl _ rfl left right, Option.some_inj]

/-- The values of documents: finite numbers, distinct keys, and neither references nor records. -/
inductive Decoded : Value → Prop
  | null : Decoded .null
  | bool (b) : Decoded (.bool b)
  | number {n} (number : n.Decoded) : Decoded (.number n)
  | string (s) : Decoded (.string s)
  | array {items} (each : ∀ v ∈ items, Decoded v) : Decoded (.array items)
  | object {members} (distinct : (Keyed.keys members).Nodup) (each : ∀ m ∈ members, Decoded m.2) :
    Decoded (.object members)

theorem decoded_ofLiteral {l : Literal} (h : l.WellFormed) : (ofLiteral l).Decoded := by
  induction l using Literal.induction with
  | null => exact .null
  | bool b => exact .bool b
  | integer n => exact .number (Number.decoded_ofInt h)
  | double d => exact .number (.double h)
  | string s => exact .string s
  | array items ih =>
    rw [ofLiteral, Literal.ofLiterals_eq_map]
    refine .array (List.forall_mem_map.2 fun l there => ?_)
    exact ih l there (Literal.itemsWellFormed_iff.1 h l there)
  | object members ih =>
    rw [ofLiteral, Literal.ofLiteralMembers_eq_map]
    refine .object (by rw [Keyed.keys_map]; exact h.1) (List.forall_mem_map.2 fun m there => ?_)
    exact ih m there (Literal.membersWellFormed_iff.1 h.2 m there)

namespace Decoded

theorem denotes {v : Value} (h : v.Decoded) : ∃ d, v.Denotes d := by
  induction h with
  | null => exact ⟨.null, rfl⟩
  | bool b => exact ⟨.bool b, rfl⟩
  | string s => exact ⟨.string s, rfl⟩
  | number number =>
    obtain ⟨x, value⟩ := Option.isSome_iff_exists.1 number.rational?_isSome
    exact ⟨.number x, by rw [Denotes, denotation?, value]; rfl⟩
  | array each ih =>
    obtain ⟨ds, items⟩ := exists_itemsDenotation? ih
    exact ⟨.array ds, by rw [Denotes, denotation?, items]; rfl⟩
  | object _ each ih =>
    obtain ⟨ds, members⟩ := exists_membersDenotation? ih
    exact ⟨_, by rw [Denotes, denotation?, members]; rfl⟩

/-- Equality of documents is equality of what they denote. -/
theorem same_iff {v w : Value} (hv : v.Decoded) (hw : w.Decoded) {d e : Denotation} (left : v.Denotes d)
    (right : w.Denotes e) : v.same w = true ↔ d = e := by
  induction hv generalizing w d e with
  | null =>
    cases hw with
    | null => cases left; cases right; exact iff_of_true rfl rfl
    | _ => exact same_iff_of_kind_ne left right (by simp [kind])
  | bool b =>
    cases hw with
    | bool b' => cases left; cases right; simp [same]
    | _ => exact same_iff_of_kind_ne left right (by simp [kind])
  | string s =>
    cases hw with
    | string t => cases left; cases right; simp [same]
    | _ => exact same_iff_of_kind_ne left right (by simp [kind])
  | number number =>
    cases hw with
    | number number' =>
      obtain ⟨x, value, rfl⟩ := Option.map_eq_some_iff.1 left
      obtain ⟨y, value', rfl⟩ := Option.map_eq_some_iff.1 right
      rw [same, Number.same_iff_rational number number', value, value', Option.some_inj,
        Denotation.number.injEq]
    | _ => exact same_iff_of_kind_ne left right (by simp [kind])
  | array each ih =>
    cases hw with
    | array each' =>
      obtain ⟨ds, items, rfl⟩ := Option.map_eq_some_iff.1 left
      obtain ⟨es, items', rfl⟩ := Option.map_eq_some_iff.1 right
      rw [same, sameItems_iff, Denotation.array.injEq]
      exact forall₂_same_iff (itemsDenotation?_eq_some items) (itemsDenotation?_eq_some items')
        fun v there w there' => ih v there (each' w there')
    | _ => exact same_iff_of_kind_ne left right (by simp [kind])
  | object distinct each ih =>
    cases hw with
    | object distinct' each' =>
      obtain ⟨ds, members, rfl⟩ := Option.map_eq_some_iff.1 left
      obtain ⟨es, members', rfl⟩ := Option.map_eq_some_iff.1 right
      rw [same_object_iff distinct distinct', Denotation.object.injEq, funext_iff]
      refine forall_congr' fun key => ?_
      refine rel_same_iff (membersDenotation?_eq_some members key) (membersDenotation?_eq_some members' key) ?_
      intro v here w there
      exact ih _ (Keyed.mem_of_get? here) (each' _ (Keyed.mem_of_get? there))
    | _ => exact same_iff_of_kind_ne left right (by simp [kind])

end Decoded

theorem decoded_of_read? {r : Reading} {text : String} {v : Value} (h : read? r text = some v) : v.Decoded := by
  obtain ⟨l, formed, _, rfl⟩ := literal_of_read? h
  exact decoded_ofLiteral formed

end Value

/-- The values that are read from texts, whatever doubles their digits are read as. -/
def Document : Type := { v : Value // ∃ r text, Value.read? r text = some v }

namespace Document

theorem decoded (v : Document) : v.1.Decoded := by
  obtain ⟨r, text, read⟩ := v.2
  exact Value.decoded_of_read? read

theorem denotes (v : Document) : v.1.denotation?.isSome = true :=
  Option.isSome_iff_exists.2 v.decoded.denotes

def denotation (v : Document) : Denotation := v.1.denotation?.get v.denotes

theorem denotes_denotation (v : Document) : v.1.Denotes v.denotation := (Option.some_get v.denotes).symm

/-- Documents are equal exactly if they denote the same, with numbers as rationals and objects as maps,
so their equality is an equivalence. -/
theorem same_iff_denotation :
    (∀ v w : Document, v.1.same w.1 = true ↔ v.denotation = w.denotation) ∧
      Equivalence fun v w : Document => v.1.same w.1 = true := by
  have exact (v w : Document) : v.1.same w.1 = true ↔ v.denotation = w.denotation :=
    v.decoded.same_iff w.decoded v.denotes_denotation w.denotes_denotation
  refine ⟨exact, fun v => (exact v v).2 rfl, fun {v w} same => ?_, fun {u v w} first second => ?_⟩
  · exact (exact w v).2 ((exact v w).1 same).symm
  · exact (exact u w).2 (((exact u v).1 first).trans ((exact v w).1 second))

/-- An integer beyond 53 bits is not the double it would be rounded to. -/
example : ((Value.read? .nearest "9007199254740993").bind fun v =>
    (Value.read? .nearest "9007199254740992.0").map v.same) = some false := by
  decide +kernel

end Document

end JsonQuery

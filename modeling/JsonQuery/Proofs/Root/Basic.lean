import JsonQuery.Proofs.Keyed
import JsonQuery.Resolver
import JsonQuery.Value.Display
import JsonQuery.Value.Equality
import JsonQuery.Value.Json

/-!
Writing out the root. A constant takes the place of every root in an expression, and in the expressions
that the references in a value carry. Of a value itself this changes nothing that can be seen: its text,
its kind and what it equals stay.
-/
namespace JsonQuery

namespace Expr

mutual

def withRoot (l : Literal) : Expr → Expr
  | .comparison op lhs rhs => .comparison op (lhs.withRoot l) (rhs.withRoot l)
  | .reference body => .reference (body.withRoot l)
  | .call name args => .call name (allWithRoot l args)
  | .field name => .field name
  | .filterProjection lhs rhs predicate =>
    .filterProjection (lhs.withRoot l) (rhs.withRoot l) (predicate.withRoot l)
  | .flatten body => .flatten (body.withRoot l)
  | .identity => .identity
  | .current => .current
  | .root => .literal l
  | .index place => .index place
  | .literal value => .literal value
  | .selectHash entries => .selectHash (entriesWithRoot l entries)
  | .selectList items => .selectList (allWithRoot l items)
  | .or lhs rhs => .or (lhs.withRoot l) (rhs.withRoot l)
  | .and lhs rhs => .and (lhs.withRoot l) (rhs.withRoot l)
  | .not body => .not (body.withRoot l)
  | .pipe stages => .pipe (allWithRoot l stages)
  | .projection lhs rhs => .projection (lhs.withRoot l) (rhs.withRoot l)
  | .subexpression lhs rhs => .subexpression (lhs.withRoot l) (rhs.withRoot l)
  | .indexExpression lhs rhs => .indexExpression (lhs.withRoot l) (rhs.withRoot l)
  | .slice bounds => .slice bounds
  | .valueProjection lhs rhs => .valueProjection (lhs.withRoot l) (rhs.withRoot l)

def allWithRoot (l : Literal) : List Expr → List Expr
  | [] => []
  | e :: rest => e.withRoot l :: allWithRoot l rest

def entriesWithRoot (l : Literal) : List (String × Expr) → List (String × Expr)
  | [] => []
  | (key, e) :: rest => (key, e.withRoot l) :: entriesWithRoot l rest

end

end Expr

namespace Value

mutual

def withRoot (l : Literal) : Value → Value
  | .null => .null
  | .bool b => .bool b
  | .number n => .number n
  | .string s => .string s
  | .array items => .array (itemsWithRoot l items)
  | .object members => .object (membersWithRoot l members)
  | .reference identity body => .reference identity (body.withRoot l)
  | .record ⟨identity, typeName, fields, none⟩ =>
    .record ⟨identity, typeName, fieldsWithRoot l fields, none⟩
  | .record ⟨identity, typeName, fields, some items⟩ =>
    .record ⟨identity, typeName, fieldsWithRoot l fields, some (itemsWithRoot l items)⟩

def itemsWithRoot (l : Literal) : List Value → List Value
  | [] => []
  | item :: rest => item.withRoot l :: itemsWithRoot l rest

def membersWithRoot (l : Literal) : List (String × Value) → List (String × Value)
  | [] => []
  | (key, value) :: rest => (key, value.withRoot l) :: membersWithRoot l rest

def fieldsWithRoot (l : Literal) : List (Field Value) → List (Field Value)
  | [] => []
  | ⟨name, tag, value⟩ :: rest => ⟨name, tag, value.withRoot l⟩ :: fieldsWithRoot l rest

end

mutual

/-- Whether there is no reference anywhere in a value, its records included. -/
def ReferenceFree : Value → Prop
  | .null | .bool _ | .number _ | .string _ => True
  | .array items => ItemsReferenceFree items
  | .object members => MembersReferenceFree members
  | .reference .. => False
  | .record ⟨_, _, fields, none⟩ => FieldsReferenceFree fields
  | .record ⟨_, _, fields, some items⟩ => FieldsReferenceFree fields ∧ ItemsReferenceFree items

def ItemsReferenceFree : List Value → Prop
  | [] => True
  | item :: rest => item.ReferenceFree ∧ ItemsReferenceFree rest

def MembersReferenceFree : List (String × Value) → Prop
  | [] => True
  | (_, value) :: rest => value.ReferenceFree ∧ MembersReferenceFree rest

def FieldsReferenceFree : List (Field Value) → Prop
  | [] => True
  | ⟨_, _, value⟩ :: rest => value.ReferenceFree ∧ FieldsReferenceFree rest

end

section Lists

variable (l : Literal)

@[simp] theorem itemsWithRoot_eq_map (items : List Value) :
    itemsWithRoot l items = items.map (withRoot l) := by
  induction items with
  | nil => rfl
  | cons item rest ih => rw [itemsWithRoot, ih, List.map_cons]

@[simp] theorem membersWithRoot_eq_map (members : List (String × Value)) :
    membersWithRoot l members = members.map fun member => (member.1, member.2.withRoot l) := by
  induction members with
  | nil => rfl
  | cons member rest ih =>
    obtain ⟨key, value⟩ := member
    rw [membersWithRoot, ih, List.map_cons]

@[simp] theorem fieldsWithRoot_eq_map (fields : List (Field Value)) :
    fieldsWithRoot l fields = fields.map fun f => { f with value := f.value.withRoot l } := by
  induction fields with
  | nil => rfl
  | cons field rest ih => rw [fieldsWithRoot, ih, List.map_cons]

theorem withRoot_array (items : List Value) :
    (Value.array items).withRoot l = .array (items.map (withRoot l)) := by
  rw [withRoot, itemsWithRoot_eq_map]

theorem withRoot_object (members : List (String × Value)) :
    (Value.object members).withRoot l =
      .object (members.map fun member => (member.1, member.2.withRoot l)) := by
  rw [withRoot, membersWithRoot_eq_map]

theorem withRoot_record (r : Record Value) :
    (Value.record r).withRoot l =
      .record { r with
        fields := r.fields.map fun f => { f with value := f.value.withRoot l }
        elements := r.elements.map (List.map (withRoot l)) } := by
  obtain ⟨_, _, fields, _ | items⟩ := r
  · rw [withRoot, fieldsWithRoot_eq_map, Option.map_none]
  · rw [withRoot, fieldsWithRoot_eq_map, itemsWithRoot_eq_map, Option.map_some]

theorem fieldsReferenceFree_iff {fields : List (Field Value)} :
    FieldsReferenceFree fields ↔ ∀ f ∈ fields, f.value.ReferenceFree := by
  induction fields with
  | nil => simp [FieldsReferenceFree]
  | cons field rest ih => simp [FieldsReferenceFree, ih]

end Lists

theorem displayItems_eq : ∀ items : List Value,
    displayItems items = [','].intercalate (items.map displayChars)
  | [] => rfl
  | [item] => by simp [displayItems]
  | item :: next :: rest => by
    rw [displayItems, displayItems_eq (next :: rest)]
    · simp [List.intercalate]
    · simp

def displayMember (member : String × Value) : List Char :=
  displayString member.1 ++ ':' :: member.2.displayChars

theorem displayMembers_eq : ∀ members : List (String × Value),
    displayMembers members = [','].intercalate (members.map displayMember)
  | [] => rfl
  | [(key, value)] => by simp [displayMembers, displayMember]
  | (key, value) :: next :: rest => by
    rw [displayMembers, displayMembers_eq (next :: rest)]
    · simp [List.intercalate, displayMember]
    · simp

theorem displayChars_array (items : List Value) :
    (Value.array items).displayChars = '[' :: [','].intercalate (items.map displayChars) ++ [']'] := by
  rw [← displayItems_eq]
  rfl

theorem displayChars_object (members : List (String × Value)) :
    (Value.object members).displayChars =
      '\x7b' :: [','].intercalate (members.map displayMember) ++ ['\x7d'] := by
  rw [← displayMembers_eq]
  rfl

section Unseen

variable (l : Literal)

mutual

theorem withRoot_of_referenceFree : ∀ {v : Value}, v.ReferenceFree → v.withRoot l = v
  | .null, _ | .bool _, _ | .number _, _ | .string _, _ => by rw [withRoot]
  | .array items, h => by
    rw [withRoot, itemsWithRoot_of_referenceFree h]
  | .object members, h => by
    rw [withRoot, membersWithRoot_of_referenceFree h]
  | .record ⟨_, _, fields, none⟩, h => by
    rw [withRoot, fieldsWithRoot_of_referenceFree h]
  | .record ⟨_, _, fields, some items⟩, h => by
    rw [withRoot, fieldsWithRoot_of_referenceFree h.1, itemsWithRoot_of_referenceFree h.2]

theorem itemsWithRoot_of_referenceFree : ∀ {items : List Value}, ItemsReferenceFree items →
    itemsWithRoot l items = items
  | [], _ => rfl
  | _ :: _, h => by
    rw [itemsWithRoot, withRoot_of_referenceFree h.1, itemsWithRoot_of_referenceFree h.2]

theorem membersWithRoot_of_referenceFree : ∀ {members : List (String × Value)},
    MembersReferenceFree members → membersWithRoot l members = members
  | [], _ => rfl
  | (_, _) :: _, h => by
    rw [membersWithRoot, withRoot_of_referenceFree h.1, membersWithRoot_of_referenceFree h.2]

theorem fieldsWithRoot_of_referenceFree : ∀ {fields : List (Field Value)},
    FieldsReferenceFree fields → fieldsWithRoot l fields = fields
  | [], _ => rfl
  | ⟨_, _, _⟩ :: _, h => by
    rw [fieldsWithRoot, withRoot_of_referenceFree h.1, fieldsWithRoot_of_referenceFree h.2]

end

mutual

theorem displayChars_withRoot : ∀ v : Value, (v.withRoot l).displayChars = v.displayChars
  | .null | .bool _ | .number _ | .string _ => congrArg displayChars (by rw [withRoot])
  | .reference .. => by rw [withRoot]; rfl
  | .array items => by
    rw [withRoot, displayChars_array, displayChars_array, displays_withRoot items]
  | .object members => by
    rw [withRoot, displayChars_object, displayChars_object, memberDisplays_withRoot members]
  | .record ⟨_, _, _, none⟩ => by rw [withRoot]; rfl
  | .record ⟨_, _, _, some _⟩ => by rw [withRoot]; rfl

theorem displays_withRoot : ∀ items : List Value,
    (itemsWithRoot l items).map displayChars = items.map displayChars
  | [] => rfl
  | item :: rest => by
    rw [itemsWithRoot, List.map_cons, List.map_cons, displayChars_withRoot item,
      displays_withRoot rest]

theorem memberDisplays_withRoot : ∀ members : List (String × Value),
    (membersWithRoot l members).map displayMember = members.map displayMember
  | [] => rfl
  | (key, value) :: rest => by
    rw [membersWithRoot, List.map_cons, List.map_cons, memberDisplays_withRoot rest,
      displayMember, displayMember, displayChars_withRoot value]

end

mutual

theorem toJson_withRoot : ∀ v : Value, (v.withRoot l).toJson = v.toJson
  | .null | .bool _ | .number _ | .string _ => congrArg toJson (by rw [withRoot])
  | .reference .. => by rw [withRoot, toJson, toJson]
  | .array items => by rw [withRoot, toJson, toJson, itemsToJson_withRoot items]
  | .object members => by rw [withRoot, toJson, toJson, membersToJson_withRoot members]
  | .record ⟨_, _, fields, none⟩ => by
    rw [withRoot, toJson, toJson, fieldsToJson_withRoot fields]
  | .record ⟨_, _, _, some items⟩ => by
    rw [withRoot, toJson, toJson, itemsToJson_withRoot items]

theorem itemsToJson_withRoot : ∀ items : List Value,
    itemsToJson (itemsWithRoot l items) = itemsToJson items
  | [] => rfl
  | item :: rest => by
    rw [itemsWithRoot, itemsToJson, itemsToJson, toJson_withRoot item, itemsToJson_withRoot rest]

theorem membersToJson_withRoot : ∀ members : List (String × Value),
    membersToJson (membersWithRoot l members) = membersToJson members
  | [] => rfl
  | (_, value) :: rest => by
    rw [membersWithRoot, membersToJson, membersToJson, toJson_withRoot value,
      membersToJson_withRoot rest]

theorem fieldsToJson_withRoot : ∀ fields : List (Field Value),
    fieldsToJson (fieldsWithRoot l fields) = fieldsToJson fields
  | [] => rfl
  | ⟨_, _, value⟩ :: rest => by
    rw [fieldsWithRoot, fieldsToJson, fieldsToJson, toJson_withRoot value,
      fieldsToJson_withRoot rest]

end

theorem get?_withRoot (key : String) (members : List (String × Value)) :
    Keyed.get? key (membersWithRoot l members) = (Keyed.get? key members).map (withRoot l) := by
  rw [membersWithRoot_eq_map, Keyed.get?_map]

theorem insert_withRoot (key : String) (v : Value) (members : List (String × Value)) :
    membersWithRoot l (Keyed.insert key v members) =
      Keyed.insert key (v.withRoot l) (membersWithRoot l members) := by
  rw [membersWithRoot_eq_map, membersWithRoot_eq_map, Keyed.insert_map]

theorem insertAll_withRoot (members entries : List (String × Value)) :
    membersWithRoot l (Keyed.insertAll members entries) =
      Keyed.insertAll (membersWithRoot l members) (membersWithRoot l entries) := by
  simp only [membersWithRoot_eq_map, Keyed.insertAll_map]

/-- A function that looks neither into a container nor into the expression of a reference. -/
structure Shallow {α : Type} (f : Value → α) : Prop where
  array (xs ys) : f (.array xs) = f (.array ys)
  object (ms ns) : f (.object ms) = f (.object ns)
  reference (i b c) : f (.reference i b) = f (.reference i c)
  record (r : Record Value) (fields elements) : f (.record { r with fields, elements }) = f (.record r)

theorem Shallow.withRoot {α : Type} {f : Value → α} (h : Shallow f) (v : Value) :
    f (v.withRoot l) = f v := by
  cases v with
  | array items => exact h.array _ _
  | object members => exact h.object _ _
  | reference i body => exact h.reference i _ _
  | record r =>
    rw [withRoot_record]
    exact h.record r _ _
  | _ => rfl

theorem kind_withRoot (v : Value) : (v.withRoot l).kind = v.kind :=
  Shallow.withRoot l ⟨fun _ _ => rfl, fun _ _ => rfl, fun _ _ _ => rfl, fun _ _ _ => rfl⟩ v

theorem same_of_kind_ne {v w : Value} (h : v.kind ≠ w.kind) : v.same w = false := by
  cases v <;> cases w <;> first | rfl | exact absurd rfl h

theorem same_withRoot_of_kind_ne {v w : Value} (h : v.kind ≠ w.kind) :
    (v.withRoot l).same (w.withRoot l) = v.same w := by
  rw [same_of_kind_ne h, same_of_kind_ne]
  rwa [kind_withRoot, kind_withRoot]

mutual

theorem same_withRoot : ∀ v w : Value, (v.withRoot l).same (w.withRoot l) = v.same w
  | .array xs, w => by
    cases w with
    | array ys => rw [withRoot, withRoot, same, same, sameItems_withRoot xs ys]
    | _ => exact same_withRoot_of_kind_ne l nofun
  | .object ms, w => by
    cases w with
    | object ns =>
      rw [withRoot, withRoot, same, same, sameMembers_withRoot ms ns, membersWithRoot_eq_map,
        membersWithRoot_eq_map, List.length_map, List.length_map]
    | _ => exact same_withRoot_of_kind_ne l nofun
  | .record r, w => by
    cases w with
    | record s => rw [withRoot_record, withRoot_record, same, same]
    | _ => exact same_withRoot_of_kind_ne l nofun
  | .null, w | .bool _, w | .number _, w | .string _, w | .reference .., w => by
    cases w <;> first | rfl | exact same_withRoot_of_kind_ne l nofun

theorem sameItems_withRoot : ∀ xs ys : List Value,
    sameItems (itemsWithRoot l xs) (itemsWithRoot l ys) = sameItems xs ys
  | [], [] | [], _ :: _ | _ :: _, [] => rfl
  | x :: xs, y :: ys => by
    rw [itemsWithRoot, itemsWithRoot, sameItems, sameItems, same_withRoot x y,
      sameItems_withRoot xs ys]

theorem sameMembers_withRoot : ∀ ms ns : List (String × Value),
    sameMembers (membersWithRoot l ms) (membersWithRoot l ns) = sameMembers ms ns
  | [], _ => by rw [membersWithRoot, sameMembers, sameMembers]
  | (key, v) :: rest, ns => by
    rw [membersWithRoot, sameMembers, sameMembers, sameMembers_withRoot rest ns, get?_withRoot]
    cases Keyed.get? key ns with
    | none => rfl
    | some w =>
      have head := same_withRoot v w
      rw [Option.map_some]
      simp only [head]

end

end Unseen

end Value

end JsonQuery

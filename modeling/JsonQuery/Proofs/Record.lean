import JsonQuery.Proofs.Document.Agreement
import JsonQuery.Proofs.Nesting
import Mathlib.Data.List.Nodup

/-!
Records looked into by key. A key that is a tag stands for the first field with the tag, any other key
for the field named like the key with a capital. So the fields of a record are found under the keys of
its text, as long as these tell them apart and no key without a tag loses its form to the capital.
-/
namespace JsonQuery

namespace Field

variable {α : Type} {f : Field α} {key : String}

theorem writtenName_of_tag (tagged : f.tag = some key) : f.writtenName = key := by
  rw [writtenName, tagged, Option.getD_some]

theorem writtenName_of_untagged (untagged : f.tag = none) : f.writtenName = f.name := by
  rw [writtenName, untagged, Option.getD_none]

end Field

theorem Json.ofMembers_injective : Function.Injective Json.ofMembers := by
  intro members others same
  refine List.map_injective_iff.2 ?_ (Json.object.inj same)
  rintro ⟨key, value⟩ ⟨other, value'⟩ equal
  obtain ⟨keys, values⟩ := Prod.mk.inj equal
  rw [Quoted.ofString_injective keys, show value = value' from values]

namespace Value

def Shows (v : Value) (j : Json) : Prop := ∃ s, v.text = .ok s ∧ Json.read? s = some j

variable {v : Value} {j : Json}

theorem shows_iff : v.Shows j ↔ ∃ k, v.toJson = .ok k ∧ k.reread = j := by
  have read {k : Json} (written : v.toJson = .ok k) : Json.read? k.compact = some k.reread := by
    have means := toJson_means v
    rw [written] at means
    generalize v.toLiteral = constant at means
    cases means with
    | ok means => exact Json.read?_compact means.formed
  constructor
  · rintro ⟨s, text, shown⟩
    obtain ⟨k, written, rfl⟩ := map_eq_ok text
    exact ⟨k, written, Option.some.inj ((read written).symm.trans shown)⟩
  · rintro ⟨k, written, rfl⟩
    exact ⟨k.compact, congrArg (Except.map Json.compact) written, read written⟩

def ShownFor (member : String × Json) (f : Field Value) : Prop := member.1 = f.writtenName ∧ f.value.Shows member.2

theorem fieldsToJson_shown : ∀ {fields : List (Field Value)} {written : List (Json.Quoted × Json)},
    fieldsToJson fields = .ok written → ∃ members : List (String × Json),
      Json.reread (.object written) = .ofMembers members ∧ List.Forall₂ ShownFor members fields
  | [], _, h => by
    cases h
    exact ⟨[], rfl, .nil⟩
  | ⟨name, tag, value⟩ :: rest, _, h => by
    obtain ⟨k, more, first, others, rfl⟩ :=
      bind_eq_ok (fun k ks => (Json.Quoted.ofString (tag.getD name), k) :: ks) h
    obtain ⟨members, same, shown⟩ := fieldsToJson_shown others
    refine ⟨(tag.getD name, k.reread) :: members, ?_, .cons ⟨rfl, shows_iff.2 ⟨k, first, rfl⟩⟩ shown⟩
    exact congrArg _ (congrArg _ (Json.object.inj same))

theorem shows_record {r : Record Value} (plain : r.elements = none) (h : (Value.record r).Shows j) :
    ∃ members : List (String × Json), j = .ofMembers members ∧ List.Forall₂ ShownFor members r.fields := by
  obtain ⟨k, written, rfl⟩ := shows_iff.1 h
  obtain ⟨_, _, fields, _⟩ := r
  cases plain
  obtain ⟨shown, fields_eq, rfl⟩ := map_eq_ok written
  exact fieldsToJson_shown fields_eq

end Value

namespace Resolver

variable {r : Record Value} {key : String} {f : Field Value}

theorem exact_of_mem (names : (r.fields.map Field.name).Nodup) (there : f ∈ r.fields) :
    exact f.name r = some f.value := by
  obtain ⟨g, found⟩ : ∃ g, r.fields.find? (·.name == f.name) = some g :=
    Option.isSome_iff_exists.1 (List.find?_isSome.2 ⟨f, there, beq_self_eq_true f.name⟩)
  have same : g.name = f.name := eq_of_beq (List.find?_some found :)
  rw [exact, found, List.inj_on_of_nodup_map names (List.mem_of_find?_eq_some found) there same]
  rfl

theorem exact_eq_none (absent : ∀ f ∈ r.fields, f.name ≠ key) : exact key r = none := by
  have none : r.fields.find? (·.name == key) = none :=
    List.find?_eq_none.2 fun f there => mt eq_of_beq (absent f there)
  rw [exact, none]
  rfl

/-- A tag stands for the first field with it, whatever other fields are named. -/
theorem byTag_of_tag {before after : List (Field Value)} (fields : r.fields = before ++ f :: after)
    (first : ∀ g ∈ before, g.tag ≠ some key) (tagged : f.tag = some key) : byTag key r = exact f.name r := by
  have found : r.fields.find? (·.tag == some key) = some f :=
    List.find?_eq_some_iff_append.2 ⟨beq_iff_eq.2 tagged, before, after, fields, by simpa using first⟩
  rw [byTag, found]

theorem byTag_of_untagged (untagged : ∀ f ∈ r.fields, f.tag ≠ some key) :
    byTag key r = exact (Text.capitalize key) r := by
  have none : r.fields.find? (·.tag == some key) = none :=
    List.find?_eq_none.2 fun f there => mt eq_of_beq (untagged f there)
  rw [byTag, none]

/-- A field that no other shares its name or its key with is found under the key, for no other is tagged
with it. -/
theorem byTag_writtenName (names : (r.fields.map Field.name).Nodup) (keys : (r.fields.map Field.writtenName).Nodup)
    (there : f ∈ r.fields) (capital : f.tag = none → Text.capitalize f.name = f.name) :
    byTag f.writtenName r = some f.value := by
  have only : ∀ g ∈ r.fields, g.tag = some f.writtenName → g = f := fun g mem tagged =>
    List.inj_on_of_nodup_map keys mem there (Field.writtenName_of_tag tagged)
  cases tag : f.tag with
  | some key =>
    have written := Field.writtenName_of_tag tag
    obtain ⟨before, after, fields⟩ := List.append_of_mem there
    have first : ∀ g ∈ before, g.tag ≠ some key := by
      intro g earlier tagged
      have same := only g (fields ▸ List.mem_append_left _ earlier) (written ▸ tagged)
      rw [fields, List.map_append, List.nodup_append] at names
      exact names.2.2 g.name (List.mem_map_of_mem earlier) f.name (.head _) (congrArg Field.name same)
    rw [written, byTag_of_tag fields first tag, exact_of_mem names there]
  | none =>
    have untagged : ∀ g ∈ r.fields, g.tag ≠ some f.writtenName := by
      intro g mem tagged
      rw [only g mem tagged, tag] at tagged
      cases tagged
    rw [byTag_of_untagged untagged, Field.writtenName_of_untagged tag, capital tag, exact_of_mem names there]

end Resolver

namespace Evaluator

variable {ev : Evaluator} {r : Record Value}

/-- Whether a key gives a value on a record, whatever the root, as long as there is a level left for it. -/
def FieldIs (ev : Evaluator) (r : Record Value) (key : String) (v : Value) : Prop :=
  ∀ root run, run.depth < ev.maxDepth → (ev.execute (.field key) (.record r) root run).1 = .ok v

theorem fieldIs_resolved (ev : Evaluator) (r : Record Value) (key : String) :
    ev.FieldIs r key ((ev.resolver key r).getD .null) := by
  intro root run room
  rw [execute_eq_nested, Eval.nested_of_room room]
  rfl

section ByTag

variable (resolver : ev.resolver = .byTag)
include resolver

variable {key : String}

theorem fieldIs_of_byTag {v : Value} (found : Resolver.byTag key r = some v) : ev.FieldIs r key v := by
  have field := fieldIs_resolved ev r key
  rwa [resolver, found] at field

theorem fieldIs_null (absent : Resolver.byTag key r = none) : ev.FieldIs r key .null := by
  have field := fieldIs_resolved ev r key
  rwa [resolver, absent] at field

/-- Under each key of its text a record has the value that is written there, if names and keys are
distinct and a field without a tag is named with a capital; what is neither a tag nor a name, when it has
a capital, gives null. Of distinct names, whatever the tags, a tag gives the first field that has it. -/
theorem fields_as_written (plain : r.elements = none) (names : (r.fields.map Field.name).Nodup) :
    ((r.fields.map Field.writtenName).Nodup → (∀ f ∈ r.fields, f.tag = none → Text.capitalize f.name = f.name) →
      ∀ j, (Value.record r).Shows j → ∃ members : List (String × Json), j = .ofMembers members ∧
        Keyed.keys members = r.fields.map Field.writtenName ∧
        ∀ key shown, (key, shown) ∈ members → ∃ f ∈ r.fields, f.writtenName = key ∧ f.value.Shows shown ∧
          ev.FieldIs r key f.value) ∧
    (∀ key, (∀ f ∈ r.fields, f.tag ≠ some key ∧ f.name ≠ Text.capitalize key) → ev.FieldIs r key .null) ∧
    ∀ key before f after, r.fields = before ++ f :: after → (∀ g ∈ before, g.tag ≠ some key) →
      f.tag = some key → ev.FieldIs r key f.value := by
  refine ⟨fun keys capital j shows => ?_, fun key absent => ?_, fun key before f after fields first tagged => ?_⟩
  · obtain ⟨members, document, shown⟩ := Value.shows_record plain shows
    refine ⟨members, document, ?_, fun key value mem => ?_⟩
    · have order := List.forall₂_map_left_iff.2 (List.forall₂_map_right_iff.2 (shown.imp fun _ _ h => h.1))
      rwa [List.forall₂_eq_eq_eq] at order
    · obtain ⟨f, there, written, shows⟩ := exists_rel_of_mem shown mem
      cases written
      have found := Resolver.byTag_writtenName names keys there (capital f there)
      exact ⟨f, there, rfl, shows, fieldIs_of_byTag resolver found⟩
  · refine fieldIs_null resolver ?_
    rw [Resolver.byTag_of_untagged fun f there => (absent f there).1,
      Resolver.exact_eq_none fun f there => (absent f there).2]
  · refine fieldIs_of_byTag resolver ?_
    have there : f ∈ r.fields := fields ▸ List.mem_append_right _ (.head _)
    rw [Resolver.byTag_of_tag fields first tagged, Resolver.exact_of_mem names there]

end ByTag

/-- A record in which tags are names of other fields, as they stand or with a capital. -/
def card : Record Value where
  identity := .given 0
  typeName := "Card"
  fields := [⟨"Name", some "Title", .string "Ada"⟩, ⟨"Title", some "name", .bool true⟩,
    ⟨"Age", none, .array [.null]⟩]
  elements := none

def cardMembers : List (String × Json) :=
  [("Title", .ofString "Ada"), ("name", .bool true), ("Age", .array [.null])]

theorem fields_card : (card.fields.map Field.name).Nodup ∧ (card.fields.map Field.writtenName).Nodup ∧
    (∀ f ∈ card.fields, f.tag = none → Text.capitalize f.name = f.name) ∧
    (Value.record card).Shows (.ofMembers cardMembers) ∧
    (∃ f ∈ card.fields, f.writtenName = "Age" ∧ f.value.Shows (.array [.null]) ∧ FieldIs {} card "Age" f.value) ∧
    FieldIs {} card "height" .null ∧ FieldIs {} card "Title" (.string "Ada") ∧ FieldIs {} card "name" (.bool true) := by
  have names : (card.fields.map Field.name).Nodup := by decide
  have keys : (card.fields.map Field.writtenName).Nodup := by decide
  have capital : ∀ f ∈ card.fields, f.tag = none → Text.capitalize f.name = f.name := by decide
  have shows : (Value.record card).Shows (.ofMembers cardMembers) := Value.shows_iff.2 ⟨_, rfl, rfl⟩
  obtain ⟨written, absent, tagged⟩ := @fields_as_written {} card rfl rfl names
  refine ⟨names, keys, capital, shows, ?_, absent "height" (by decide), tagged "Title" [] _ _ rfl (by simp) rfl,
    tagged "name" [_] _ _ rfl (by decide) rfl⟩
  obtain ⟨members, same, -, found⟩ := written keys capital _ shows
  obtain rfl := Json.ofMembers_injective same
  exact found "Age" (.array [.null]) (by simp [cardMembers])

end Evaluator

end JsonQuery

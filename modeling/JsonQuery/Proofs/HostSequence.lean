import JsonQuery.Proofs.Simulation.Restriction

/-!
Records that are nothing but sequences. An array of the elements can stand in the place of such a record:
the text of the value stays the same, and so does whatever evaluation makes of it, as long as nothing
asks for the kind of the value or for what it equals.
-/
namespace JsonQuery

open Eval

namespace Value

mutual

/-- The value with an array in the place of each record that has elements and no fields. -/
def native : Value → Value
  | .null => .null
  | .bool b => .bool b
  | .number n => .number n
  | .string s => .string s
  | .array items => .array (itemsNative items)
  | .object members => .object (membersNative members)
  | .reference identity body => .reference identity body
  | .record ⟨_, _, [], some items⟩ => .array (itemsNative items)
  | .record ⟨identity, typeName, f :: fields, some items⟩ =>
    .record ⟨identity, typeName, fieldsNative (f :: fields), some (itemsNative items)⟩
  | .record ⟨identity, typeName, fields, none⟩ =>
    .record ⟨identity, typeName, fieldsNative fields, none⟩

def itemsNative : List Value → List Value
  | [] => []
  | item :: rest => item.native :: itemsNative rest

def membersNative : List (String × Value) → List (String × Value)
  | [] => []
  | (key, value) :: rest => (key, value.native) :: membersNative rest

def fieldsNative : List (Field Value) → List (Field Value)
  | [] => []
  | ⟨name, tag, value⟩ :: rest => ⟨name, tag, value.native⟩ :: fieldsNative rest

end

/-- Whether the records in a value that have elements have no fields. -/
def SequencesOnly (v : Value) : Prop :=
  ∀ r, Part (.record r) v → r.elements.isSome = true → r.fields = []

section Native

@[simp] theorem itemsNative_eq_map (items : List Value) : itemsNative items = items.map native := by
  induction items with
  | nil => rfl
  | cons item rest ih => rw [itemsNative, ih, List.map_cons]

@[simp] theorem membersNative_eq_map (members : List (String × Value)) :
    membersNative members = members.map fun member => (member.1, member.2.native) := by
  induction members with
  | nil => rfl
  | cons member rest ih =>
    obtain ⟨key, value⟩ := member
    rw [membersNative, ih, List.map_cons]

@[simp] theorem fieldsNative_eq_map (fields : List (Field Value)) :
    fieldsNative fields = fields.map fun f => { f with value := f.value.native } := by
  induction fields with
  | nil => rfl
  | cons field rest ih => rw [fieldsNative, ih, List.map_cons]

theorem native_array (items : List Value) :
    (Value.array items).native = .array (items.map native) := by
  rw [native, itemsNative_eq_map]

theorem native_object (members : List (String × Value)) :
    (Value.object members).native =
      .object (members.map fun member => (member.1, member.2.native)) := by
  rw [native, membersNative_eq_map]

theorem native_sequence (identity : Identity) (typeName : String) (items : List Value) :
    (Value.record ⟨identity, typeName, [], some items⟩).native = .array (items.map native) := by
  rw [native, itemsNative_eq_map]

theorem native_plain (identity : Identity) (typeName : String) (fields : List (Field Value)) :
    (Value.record ⟨identity, typeName, fields, none⟩).native =
      .record ⟨identity, typeName, fields.map fun f => { f with value := f.value.native }, none⟩ := by
  rw [native, fieldsNative_eq_map]

mutual

theorem toJson_native : ∀ v : Value, v.native.toJson = v.toJson
  | .null | .bool _ | .number _ | .string _ | .reference .. => congrArg toJson (by rw [native])
  | .array items => by rw [native, toJson, toJson, itemsToJson_native items]
  | .object members => by rw [native, toJson, toJson, membersToJson_native members]
  | .record ⟨_, _, [], some items⟩ => by rw [native, toJson, toJson, itemsToJson_native items]
  | .record ⟨_, _, _ :: _, some items⟩ => by rw [native, toJson, toJson, itemsToJson_native items]
  | .record ⟨_, _, fields, none⟩ => by rw [native, toJson, toJson, fieldsToJson_native fields]

theorem itemsToJson_native : ∀ items : List Value, itemsToJson (itemsNative items) = itemsToJson items
  | [] => rfl
  | item :: rest => by
    rw [itemsNative, itemsToJson, itemsToJson, toJson_native item, itemsToJson_native rest]

theorem membersToJson_native : ∀ members : List (String × Value),
    membersToJson (membersNative members) = membersToJson members
  | [] => rfl
  | (_, value) :: rest => by
    rw [membersNative, membersToJson, membersToJson, toJson_native value, membersToJson_native rest]

theorem fieldsToJson_native : ∀ fields : List (Field Value),
    fieldsToJson (fieldsNative fields) = fieldsToJson fields
  | [] => rfl
  | ⟨_, _, value⟩ :: rest => by
    rw [fieldsNative, fieldsToJson, fieldsToJson, toJson_native value, fieldsToJson_native rest]

end

theorem text_native (v : Value) : v.native.text = v.text :=
  congrArg (Except.map Json.compact) (toJson_native v)

theorem SequencesOnly.of_part {u v : Value} (h : v.SequencesOnly) (part : Part u v) :
    u.SequencesOnly := fun r inner => h r (inner.trans part)

theorem SequencesOnly.record_cases {r : Record Value} (h : (Value.record r).SequencesOnly) :
    (∃ identity typeName fields, r = ⟨identity, typeName, fields, none⟩) ∨
      ∃ identity typeName items, r = ⟨identity, typeName, [], some items⟩ := by
  obtain ⟨identity, typeName, fields, _ | items⟩ := r
  · exact .inl ⟨identity, typeName, fields, rfl⟩
  · have none : fields = [] := h _ (.self _) rfl
    subst none
    exact .inr ⟨identity, typeName, items, rfl⟩

theorem sequencesOnly_array_iff {items : List Value} :
    (Value.array items).SequencesOnly ↔ ∀ v ∈ items, v.SequencesOnly := by
  constructor
  · exact fun h v there => h.of_part (.item there (.self v))
  · intro h r part
    cases part with
    | item there part => exact h _ there r part

theorem sequencesOnly_object_iff {members : List (String × Value)} :
    (Value.object members).SequencesOnly ↔ ∀ m ∈ members, m.2.SequencesOnly := by
  constructor
  · exact fun h m there => h.of_part (.member there (.self m.2))
  · intro h r part
    cases part with
    | member there part => exact h _ there r part

theorem sequencesOnly_of_holds {F : Fragment} {v : Value} (h : v.Holds (.recordFree F)) :
    v.SequencesOnly := fun _ part => (h.of_part part).elim

/-- A function that looks into no container and takes a record for an array shows no difference. -/
theorem shallow_native {α : Type} {f : Value → α} (array : ∀ xs ys, f (.array xs) = f (.array ys))
    (object : ∀ ms ns, f (.object ms) = f (.object ns)) (record : ∀ r xs, f (.record r) = f (.array xs))
    (v : Value) : f v.native = f v := by
  cases v with
  | array items => rw [native_array]; exact array _ _
  | object members => rw [native_object]; exact object _ _
  | record r =>
    obtain ⟨identity, typeName, _ | ⟨f, fields⟩, _ | items⟩ := r
    · rw [native_plain]; exact (record _ []).trans (record _ []).symm
    · rw [native_sequence]; exact (record _ _).symm
    · rw [native_plain]; exact (record _ []).trans (record _ []).symm
    · rw [native]; exact (record _ []).trans (record _ []).symm
  | _ => rw [native]

theorem native_of_holds {F : Fragment} {v : Value} (h : v.Holds (.recordFree F)) : v.native = v := by
  induction v using induction with
  | array items ih =>
    have same : items.map native = items.map id :=
      List.map_congr_left fun v there => ih v there (itemsHold_iff.1 h v there)
    rw [native_array, same, List.map_id]
  | object members ih =>
    have same : (members.map fun member => (member.1, member.2.native)) = members.map id := by
      refine List.map_congr_left fun m there => ?_
      rw [ih m there (membersHold_iff.1 h m there)]
      rfl
    rw [native_object, same, List.map_id]
  | record r => exact h.elim
  | _ => rw [native]

end Native

end Value

/-- Nodes and functions that take a sequence for the array of its elements. -/
def Registry.kindBlind (r : Registry) : Fragment where
  comparison op := op ≠ .equal ∧ op ≠ .notEqual
  function := r.builtinsBut [.type, .toArray, .toNumber, .contains, .containsAny, .fromItems]
  valueProjection := True

def Content.carrying (F : Fragment) : Content :=
  ⟨fun _ => True, Expr.Within F, fun r => (Value.record r).Carries F⟩

theorem Value.Carries.holds {F : Fragment} {v : Value} (h : v.Carries F) : v.Holds (.carrying F) :=
  holds_of_parts (fun _ _ => trivial) h fun _ part => h.of_part part

namespace Resolver

theorem part_of_byTag {name : String} {r : Record Value} {v : Value} (found : byTag name r = some v) :
    Value.Part v (.record r) := by
  obtain ⟨f, there, rfl⟩ := Option.map_eq_some_iff.1 found
  exact .field (List.mem_of_find?_eq_some there) (.self _)

theorem byTag_native (name : String) (r : Record Value) (elements : Option (List Value)) :
    byTag name { r with
        fields := r.fields.map fun f => { f with value := f.value.native }
        elements } = (byTag name r).map Value.native := by
  have tagged : (r.fields.map fun f => { f with value := f.value.native }).find? (·.tag == some name) =
      (r.fields.find? (·.tag == some name)).map fun f => { f with value := f.value.native } :=
    List.find?_map
  have named (name : String) :
      (r.fields.map fun f => { f with value := f.value.native }).find? (·.name == name) =
        (r.fields.find? (·.name == name)).map fun f => { f with value := f.value.native } :=
    List.find?_map
  unfold byTag exact
  simp only [tagged, named, Option.map_map]
  cases r.fields.find? (·.tag == some name) <;> rfl

end Resolver

theorem Content.carrying_closed (F : Fragment) : (Content.carrying F).Closed .byTag where
  double _ := trivial
  integer _ := trivial
  elements carries sequence := Value.itemsHold_iff.2 fun _ there =>
    (carries.of_part (.element sequence there (.self _))).holds
  field carries found := (carries.of_part (Resolver.part_of_byTag found)).holds

namespace Correspondence

/-- Values beside themselves with arrays in the place of sequences. -/
def hosted : Correspondence := ⟨.byCategory, Eq, fun v w => v.SequencesOnly ∧ w = v.native⟩

theorem hosted_items_iff {vs ws : List Value} : List.Forall₂ hosted.value vs ws ↔
    (∀ v ∈ vs, v.SequencesOnly) ∧ ws = vs.map Value.native := by
  have images : List.Forall₂ (fun v w => w = v.native) vs ws ↔ ws = vs.map Value.native := by
    rw [eq_comm, ← List.forall₂_eq_eq_eq, List.forall₂_map_left_iff]
    simp only [eq_comm]
  rw [← images]
  exact List.forall₂_and_left vs ws

theorem hosted_object_iff {ms ns : List (String × Value)} : hosted.object ms ns ↔
    (∀ m ∈ ms, m.2.SequencesOnly) ∧ ns = ms.map fun m => (m.1, m.2.native) := by
  change (Value.object ms).SequencesOnly ∧ Value.object ns = (Value.object ms).native ↔ _
  rw [Value.native_object, Value.sequencesOnly_object_iff, Value.object.injEq]

theorem hosted_self {F : Fragment} {v : Value} (h : v.Holds (.recordFree F)) : hosted.value v v :=
  ⟨Value.sequencesOnly_of_holds h, (Value.native_of_holds h).symm⟩

theorem hosted_ordered : hosted.Ordered := by
  intro ms ns h
  obtain ⟨only, rfl⟩ := hosted_object_iff.1 h
  rw [List.forall₂_map_right_iff]
  exact List.forall₂_same.2 fun m there => ⟨rfl, only m there, rfl⟩

theorem hosted_lawful : hosted.Lawful where
  isNull := by
    rintro v _ ⟨_, rfl⟩
    exact (Value.shallow_native (fun _ _ => rfl) (fun _ _ => rfl) (fun _ _ => rfl) v).symm
  isFalseLike := by
    rintro v _ ⟨only, rfl⟩
    cases v with
    | array items => rw [Value.native_array]; cases items <;> rfl
    | object members => rw [Value.native_object]; cases members <;> rfl
    | record r =>
      rcases only.record_cases with ⟨_, _, _, rfl⟩ | ⟨_, _, items, rfl⟩
      · rw [Value.native_plain]; rfl
      · rw [Value.native_sequence]; cases items <;> rfl
    | _ => rw [Value.native]
  string := by
    rintro v _ ⟨_, rfl⟩
    exact (Value.shallow_native (fun _ _ => rfl) (fun _ _ => rfl) (fun _ _ => rfl) v).symm
  coerce := by
    rintro v _ ⟨_, rfl⟩
    exact (Value.shallow_native (fun _ _ => rfl) (fun _ _ => rfl) (fun _ _ => rfl) v).symm
  number := by
    rintro v _ ⟨_, rfl⟩
    rw [Value.shallow_native (f := Value.number?) (fun _ _ => rfl) (fun _ _ => rfl) (fun _ _ => rfl) v]
    cases v.number? with
    | none => exact .none
    | some n => exact .some (hosted_self (F := .all) trivial)
  sequence := by
    rintro v _ ⟨only, rfl⟩
    cases v with
    | array items =>
      rw [Value.native_array]
      exact .some (hosted_items_iff.2 ⟨Value.sequencesOnly_array_iff.1 only, rfl⟩)
    | record r =>
      rcases only.record_cases with ⟨_, _, _, rfl⟩ | ⟨_, _, items, rfl⟩
      · rw [Value.native_plain]
        exact .none
      · rw [Value.native_sequence]
        refine .some (hosted_items_iff.2 ⟨fun v there => ?_, rfl⟩)
        exact only.of_part (.element rfl there (.self v))
    | object members => rw [Value.native_object]; exact .none
    | _ => rw [Value.native]; exact .none
  object := by
    rintro v _ ⟨only, rfl⟩
    cases v with
    | array items => rw [Value.native_array]; exact .none
    | record r =>
      rcases only.record_cases with ⟨_, _, _, rfl⟩ | ⟨_, _, items, rfl⟩
      · rw [Value.native_plain]; exact .none
      · rw [Value.native_sequence]; exact .none
    | object members =>
      rw [Value.native_object]
      exact .some (hosted_object_iff.2 ⟨Value.sequencesOnly_object_iff.1 only, rfl⟩)
    | _ => rw [Value.native]; exact .none
  body := by
    rintro v _ ⟨_, rfl⟩
    rw [Value.shallow_native (f := Value.body?) (fun _ _ => rfl) (fun _ _ => rfl) (fun _ _ => rfl) v]
    cases v.body? with
    | none => exact .none
    | some e => exact .some rfl
  kind _ := Tolerance.byCategory_shows _ _
  display _ := Tolerance.byCategory_shows _ _
  toDouble := by
    rintro m n ⟨_, same⟩
    rw [Value.native] at same
    cases same
    rfl
  noValue _ _ _ _ _ := rfl
  size h := by rw [(hosted_object_iff.1 h).2, List.length_map]
  get key ms ns h := by
    obtain ⟨only, rfl⟩ := hosted_object_iff.1 h
    rw [Keyed.get?_map]
    cases there : Keyed.get? key ms with
    | none => exact .none
    | some v => exact .some ⟨only _ (Keyed.mem_of_get? there), rfl⟩
  null := hosted_self (F := .all) trivial
  bool _ := hosted_self (F := .all) trivial
  text _ := hosted_self (F := .all) trivial
  double _ := hosted_self (F := .all) trivial
  nat _ := hosted_self (F := .all) trivial
  literal l := hosted_self ((Content.recordFree_closed .all .byTag).literal l)
  array h := by
    obtain ⟨only, rfl⟩ := hosted_items_iff.1 h
    exact ⟨Value.sequencesOnly_array_iff.2 only, (Value.native_array _).symm⟩
  reference i e _ same := by
    cases same
    exact hosted_self (F := .all) (Expr.within_all e)
  empty := hosted_self (F := .all) trivial
  insert key v w ms ns value members := by
    obtain ⟨only, rfl⟩ := hosted_object_iff.1 members
    obtain ⟨new, rfl⟩ := value
    refine hosted_object_iff.2 ⟨fun m there => ?_, Keyed.insert_map Value.native key v ms⟩
    rcases Keyed.mem_insert there with rfl | there
    · exact new
    · exact only m there
  insertAll members entries := by
    obtain ⟨only, rfl⟩ := hosted_object_iff.1 members
    obtain ⟨new, rfl⟩ := hosted_object_iff.1 entries
    refine hosted_object_iff.2 ⟨fun m there => ?_, Keyed.insertAll_map Value.native _ _⟩
    exact (Keyed.mem_insertAll there).elim (only m) (new m)

theorem hosted_texts : hosted.Texts :=
  texts_byCategory rfl fun h => h.2 ▸ Value.text_native _

end Correspondence

namespace Evaluator

open Correspondence

variable {ev : Evaluator}

theorem suits_hosted (resolver : ev.resolver = .byTag) : ev.Suits hosted ev.registry.kindBlind where
  tolerance := rfl
  expr := rfl
  shared := {
    lawful := hosted_lawful
    equality := by
      rintro (equal | notEqual)
      · exact absurd rfl equal.1
      · exact absurd rfl notEqual.2
    order := fun _ => hosted_ordered
    field := by
      rintro name v _ ⟨only, rfl⟩
      rw [resolver]
      cases v with
      | object members =>
        rw [Value.native_object]
        have members := hosted_object_iff.2 ⟨Value.sequencesOnly_object_iff.1 only, rfl⟩
        exact rel_getD (hosted_lawful.get name members) hosted_lawful.null
      | record r =>
        rcases only.record_cases with ⟨i, t, fields, rfl⟩ | ⟨i, t, items, rfl⟩
        · rw [Value.native_plain]
          dsimp only [field]
          rw [Resolver.byTag_native name ⟨i, t, fields, none⟩ none]
          cases found : Resolver.byTag name ⟨i, t, fields, none⟩ with
          | none => exact hosted_lawful.null
          | some v => exact ⟨only.of_part (Resolver.part_of_byTag found), rfl⟩
        · rw [Value.native_sequence]
          exact hosted_lawful.null
      | array items => rw [Value.native_array]; exact hosted_lawful.null
      | _ => rw [Value.native]; exact hosted_lawful.null }
  admits b called := by
    refine admits_byCategory rfl ?_ ?_ (fun _ => hosted_texts) fun _ => hosted_ordered
    · exact fun there => absurd there (called.notMem (by decide))
    · exact fun there => absurd there (called.notMem (by decide))
  builtin _ called := called.1

/-- With arrays in the place of the sequences in its values, an evaluation that does not ask for kinds or
equality fails for the same kind of reason, or gives the same result with arrays in the place of the
sequences in it, which has the same text. -/
theorem execute_native (resolver : ev.resolver = .byTag) {e : Expr}
    (within : e.Within ev.registry.kindBlind) {v root : Value}
    (sequences : v.SequencesOnly ∧ root.SequencesOnly)
    (references : v.Carries ev.registry.kindBlind ∧ root.Carries ev.registry.kindBlind) (run : Run) :
    Corresponds .byCategory (fun a b => b = a.native ∧ b.text = a.text)
      (ev.execute e v root run).1 (ev.execute e v.native root.native run).1 := by
  have closed : (Content.carrying ev.registry.kindBlind).Closed ev.resolver := by
    rw [resolver]
    exact Content.carrying_closed _
  have corresponds := (suits_hosted resolver).execute closed (fun _ => Iff.rfl) within
    ⟨references.1.holds, sequences.1, rfl⟩ ⟨references.2.holds, sequences.2, rfl⟩ run
  refine corresponds.mono id ?_
  rintro a _ ⟨_, rfl⟩
  exact ⟨rfl, Value.text_native a⟩

def shelf : Value :=
  .record ⟨.made 0, "Shelf", [⟨"Books", some "books", .record ⟨.made 1, "Vec", [], some [.string "a"]⟩⟩],
    none⟩

def books : Expr := .selectList [.field "books"]

theorem execute_books_native :
    (Evaluator.execute {} books shelf shelf (.seeded 0)).1 =
      .ok (.array [.record ⟨.made 1, "Vec", [], some [.string "a"]⟩]) ∧
    Corresponds .byCategory (fun a b => b = a.native ∧ b.text = a.text)
      (Evaluator.execute {} books shelf shelf (.seeded 0)).1
      (Evaluator.execute {} books shelf.native shelf.native (.seeded 0)).1 := by
  have within : books.Within (Registry.kindBlind .empty) := ⟨trivial, trivial⟩
  have sequences : shelf.SequencesOnly := by simp [Value.SequencesOnly, shelf]
  have references : shelf.Carries (Registry.kindBlind .empty) := by simp [Value.Carries, shelf]
  refine ⟨rfl, execute_native rfl within ?_ ?_ (.seeded 0)⟩
  · exact ⟨sequences, sequences⟩
  · exact ⟨references, references⟩

def comparing : Value := .array [
  .reference (.made 0) (.comparison .equal .current (.literal (.array [.string "a"]))),
  .record ⟨.made 1, "Vec", [], some [.string "a"]⟩]

/-- A reference in the data brings its own nodes: one that compares tells a sequence from an array, although
the expression that calls it does not. -/
theorem not_execute_native :
    ¬ ∀ (e : Expr) (v root : Value) (run : Run), e.Within (Registry.kindBlind .empty) →
      v.SequencesOnly ∧ root.SequencesOnly →
      Corresponds .byCategory (fun a b => b = a.native ∧ b.text = a.text)
        (Evaluator.execute {} e v root run).1
        (Evaluator.execute {} e v.native root.native run).1 := by
  intro always
  have within : mapRest.Within (Registry.kindBlind .empty) := mapRest_within ⟨rfl, by decide⟩
  have sequences : comparing.SequencesOnly := by simp [Value.SequencesOnly, comparing]
  have corresponds := always mapRest comparing comparing (.seeded 0) within ⟨sequences, sequences⟩
  have different : ((Evaluator.execute {} mapRest comparing comparing (.seeded 0)).1.bind
      Value.text).toOption = some "[false]" := by
    decide +kernel
  have same : ((Evaluator.execute {} mapRest comparing.native comparing.native (.seeded 0)).1.bind
      Value.text).toOption = some "[true]" := by
    decide +kernel
  generalize (Evaluator.execute {} mapRest comparing comparing (.seeded 0)).1 = left
    at corresponds different
  generalize (Evaluator.execute {} mapRest comparing.native comparing.native (.seeded 0)).1 = right
    at corresponds same
  cases corresponds with
  | @ok a b related =>
    have texts : a.text.toOption = b.text.toOption := by rw [related.2]
    have impossible := (different.symm.trans texts).trans same
    exact absurd impossible (by decide)
  | error => cases different

end Evaluator

end JsonQuery

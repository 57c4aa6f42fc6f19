import JsonQuery.Proofs.Simulation.Content

/-!
Values within values. What is said of every level of a value is said of its parts: the items of arrays, the
members of objects, and the fields and elements of records, all the way down.
-/
namespace JsonQuery.Value

@[elab_as_elim]
theorem induction {motive : Value → Prop} (null : motive .null) (bool : ∀ b, motive (.bool b))
    (number : ∀ n, motive (.number n)) (string : ∀ s, motive (.string s))
    (array : ∀ items, (∀ v ∈ items, motive v) → motive (.array items))
    (object : ∀ members, (∀ m ∈ members, motive m.2) → motive (.object members))
    (reference : ∀ identity body, motive (.reference identity body))
    (record : ∀ r : Record Value, (∀ f ∈ r.fields, motive f.value) →
      (∀ items, r.elements = some items → ∀ v ∈ items, motive v) → motive (.record r)) :
    ∀ v, motive v := by
  apply @Value.rec motive (fun items => ∀ v ∈ items, motive v)
    (fun members => ∀ m ∈ members, motive m.2)
    (fun r => (∀ f ∈ r.fields, motive f.value) ∧
      ∀ items, r.elements = some items → ∀ v ∈ items, motive v)
    (fun m => motive m.2) (fun fields => ∀ f ∈ fields, motive f.value)
    (fun elements => ∀ items, elements = some items → ∀ v ∈ items, motive v)
    (fun f => motive f.value)
    null bool number string array object reference (fun r parts => record r parts.1 parts.2)
  · simp
  · exact fun item rest first more => List.forall_mem_cons.2 ⟨first, more⟩
  · simp
  · exact fun member rest first more => List.forall_mem_cons.2 ⟨first, more⟩
  · exact fun _ _ _ _ fields elements => ⟨fields, elements⟩
  · exact fun _ _ value => value
  · simp
  · exact fun field rest first more => List.forall_mem_cons.2 ⟨first, more⟩
  · simp
  · rintro _ values items ⟨⟩
    exact values
  · exact fun _ _ _ value => value

/-- Whether a value stands somewhere in another one, or is that one itself. -/
inductive Part : Value → Value → Prop
  | self (v) : Part v v
  | item {u item items} (there : item ∈ items) (h : Part u item) : Part u (.array items)
  | member {u m members} (there : m ∈ members) (h : Part u m.2) : Part u (.object members)
  | field {u f} {r : Record Value} (there : f ∈ r.fields) (h : Part u f.value) : Part u (.record r)
  | element {u item items} {r : Record Value} (sequence : r.elements = some items)
    (there : item ∈ items) (h : Part u item) : Part u (.record r)

theorem Part.trans {u v w : Value} (inner : Part u v) (outer : Part v w) : Part u w := by
  induction outer with
  | self => exact inner
  | item there _ ih => exact .item there ih
  | member there _ ih => exact .member there ih
  | field there _ ih => exact .field there ih
  | element sequence there _ ih => exact .element sequence there ih

section Cases

variable {u : Value}

@[simp] theorem part_null_iff : Part u .null ↔ u = .null :=
  ⟨fun h => by cases h; rfl, fun same => same ▸ .self _⟩

@[simp] theorem part_bool_iff {b : Bool} : Part u (.bool b) ↔ u = .bool b :=
  ⟨fun h => by cases h; rfl, fun same => same ▸ .self _⟩

@[simp] theorem part_number_iff {n : Number} : Part u (.number n) ↔ u = .number n :=
  ⟨fun h => by cases h; rfl, fun same => same ▸ .self _⟩

@[simp] theorem part_string_iff {s : String} : Part u (.string s) ↔ u = .string s :=
  ⟨fun h => by cases h; rfl, fun same => same ▸ .self _⟩

@[simp] theorem part_reference_iff {i : Identity} {e : Expr} :
    Part u (.reference i e) ↔ u = .reference i e :=
  ⟨fun h => by cases h; rfl, fun same => same ▸ .self _⟩

@[simp] theorem part_array_iff {items : List Value} :
    Part u (.array items) ↔ u = .array items ∨ ∃ v ∈ items, Part u v := by
  constructor
  · rintro (_ | ⟨there, part⟩)
    · exact .inl rfl
    · exact .inr ⟨_, there, part⟩
  · rintro (rfl | ⟨v, there, part⟩)
    · exact .self _
    · exact .item there part

@[simp] theorem part_object_iff {members : List (String × Value)} :
    Part u (.object members) ↔ u = .object members ∨ ∃ m ∈ members, Part u m.2 := by
  constructor
  · rintro (_ | _ | ⟨there, part⟩)
    · exact .inl rfl
    · exact .inr ⟨_, there, part⟩
  · rintro (rfl | ⟨m, there, part⟩)
    · exact .self _
    · exact .member there part

@[simp] theorem part_record_iff {r : Record Value} : Part u (.record r) ↔ u = .record r ∨
    (∃ f ∈ r.fields, Part u f.value) ∨ ∃ items, r.elements = some items ∧ ∃ v ∈ items, Part u v := by
  constructor
  · rintro (_ | _ | _ | ⟨there, part⟩ | ⟨sequence, there, part⟩)
    · exact .inl rfl
    · exact .inr (.inl ⟨_, there, part⟩)
    · exact .inr (.inr ⟨_, sequence, _, there, part⟩)
  · rintro (rfl | ⟨f, there, part⟩ | ⟨items, sequence, v, there, part⟩)
    · exact .self _
    · exact .field there part
    · exact .element sequence there part

end Cases

/-- A value is of a content if its numbers, its references and its outermost records are. -/
theorem holds_of_parts {K : Content} {v : Value} (number : ∀ n, Part (.number n) v → K.number n)
    (body : ∀ i e, Part (.reference i e) v → K.body e)
    (record : ∀ r, Part (.record r) v → K.record r) : v.Holds K := by
  induction v using induction with
  | null | bool | string => trivial
  | number n => exact number n (.self _)
  | reference i e => exact body i e (.self _)
  | record r => exact record r (.self _)
  | array items ih =>
    refine itemsHold_iff.2 fun v there => ih v there ?_ ?_ ?_
    · exact fun n part => number n (.item there part)
    · exact fun i e part => body i e (.item there part)
    · exact fun r part => record r (.item there part)
  | object members ih =>
    refine membersHold_iff.2 fun m there => ih m there ?_ ?_ ?_
    · exact fun n part => number n (.member there part)
    · exact fun i e part => body i e (.member there part)
    · exact fun r part => record r (.member there part)

def Carries (F : Fragment) (v : Value) : Prop := ∀ i e, Part (.reference i e) v → e.Within F

theorem Carries.of_part {F : Fragment} {u v : Value} (h : v.Carries F) (part : Part u v) :
    u.Carries F := fun i e inner => h i e (inner.trans part)

end JsonQuery.Value

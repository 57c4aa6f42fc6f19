import JsonQuery.Proofs.Document.Constant

/-!
The canonical text of values. It is the text of a constant in canonical form, so it is kept by reading
and writing again, whatever representation the numbers and containers of the value had.
-/
namespace JsonQuery

namespace Number

def Writable : Number → Prop
  | .double _ => True
  | .token text => (Double.read? (trimmed text)).isSome = true

theorem toLiteral_isOk_iff (n : Number) : (∃ l, n.toLiteral = .ok l) ↔ n.Writable := by
  cases n with
  | double d => exact ⟨fun _ => trivial, fun _ => ⟨_, rfl⟩⟩
  | token text =>
    unfold toLiteral Writable
    dsimp only
    cases word : (readInt64? (trimmed text)).or (readUInt64? (trimmed text)) with
    | some n =>
      have read := Double.read?_isSome_of_readInt? (readInt?_of_read? word)
      exact ⟨fun _ => read, fun _ => ⟨_, rfl⟩⟩
    | none =>
      cases read : Double.read? (trimmed text) with
      | some d => exact ⟨fun _ => rfl, fun _ => ⟨_, rfl⟩⟩
      | none => simp

theorem canonical_ofDouble (d : Double) : (toLiteral.ofDouble d).Canonical := by
  unfold toLiteral.ofDouble
  split
  · next word => exact isWord_of_wordOfDouble? word
  · next word =>
    split
    · next finite => exact ⟨finite, word⟩
    · trivial

theorem canonical_of_toLiteral {n : Number} {l : Literal} (h : n.toLiteral = .ok l) :
    l.Canonical := by
  cases n with
  | double d =>
    cases h
    exact canonical_ofDouble d
  | token text =>
    unfold toLiteral at h
    dsimp only at h
    split at h
    · next word =>
      cases h
      exact isWord_of_read? word
    · split at h
      · cases h
        exact canonical_ofDouble _
      · cases h

end Number

namespace Value

mutual

/-- Whether every number token that is written can be: those in the elements of a record, or in its
fields where it has no elements. -/
def Writable : Value → Prop
  | .null | .bool _ | .string _ | .reference .. => True
  | .number n => n.Writable
  | .array items => ItemsWritable items
  | .object members => MembersWritable members
  | .record ⟨_, _, _, some items⟩ => ItemsWritable items
  | .record ⟨_, _, fields, none⟩ => FieldsWritable fields

def ItemsWritable : List Value → Prop
  | [] => True
  | item :: rest => item.Writable ∧ ItemsWritable rest

def MembersWritable : List (String × Value) → Prop
  | [] => True
  | (_, value) :: rest => value.Writable ∧ MembersWritable rest

def FieldsWritable : List (Field Value) → Prop
  | [] => True
  | ⟨_, _, value⟩ :: rest => value.Writable ∧ FieldsWritable rest

end

mutual

/-- Whether nothing is written under the same key as something else in the same container. The keys of
an object never repeat; the fields of a record may be declared so that they do. -/
def DistinctNames : Value → Prop
  | .null | .bool _ | .number _ | .string _ | .reference .. => True
  | .array items => ItemsDistinct items
  | .object members => (Keyed.keys members).Nodup ∧ MembersDistinct members
  | .record ⟨_, _, _, some items⟩ => ItemsDistinct items
  | .record ⟨_, _, fields, none⟩ => (fields.map Field.writtenName).Nodup ∧ FieldsDistinct fields

def ItemsDistinct : List Value → Prop
  | [] => True
  | item :: rest => item.DistinctNames ∧ ItemsDistinct rest

def MembersDistinct : List (String × Value) → Prop
  | [] => True
  | (_, value) :: rest => value.DistinctNames ∧ MembersDistinct rest

def FieldsDistinct : List (Field Value) → Prop
  | [] => True
  | ⟨_, _, value⟩ :: rest => value.DistinctNames ∧ FieldsDistinct rest

end

section Outcomes

variable {ε α β γ : Type} {x : Except ε α} {y : Except ε β}

theorem map_eq_ok {f : α → β} {b : β} (h : x.map f = .ok b) : ∃ a, x = .ok a ∧ f a = b := by
  cases x with
  | error => cases h
  | ok a =>
    cases h
    exact ⟨a, rfl, rfl⟩

theorem bind_eq_ok (f : α → β → γ) {c : γ} (h : (do return f (← x) (← y)) = Except.ok c) :
    ∃ a b, x = .ok a ∧ y = .ok b ∧ f a b = c := by
  cases x with
  | error => cases h
  | ok a =>
    cases y with
    | error => cases h
    | ok b =>
      cases h
      exact ⟨a, b, rfl, rfl, rfl⟩

theorem isOk_map_iff (f : α → β) : (∃ b, x.map f = .ok b) ↔ ∃ a, x = .ok a := by
  cases x <;> simp [Except.map]

theorem isOk_bind_iff (f : α → β → γ) :
    (∃ c, (do return f (← x) (← y)) = Except.ok c) ↔ (∃ a, x = .ok a) ∧ ∃ b, y = .ok b := by
  cases x <;> cases y <;> simp [bind, pure, Except.bind, Except.pure]

end Outcomes

section Writable

mutual

/-- Writing fails at tokens that are no numbers, and at nothing else. -/
theorem toJson_isOk_iff : ∀ v : Value, (∃ j, v.toJson = .ok j) ↔ v.Writable
  | .null | .bool _ | .string _ | .reference .. => ⟨fun _ => trivial, fun _ => ⟨_, rfl⟩⟩
  | .number n => (isOk_map_iff Literal.toJson).trans n.toLiteral_isOk_iff
  | .array items => (isOk_map_iff Json.array).trans (itemsToJson_isOk_iff items)
  | .object members => (isOk_map_iff Json.object).trans (membersToJson_isOk_iff members)
  | .record ⟨_, _, _, some items⟩ => (isOk_map_iff Json.array).trans (itemsToJson_isOk_iff items)
  | .record ⟨_, _, fields, none⟩ => (isOk_map_iff Json.object).trans (fieldsToJson_isOk_iff fields)

theorem itemsToJson_isOk_iff : ∀ items : List Value,
    (∃ js, itemsToJson items = .ok js) ↔ ItemsWritable items
  | [] => ⟨fun _ => trivial, fun _ => ⟨_, rfl⟩⟩
  | item :: rest =>
    (isOk_bind_iff List.cons).trans (and_congr (toJson_isOk_iff item) (itemsToJson_isOk_iff rest))

theorem membersToJson_isOk_iff : ∀ members : List (String × Value),
    (∃ js, membersToJson members = .ok js) ↔ MembersWritable members
  | [] => ⟨fun _ => trivial, fun _ => ⟨_, rfl⟩⟩
  | (key, value) :: rest =>
    (isOk_bind_iff fun j js => (Json.Quoted.ofString key, j) :: js).trans
      (and_congr (toJson_isOk_iff value) (membersToJson_isOk_iff rest))

theorem fieldsToJson_isOk_iff : ∀ fields : List (Field Value),
    (∃ js, fieldsToJson fields = .ok js) ↔ FieldsWritable fields
  | [] => ⟨fun _ => trivial, fun _ => ⟨_, rfl⟩⟩
  | ⟨name, tag, value⟩ :: rest =>
    (isOk_bind_iff fun j js => (Json.Quoted.ofString (tag.getD name), j) :: js).trans
      (and_congr (toJson_isOk_iff value) (fieldsToJson_isOk_iff rest))

end

end Writable

section Constant

theorem keys_membersToLiteral : ∀ {members : List (String × Value)}
    {entries : List (String × Literal)}, membersToLiteral members = .ok entries →
      Keyed.keys entries = Keyed.keys members
  | [], _, h => by
    cases h
    rfl
  | (key, value) :: rest, entries, h => by
    obtain ⟨l, ls, _, more, rfl⟩ := bind_eq_ok (fun l ls => (key, l) :: ls) h
    rw [Keyed.keys_cons, Keyed.keys_cons, keys_membersToLiteral more]

theorem keys_fieldsToLiteral : ∀ {fields : List (Field Value)} {entries : List (String × Literal)},
    fieldsToLiteral fields = .ok entries → Keyed.keys entries = fields.map Field.writtenName
  | [], _, h => by
    cases h
    rfl
  | ⟨name, tag, value⟩ :: rest, entries, h => by
    obtain ⟨l, ls, _, more, rfl⟩ := bind_eq_ok (fun l ls => (tag.getD name, l) :: ls) h
    rw [Keyed.keys_cons, List.map_cons, keys_fieldsToLiteral more]
    rfl

mutual

theorem toJson_eq_map : ∀ {v : Value}, v.DistinctNames →
    v.toJson = v.toLiteral.map Literal.toJson
  | .null, _ | .bool _, _ | .string _, _ | .reference .., _ | .number _, _ => rfl
  | .array items, h => by
    rw [toJson, toLiteral, itemsToJson_eq_map h]
    cases itemsToLiteral items <;> rfl
  | .object members, h => by
    rw [toJson, toLiteral, membersToJson_eq_map h.2]
    cases written : membersToLiteral members with
    | error => rfl
    | ok entries =>
      have distinct : (Keyed.keys entries).Nodup := by
        rw [keys_membersToLiteral written]
        exact h.1
      change _ = Except.ok (Literal.toJson (.object (Keyed.ofList entries)))
      rw [Keyed.ofList_of_nodup distinct]
      rfl
  | .record ⟨_, _, _, some items⟩, h => by
    rw [toJson, toLiteral, itemsToJson_eq_map h]
    cases itemsToLiteral items <;> rfl
  | .record ⟨_, _, fields, none⟩, h => by
    rw [toJson, toLiteral, fieldsToJson_eq_map h.2]
    cases written : fieldsToLiteral fields with
    | error => rfl
    | ok entries =>
      have distinct : (Keyed.keys entries).Nodup := by
        rw [keys_fieldsToLiteral written]
        exact h.1
      change _ = Except.ok (Literal.toJson (.object (Keyed.ofList entries)))
      rw [Keyed.ofList_of_nodup distinct]
      rfl

theorem itemsToJson_eq_map : ∀ {items : List Value}, ItemsDistinct items →
    itemsToJson items = (itemsToLiteral items).map Literal.listToJson
  | [], _ => rfl
  | item :: rest, h => by
    rw [itemsToJson, itemsToLiteral, toJson_eq_map h.1, itemsToJson_eq_map h.2]
    cases item.toLiteral <;> cases itemsToLiteral rest <;> rfl

theorem membersToJson_eq_map : ∀ {members : List (String × Value)}, MembersDistinct members →
    membersToJson members = (membersToLiteral members).map Literal.membersToJson
  | [], _ => rfl
  | (key, value) :: rest, h => by
    rw [membersToJson, membersToLiteral, toJson_eq_map h.1, membersToJson_eq_map h.2]
    cases value.toLiteral <;> cases membersToLiteral rest <;> rfl

theorem fieldsToJson_eq_map : ∀ {fields : List (Field Value)}, FieldsDistinct fields →
    fieldsToJson fields = (fieldsToLiteral fields).map Literal.membersToJson
  | [], _ => rfl
  | ⟨name, tag, value⟩ :: rest, h => by
    rw [fieldsToJson, fieldsToLiteral, toJson_eq_map h.1, fieldsToJson_eq_map h.2]
    cases value.toLiteral <;> cases fieldsToLiteral rest <;> rfl

end

end Constant

section Canonical

mutual

theorem canonical_of_toLiteral : ∀ {v : Value} {l : Literal}, v.toLiteral = .ok l → l.Canonical
  | .null, _, h | .bool _, _, h | .string _, _, h | .reference .., _, h => by
    cases h
    trivial
  | .number _, _, h => Number.canonical_of_toLiteral h
  | .array items, _, h | .record ⟨_, _, _, some items⟩, _, h => by
    obtain ⟨ls, written, rfl⟩ := map_eq_ok h
    exact canonical_of_itemsToLiteral written
  | .object members, _, h => by
    obtain ⟨ls, written, rfl⟩ := map_eq_ok (f := fun ls => Literal.object (Keyed.ofList ls)) h
    exact Literal.canonical_ofList (canonical_of_membersToLiteral written)
  | .record ⟨_, _, fields, none⟩, _, h => by
    obtain ⟨ls, written, rfl⟩ := map_eq_ok (f := fun ls => Literal.object (Keyed.ofList ls)) h
    exact Literal.canonical_ofList (canonical_of_fieldsToLiteral written)

theorem canonical_of_itemsToLiteral : ∀ {items : List Value} {ls : List Literal},
    itemsToLiteral items = .ok ls → Literal.ItemsCanonical ls
  | [], _, h => by
    cases h
    trivial
  | item :: rest, _, h => by
    obtain ⟨l, ls, first, more, rfl⟩ := bind_eq_ok List.cons h
    exact ⟨canonical_of_toLiteral first, canonical_of_itemsToLiteral more⟩

theorem canonical_of_membersToLiteral : ∀ {members : List (String × Value)}
    {ls : List (String × Literal)}, membersToLiteral members = .ok ls → Literal.MembersCanonical ls
  | [], _, h => by
    cases h
    trivial
  | (key, value) :: rest, _, h => by
    obtain ⟨l, ls, first, more, rfl⟩ := bind_eq_ok (fun l ls => (key, l) :: ls) h
    exact ⟨canonical_of_toLiteral first, canonical_of_membersToLiteral more⟩

theorem canonical_of_fieldsToLiteral : ∀ {fields : List (Field Value)}
    {ls : List (String × Literal)}, fieldsToLiteral fields = .ok ls → Literal.MembersCanonical ls
  | [], _, h => by
    cases h
    trivial
  | ⟨name, tag, value⟩ :: rest, _, h => by
    obtain ⟨l, ls, first, more, rfl⟩ := bind_eq_ok (fun l ls => (tag.getD name, l) :: ls) h
    exact ⟨canonical_of_toLiteral first, canonical_of_fieldsToLiteral more⟩

end

end Canonical

theorem toJson_eq_ok {v : Value} (distinct : v.DistinctNames) {j : Json} (h : v.toJson = .ok j) :
    ∃ l : Literal, l.Canonical ∧ l.toJson = j := by
  rw [toJson_eq_map distinct] at h
  obtain ⟨l, constant, json⟩ := map_eq_ok h
  exact ⟨l, canonical_of_toLiteral constant, json⟩

/-- A value has a canonical text if and only if all its number tokens are numbers. As long as no more
containers nest in it than may be read, and where the digits written for a double are read as this
double, the text is read as a value that has the very same canonical text, and the text over several
lines is read as the same value again. -/
theorem text_canonical {v : Value} (distinct : v.DistinctNames) :
    ((∃ s, v.text = .ok s) ↔ v.Writable) ∧
      ∀ r : Reading, r.Keeps .even Decimal.layout →
        ∀ s, v.text = .ok s → (∀ j, Json.read? s = some j → j.depth ≤ Json.maxNesting) →
        ∃ w, read? r s = some w ∧ w.text = .ok s ∧ ∃ p, v.pretty = .ok p ∧ read? r p = some w := by
  refine ⟨(isOk_map_iff Json.compact).trans (toJson_isOk_iff v), ?_⟩
  intro r keeps s written nested
  obtain ⟨j, json, rfl⟩ := map_eq_ok written
  obtain ⟨l, canonical, rfl⟩ := toJson_eq_ok distinct json
  have formed := l.wellFormed_toJson
  have deep : l.toJson.depth ≤ Json.maxNesting := by
    rw [← Json.depth_reread]
    exact nested _ (Json.read?_compact formed)
  have stands := Literal.ofJson?_toJson keeps canonical deep
  refine ⟨.ofLiteral l, ?_, ?_, l.toJson.pretty, ?_, ?_⟩
  · rw [read?_compact formed, stands]
  · rw [text, Literal.toJson_ofLiteral canonical]
    rfl
  · rw [pretty, json]
    rfl
  · rw [read?_pretty formed, stands]

/-- A record with a double of more than 53 bits, a token and a reference in it. -/
def sale : Value :=
  .record {
    identity := .given 0
    typeName := "Sale"
    fields := [⟨"Price", some "price", .ofDouble (.ofInt (10 ^ 17))⟩,
      ⟨"Note", none, .array [.string "a\"b", .number (.token " 1e3 "), .reference (.given 1) .root]⟩]
    elements := none }

def saleText : String := "\x7b\"price\":100000000000000000,\"Note\":[\"a\\\"b\",1000,null]\x7d"

theorem text_sale : sale.DistinctNames ∧
    ∃ w, read? .nearest saleText = some w ∧ w.text = .ok saleText ∧
      ∃ p, sale.pretty = .ok p ∧ read? .nearest p = some w := by
  have distinct : sale.DistinctNames :=
    ⟨by decide, trivial, ⟨trivial, trivial, trivial, trivial⟩, trivial⟩
  have written : sale.text = .ok saleText := by decide +kernel
  have shallow : (Json.read? saleText).all (fun j => decide (j.depth ≤ Json.maxNesting)) = true := by
    decide +kernel
  have nested : ∀ j, Json.read? saleText = some j → j.depth ≤ Json.maxNesting := by
    intro j read
    rw [read] at shallow
    simpa using shallow
  exact ⟨distinct, (text_canonical distinct).2 .nearest Reading.nearest_keeps_layout saleText written nested⟩

end Value

end JsonQuery

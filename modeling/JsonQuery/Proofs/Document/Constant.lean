import JsonQuery.Proofs.Document.Reader
import JsonQuery.Proofs.Keyed
import JsonQuery.Proofs.Number.Integer

/-!
Constants and documents. A well-formed constant is read back from its document, and the values that
documents stand for are those of the constants that are read from them. The value of a constant in the form
in which values are written is written as this constant.
-/
namespace JsonQuery

namespace Json

mutual

def depth : Json → Nat
  | .null | .bool _ | .number _ | .string _ => 0
  | .array items => itemsDepth items + 1
  | .object members => membersDepth members + 1

def itemsDepth : List Json → Nat
  | [] => 0
  | item :: rest => max item.depth (itemsDepth rest)

def membersDepth : List (Quoted × Json) → Nat
  | [] => 0
  | (_, value) :: rest => max value.depth (membersDepth rest)

end

mutual

theorem depth_reread : ∀ j : Json, j.reread.depth = j.depth
  | .null | .bool _ | .number _ | .string _ => rfl
  | .array items => congrArg (· + 1) (itemsDepth_reread items)
  | .object members => congrArg (· + 1) (membersDepth_reread members)

theorem itemsDepth_reread : ∀ items : List Json, itemsDepth (itemsReread items) = itemsDepth items
  | [] => rfl
  | item :: rest => by
    rw [itemsReread, itemsDepth, itemsDepth, depth_reread item, itemsDepth_reread rest]

theorem membersDepth_reread : ∀ members : List (Quoted × Json),
    membersDepth (membersReread members) = membersDepth members
  | [] => rfl
  | (_, value) :: rest => by
    rw [membersReread, membersDepth, membersDepth, depth_reread value, membersDepth_reread rest]

end

theorem itemsDepth_le_iff {items : List Json} {n : Nat} :
    itemsDepth items ≤ n ↔ ∀ j ∈ items, j.depth ≤ n := by
  induction items with
  | nil => simp [itemsDepth]
  | cons item rest ih => simp [itemsDepth, ih]

theorem membersDepth_le_iff {members : List (Quoted × Json)} {n : Nat} :
    membersDepth members ≤ n ↔ ∀ m ∈ members, m.2.depth ≤ n := by
  induction members with
  | nil => simp [membersDepth]
  | cons member rest ih => simp [membersDepth, ih]

end Json

namespace Literal

@[elab_as_elim]
theorem induction {motive : Literal → Prop} (null : motive .null) (bool : ∀ b, motive (.bool b))
    (integer : ∀ n, motive (.integer n)) (double : ∀ d, motive (.double d))
    (string : ∀ s, motive (.string s))
    (array : ∀ items, (∀ l ∈ items, motive l) → motive (.array items))
    (object : ∀ members, (∀ m ∈ members, motive m.2) → motive (.object members)) :
    ∀ l, motive l := by
  apply @Literal.rec motive (fun items => ∀ l ∈ items, motive l)
    (fun members => ∀ m ∈ members, motive m.2) (fun m => motive m.2)
    null bool integer double string array object
  · simp
  · intro item rest first more
    exact List.forall_mem_cons.2 ⟨first, more⟩
  · simp
  · intro member rest first more
    exact List.forall_mem_cons.2 ⟨first, more⟩
  · intro key value h
    exact h

mutual

/-- Integers are those of 64 bits, signed or unsigned, doubles are finite, and no key stands twice. -/
def WellFormed : Literal → Prop
  | .null | .bool _ | .string _ => True
  | .integer n => Number.IsWord n
  | .double d => d.isFinite = true
  | .array items => ItemsWellFormed items
  | .object members => (Keyed.keys members).Nodup ∧ MembersWellFormed members

def ItemsWellFormed : List Literal → Prop
  | [] => True
  | item :: rest => item.WellFormed ∧ ItemsWellFormed rest

def MembersWellFormed : List (String × Literal) → Prop
  | [] => True
  | (_, value) :: rest => value.WellFormed ∧ MembersWellFormed rest

end

theorem itemsWellFormed_iff {items : List Literal} :
    ItemsWellFormed items ↔ ∀ l ∈ items, l.WellFormed := by
  induction items with
  | nil => simp [ItemsWellFormed]
  | cons item rest ih => simp [ItemsWellFormed, ih]

theorem membersWellFormed_iff {members : List (String × Literal)} :
    MembersWellFormed members ↔ ∀ m ∈ members, m.2.WellFormed := by
  induction members with
  | nil => simp [MembersWellFormed]
  | cons member rest ih => simp [MembersWellFormed, ih]

mutual

/-- The form of the constants that values are written as: integers of 64 bits, no double that is one of
these or is not finite, and no key twice. -/
def Canonical : Literal → Prop
  | .null | .bool _ | .string _ => True
  | .integer n => Number.IsWord n
  | .double d => d.isFinite = true ∧ Number.wordOfDouble? d = none
  | .array items => ItemsCanonical items
  | .object members => (Keyed.keys members).Nodup ∧ MembersCanonical members

def ItemsCanonical : List Literal → Prop
  | [] => True
  | item :: rest => item.Canonical ∧ ItemsCanonical rest

def MembersCanonical : List (String × Literal) → Prop
  | [] => True
  | (_, value) :: rest => value.Canonical ∧ MembersCanonical rest

end

theorem itemsCanonical_iff {items : List Literal} :
    ItemsCanonical items ↔ ∀ l ∈ items, l.Canonical := by
  induction items with
  | nil => simp [ItemsCanonical]
  | cons item rest ih => simp [ItemsCanonical, ih]

theorem membersCanonical_iff {members : List (String × Literal)} :
    MembersCanonical members ↔ ∀ m ∈ members, m.2.Canonical := by
  induction members with
  | nil => simp [MembersCanonical]
  | cons member rest ih => simp [MembersCanonical, ih]

theorem canonical_ofList {entries : List (String × Literal)} (h : MembersCanonical entries) :
    (object (Keyed.ofList entries)).Canonical := by
  rw [membersCanonical_iff] at h
  exact ⟨Keyed.nodup_keys_ofList entries,
    membersCanonical_iff.2 fun m there => h m (Keyed.mem_ofList there)⟩

mutual

theorem Canonical.wellFormed : ∀ {l : Literal}, l.Canonical → l.WellFormed
  | .null, _ | .bool _, _ | .string _, _ => trivial
  | .integer _, word => word
  | .double _, canonical => canonical.1
  | .array _, canonical => itemsWellFormed_of_canonical canonical
  | .object _, canonical => ⟨canonical.1, membersWellFormed_of_canonical canonical.2⟩

theorem itemsWellFormed_of_canonical : ∀ {items : List Literal}, ItemsCanonical items →
    ItemsWellFormed items
  | [], _ => trivial
  | _ :: _, canonical => ⟨canonical.1.wellFormed, itemsWellFormed_of_canonical canonical.2⟩

theorem membersWellFormed_of_canonical : ∀ {members : List (String × Literal)},
    MembersCanonical members → MembersWellFormed members
  | [], _ => trivial
  | (_, _) :: _, canonical => ⟨canonical.1.wellFormed, membersWellFormed_of_canonical canonical.2⟩

end

mutual

theorem wellFormed_toJson : ∀ l : Literal, l.toJson.WellFormed
  | .null | .bool _ | .integer _ => trivial
  | .double d => by
    rw [toJson, jsonOfDouble]
    split <;> trivial
  | .string s => Text.isBody_escape s.toList
  | .array items => wellFormed_listToJson items
  | .object members => wellFormed_membersToJson members

theorem wellFormed_listToJson : ∀ items : List Literal, Json.ItemsWellFormed (listToJson items)
  | [] => trivial
  | item :: rest => ⟨wellFormed_toJson item, wellFormed_listToJson rest⟩

theorem wellFormed_membersToJson : ∀ members : List (String × Literal),
    Json.MembersWellFormed (membersToJson members)
  | [] => trivial
  | (key, value) :: rest =>
    ⟨Text.isBody_escape key.toList, wellFormed_toJson value, wellFormed_membersToJson rest⟩

end

theorem jsonOfDouble_of_isFinite {d : Double} (h : d.isFinite = true) :
    ∃ x, Decimal.shortest? .even d = some x ∧ jsonOfDouble d = .number (.decimal x) := by
  have some : (Decimal.shortest? .even d).isSome = true := by rw [Decimal.shortest?_isSome, h]
  obtain ⟨x, digits⟩ := Option.isSome_iff_exists.1 some
  exact ⟨x, digits, by rw [jsonOfDouble, digits]⟩

section Read

variable {r : Reading}

mutual

/-- A constant is read back from its document. -/
theorem ofJson?_toJson_of_wellFormed (keeps : r.Keeps .even Decimal.layout) : ∀ {l : Literal},
    l.WellFormed → ∀ {nesting : Nat}, l.toJson.depth ≤ nesting → ofJson? r nesting l.toJson.reread = some l
  | .null, _, nesting, _ | .bool _, _, nesting, _ => by cases nesting <;> rfl
  | .integer n, word, nesting, _ => by
    have read : ofNumeral? r (.ofInt n) = some (.integer n) := by
      rw [ofNumeral?, Numeral.meaning?_ofInt r word]
      rfl
    cases nesting <;> exact read
  | .double d, finite, nesting, _ => by
    obtain ⟨x, digits, json⟩ := jsonOfDouble_of_isFinite finite
    have read : ofNumeral? r (.decimal x.spelled) = some (.double d) := by
      rw [ofNumeral?, Numeral.meaning?_decimal finite (keeps digits (Numeral.read?_layout x))]
      rfl
    rw [toJson, json]
    cases nesting <;> exact read
  | .string s, _, nesting, _ => by
    have read : (Json.Quoted.ofString s).read?.map Literal.string = some (.string s) := by
      rw [Json.Quoted.read?_ofString]
      rfl
    cases nesting <;> exact read
  | .array items, formed, nesting + 1, deep => by
    have read := mapM_listToJson keeps formed (Nat.le_of_succ_le_succ deep)
    rw [toJson, Json.reread, ofJson?, read]
    rfl
  | .object members, formed, nesting + 1, deep => by
    have read := mapM_membersToJson keeps formed.2 (Nat.le_of_succ_le_succ deep)
    rw [toJson, Json.reread, ofJson?, read]
    exact congrArg (some ∘ object) (Keyed.ofList_of_nodup formed.1)

theorem mapM_listToJson (keeps : r.Keeps .even Decimal.layout) : ∀ {items : List Literal},
    ItemsWellFormed items → ∀ {nesting : Nat}, Json.itemsDepth (listToJson items) ≤ nesting →
      (Json.itemsReread (listToJson items)).mapM (ofJson? r nesting) = some items
  | [], _, _, _ => rfl
  | item :: rest, formed, nesting, deep => by
    have deep := Nat.max_le.1 deep
    rw [listToJson, Json.itemsReread, List.mapM_cons, ofJson?_toJson_of_wellFormed keeps formed.1 deep.1,
      mapM_listToJson keeps formed.2 deep.2]
    rfl

theorem mapM_membersToJson (keeps : r.Keeps .even Decimal.layout) : ∀ {members : List (String × Literal)},
    MembersWellFormed members → ∀ {nesting : Nat}, Json.membersDepth (membersToJson members) ≤ nesting →
      (Json.membersReread (membersToJson members)).mapM (fun (key, value) => do
        return (← key.read?, ← ofJson? r nesting value)) = some members
  | [], _, _, _ => rfl
  | (key, value) :: rest, formed, nesting, deep => by
    have deep := Nat.max_le.1 deep
    rw [membersToJson, Json.membersReread, List.mapM_cons, mapM_membersToJson keeps formed.2 deep.2]
    dsimp only
    rw [Json.Quoted.read?_ofString, ofJson?_toJson_of_wellFormed keeps formed.1 deep.1]
    rfl

end

theorem ofJson?_toJson (keeps : r.Keeps .even Decimal.layout) {l : Literal} (h : l.Canonical) {nesting : Nat}
    (deep : l.toJson.depth ≤ nesting) : Value.ofJson? r nesting l.toJson.reread = some (.ofLiteral l) := by
  rw [value_ofJson?, ofJson?_toJson_of_wellFormed keeps h.wellFormed deep]
  rfl

end Read

section Write

mutual

/-- The constant that the value of a constant is written as. -/
def written : Literal → Literal
  | .null => .null
  | .bool b => .bool b
  | .integer n => .integer n
  | .double d => Number.toLiteral.ofDouble d
  | .string s => .string s
  | .array items => .array (itemsWritten items)
  | .object members => .object (membersWritten members)

def itemsWritten : List Literal → List Literal
  | [] => []
  | item :: rest => item.written :: itemsWritten rest

def membersWritten : List (String × Literal) → List (String × Literal)
  | [] => []
  | (key, value) :: rest => (key, value.written) :: membersWritten rest

end

@[simp] theorem itemsWritten_eq_map (items : List Literal) :
    itemsWritten items = items.map written := by
  induction items with
  | nil => rfl
  | cons item rest ih => rw [itemsWritten, ih, List.map_cons]

@[simp] theorem membersWritten_eq_map (members : List (String × Literal)) :
    membersWritten members = members.map fun member => (member.1, member.2.written) := by
  induction members with
  | nil => rfl
  | cons member rest ih =>
    obtain ⟨key, value⟩ := member
    rw [membersWritten, ih, List.map_cons]

theorem written_of_canonical {l : Literal} (h : l.Canonical) : l.written = l := by
  induction l using induction with
  | null | bool | integer | string => rfl
  | double d =>
    rw [written, Number.toLiteral.ofDouble, h.2]
    exact if_pos h.1
  | array items ih =>
    have same := List.map_congr_left fun l there => ih l there (itemsCanonical_iff.1 h l there)
    rw [written, itemsWritten_eq_map, same, List.map_id']
  | object members ih =>
    have same : members.map (fun m => (m.1, m.2.written)) = members.map fun m => m := by
      apply List.map_congr_left
      intro m there
      rw [ih m there (membersCanonical_iff.1 h.2 m there)]
    rw [written, membersWritten_eq_map, same, List.map_id']

theorem itemsToJson_map {items : List Literal}
    (h : ∀ l ∈ items, (Value.ofLiteral l).toJson = .ok l.written.toJson) :
    Value.itemsToJson (Value.ofLiterals items) = .ok (listToJson (itemsWritten items)) := by
  induction items with
  | nil => rfl
  | cons item rest ih =>
    rw [List.forall_mem_cons] at h
    rw [Value.ofLiterals, Value.itemsToJson, h.1, ih h.2]
    rfl

theorem membersToJson_map {members : List (String × Literal)}
    (h : ∀ m ∈ members, (Value.ofLiteral m.2).toJson = .ok m.2.written.toJson) :
    Value.membersToJson (Value.ofLiteralMembers members) =
      .ok (membersToJson (membersWritten members)) := by
  induction members with
  | nil => rfl
  | cons member rest ih =>
    obtain ⟨key, value⟩ := member
    rw [List.forall_mem_cons] at h
    rw [Value.ofLiteralMembers, Value.membersToJson, h.1, ih h.2]
    rfl

theorem toJson_ofLiteral_of_wellFormed {l : Literal} (h : l.WellFormed) :
    (Value.ofLiteral l).toJson = .ok l.written.toJson := by
  induction l using induction with
  | null | bool | string | double => rfl
  | integer n =>
    change (Number.ofInt n).toJson = _
    rw [Number.toJson, Number.toLiteral_ofInt h]
    rfl
  | array items ih =>
    have written := itemsToJson_map fun l there => ih l there (itemsWellFormed_iff.1 h l there)
    rw [Value.ofLiteral, Value.toJson, written]
    rfl
  | object members ih =>
    have written := membersToJson_map fun m there => ih m there (membersWellFormed_iff.1 h.2 m there)
    rw [Value.ofLiteral, Value.toJson, written]
    rfl

theorem toJson_ofLiteral {l : Literal} (h : l.Canonical) :
    (Value.ofLiteral l).toJson = .ok l.toJson := by
  rw [toJson_ofLiteral_of_wellFormed h.wellFormed, written_of_canonical h]

end Write

end Literal

end JsonQuery

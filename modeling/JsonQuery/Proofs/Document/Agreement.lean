import JsonQuery.Proofs.Document.Canonical
import JsonQuery.Proofs.Simulation.Outcome

/-!
The two ways in which a value leaves. It is written as text or turned into a constant, and either way the
same value comes back, or both fail with the same fault. This holds also where a record has several
fields of one written name: the text lists them all, and its reader keeps what the constant keeps.
-/
namespace JsonQuery

namespace Json

/-- A well-formed document of which the text is read as a constant wherever no fewer containers may nest
than nest in it, and the digits written for a double are read as this double. -/
structure Means (j : Json) (l : Literal) : Prop where
  formed : j.WellFormed
  read : ∀ {r : Reading}, r.Keeps .even Decimal.layout → ∀ {nesting}, j.depth ≤ nesting →
    Literal.ofJson? r nesting j.reread = some l

structure ItemsMean (items : List Json) (ls : List Literal) : Prop where
  formed : ItemsWellFormed items
  read : ∀ {r : Reading}, r.Keeps .even Decimal.layout → ∀ {nesting}, itemsDepth items ≤ nesting →
    (itemsReread items).mapM (Literal.ofJson? r nesting) = some ls

/-- Members that mean constants, before repeated keys are put together. -/
structure MembersMean (members : List (Quoted × Json)) (entries : List (String × Literal)) : Prop where
  formed : MembersWellFormed members
  read : ∀ {r : Reading}, r.Keeps .even Decimal.layout → ∀ {nesting}, membersDepth members ≤ nesting →
    (membersReread members).mapM (fun (key, value) => do
      return (← key.read?, ← Literal.ofJson? r nesting value)) = some entries

theorem means_toJson {l : Literal} (h : l.WellFormed) : l.toJson.Means l where
  formed := l.wellFormed_toJson
  read keeps := Literal.ofJson?_toJson_of_wellFormed keeps h

section Contents

variable {j : Json} {l : Literal} {items : List Json} {ls : List Literal}
  {members : List (Quoted × Json)} {entries : List (String × Literal)}

theorem ItemsMean.nil : ItemsMean [] [] := ⟨trivial, fun _ _ _ => rfl⟩

theorem ItemsMean.cons (first : j.Means l) (more : ItemsMean items ls) : ItemsMean (j :: items) (l :: ls) := by
  refine ⟨⟨first.formed, more.formed⟩, fun keeps _ deep => ?_⟩
  have deep := Nat.max_le.1 deep
  rw [itemsReread, List.mapM_cons, first.read keeps deep.1, more.read keeps deep.2]
  rfl

theorem ItemsMean.array (h : ItemsMean items ls) : (array items).Means (.array ls) := by
  refine ⟨h.formed, fun keeps nesting deep => ?_⟩
  cases nesting with
  | zero => cases deep
  | succ nesting =>
    rw [reread, Literal.ofJson?, h.read keeps (Nat.le_of_succ_le_succ deep)]
    rfl

theorem MembersMean.nil : MembersMean [] [] := ⟨trivial, fun _ _ _ => rfl⟩

theorem MembersMean.cons (key : String) (first : j.Means l) (more : MembersMean members entries) :
    MembersMean ((.ofString key, j) :: members) ((key, l) :: entries) := by
  refine ⟨⟨Text.isBody_escape key.toList, first.formed, more.formed⟩, fun keeps _ deep => ?_⟩
  have deep := Nat.max_le.1 deep
  rw [membersReread, List.mapM_cons, more.read keeps deep.2]
  dsimp only
  rw [Quoted.read?_ofString, first.read keeps deep.1]
  rfl

theorem MembersMean.object (h : MembersMean members entries) :
    (object members).Means (.object (Keyed.ofList entries)) := by
  refine ⟨h.formed, fun keeps nesting deep => ?_⟩
  cases nesting with
  | zero => cases deep
  | succ nesting =>
    rw [reread, Literal.ofJson?, h.read keeps (Nat.le_of_succ_le_succ deep)]
    rfl

end Contents

end Json

namespace Value

mutual

/-- A value is written as a document that means the constant of the value, or both fail alike. -/
theorem toJson_means : ∀ v : Value, Corresponds .strict Json.Means v.toJson v.toLiteral
  | .null | .reference .. => .ok (Json.means_toJson (l := .null) trivial)
  | .bool b => .ok (Json.means_toJson (l := .bool b) trivial)
  | .string s => .ok (Json.means_toJson (l := .string s) trivial)
  | .number n => by
    rw [toJson, toLiteral, Number.toJson]
    cases constant : n.toLiteral with
    | error => exact .error rfl
    | ok l => exact .ok (Json.means_toJson (Number.canonical_of_toLiteral constant).wellFormed)
  | .array items | .record ⟨_, _, _, some items⟩ => (itemsToJson_mean items).map fun _ _ h => h.array
  | .object members => (membersToJson_mean members).map fun _ _ h => h.object
  | .record ⟨_, _, fields, none⟩ => (fieldsToJson_mean fields).map fun _ _ h => h.object

theorem itemsToJson_mean : ∀ items : List Value,
    Corresponds .strict Json.ItemsMean (itemsToJson items) (itemsToLiteral items)
  | [] => .ok .nil
  | item :: rest => (toJson_means item).bind fun _ _ first =>
      (itemsToJson_mean rest).bind fun _ _ more => .ok (.cons first more)

theorem membersToJson_mean : ∀ members : List (String × Value),
    Corresponds .strict Json.MembersMean (membersToJson members) (membersToLiteral members)
  | [] => .ok .nil
  | (key, value) :: rest => (toJson_means value).bind fun _ _ first =>
      (membersToJson_mean rest).bind fun _ _ more => .ok (.cons key first more)

theorem fieldsToJson_mean : ∀ fields : List (Field Value),
    Corresponds .strict Json.MembersMean (fieldsToJson fields) (fieldsToLiteral fields)
  | [] => .ok .nil
  | ⟨name, tag, value⟩ :: rest => (toJson_means value).bind fun _ _ first =>
      (fieldsToJson_mean rest).bind fun _ _ more => .ok (.cons (tag.getD name) first more)

end

/-- The text of a value, as long as no more containers nest in it than may be read, and where the digits
written for a double are read as this double, is read as the value that the constant of the value has.
Where there is no text, the constant is null. -/
theorem read?_text_eq_ofLiteral (v : Value) :
    (∀ r : Reading, r.Keeps .even Decimal.layout →
      ∀ s, v.text = .ok s → (∀ j, Json.read? s = some j → j.depth ≤ Json.maxNesting) →
      read? r s = some (ofLiteral v.toLiteralOrNull)) ∧
    ∀ fault, v.text = .error fault → v.toLiteralOrNull = .null := by
  have ways := v.toJson_means
  unfold toLiteralOrNull
  generalize v.toLiteral = constant at ways ⊢
  constructor
  · intro r keeps s written nested
    obtain ⟨j, json, rfl⟩ := map_eq_ok written
    rw [json] at ways
    cases ways with
    | ok means =>
      have deep : j.depth ≤ Json.maxNesting := by
        rw [← Json.depth_reread]
        exact nested _ (Json.read?_compact means.formed)
      rw [read?_compact means.formed, Literal.value_ofJson?, means.read keeps deep]
      rfl
  · intro fault failed
    cases json : v.toJson with
    | ok j =>
      rw [text, json] at failed
      cases failed
    | error =>
      rw [json] at ways
      cases ways
      rfl

/-- A record with two fields written under one name, a double that is not finite and a token. -/
def draft : Value :=
  .record {
    identity := .given 0
    typeName := "Draft"
    fields := [⟨"Total", some "total", .ofDouble (.ofInt (10 ^ 17))⟩, ⟨"Rate", none, .ofDouble (.infinite true)⟩,
      ⟨"total", none, .array [.number (.token " 2.50 ")]⟩]
    elements := none }

def draftText : String := "\x7b\"total\":100000000000000000,\"Rate\":null,\"total\":[2.5]\x7d"

theorem read?_text_draft : draft.text = .ok draftText ∧
    read? .nearest draftText = some (ofLiteral draft.toLiteralOrNull) ∧
    (array [draft, .number (.token "2.5.0")]).toLiteralOrNull = .null := by
  have written : draft.text = .ok draftText := by decide +kernel
  have unwritten : (array [draft, .number (.token "2.5.0")]).text = .error (.unwritable "2.5.0") := by
    decide +kernel
  have shallow : (Json.read? draftText).all (fun j => decide (j.depth ≤ Json.maxNesting)) = true := by
    decide +kernel
  have reads := (read?_text_eq_ofLiteral draft).1 .nearest Reading.nearest_keeps_layout draftText written
  refine ⟨written, reads fun j read => ?_, (read?_text_eq_ofLiteral _).2 _ unwritten⟩
  simpa [read] using shallow

end Value

end JsonQuery

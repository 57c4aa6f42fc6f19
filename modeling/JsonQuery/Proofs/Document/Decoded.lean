import JsonQuery.Proofs.Document.Canonical
import JsonQuery.Proofs.Document.Formed
import JsonQuery.Proofs.Equality
import JsonQuery.Proofs.Number.Equality

/-!
Documents that are read, written and read again. A double that is an integer of 64 bits is written as the
integer, and an integer beyond 53 bits is read as a token, so the value that is read from the text of a
value need not be the same value. But it equals it, and its objects have the same keys in the same order.
-/
namespace JsonQuery

namespace Value

mutual

/-- The containers of a value, the keys of its objects and their order, with nothing said of scalars. -/
def outline : Value → Value
  | .null | .bool _ | .number _ | .string _ => .null
  | .array items => .array (itemsOutline items)
  | .object members => .object (membersOutline members)
  | .reference identity body => .reference identity body
  | .record r => .record r

def itemsOutline : List Value → List Value
  | [] => []
  | item :: rest => item.outline :: itemsOutline rest

def membersOutline : List (String × Value) → List (String × Value)
  | [] => []
  | (key, value) :: rest => (key, value.outline) :: membersOutline rest

end

@[simp] theorem itemsOutline_eq_map (items : List Value) : itemsOutline items = items.map outline := by
  induction items with
  | nil => rfl
  | cons item rest ih => rw [itemsOutline, ih, List.map_cons]

@[simp] theorem membersOutline_eq_map (members : List (String × Value)) :
    membersOutline members = members.map fun member => (member.1, member.2.outline) := by
  induction members with
  | nil => rfl
  | cons member rest ih =>
    obtain ⟨key, value⟩ := member
    rw [membersOutline, ih, List.map_cons]

theorem sameItems_map {α : Type} {f g : α → Value} {items : List α}
    (h : ∀ a ∈ items, (f a).same (g a) = true) : sameItems (items.map f) (items.map g) = true := by
  induction items with
  | nil => rfl
  | cons item rest ih =>
    rw [List.forall_mem_cons] at h
    rw [List.map_cons, List.map_cons, sameItems, h.1, ih h.2]
    rfl

end Value

namespace Literal

theorem canonical_written {l : Literal} (h : l.WellFormed) : l.written.Canonical := by
  induction l using induction with
  | null | bool | string => trivial
  | integer n => exact h
  | double d => exact Number.canonical_ofDouble d
  | array items ih =>
    rw [written, Canonical, itemsWritten_eq_map, itemsCanonical_iff, List.forall_mem_map]
    intro l there
    exact ih l there (itemsWellFormed_iff.1 h l there)
  | object members ih =>
    rw [written, Canonical, membersWritten_eq_map, membersCanonical_iff, List.forall_mem_map,
      Keyed.keys_map]
    apply And.intro h.1
    intro m there
    exact ih m there (membersWellFormed_iff.1 h.2 m there)

theorem depth_ofDouble (d : Double) : (Number.toLiteral.ofDouble d).toJson.depth = 0 := by
  unfold Number.toLiteral.ofDouble
  split
  · rfl
  · split
    · exact depth_jsonOfDouble d
    · rfl

theorem depth_written_le {nesting : Nat} {l : Literal} (h : l.toJson.depth ≤ nesting) :
    l.written.toJson.depth ≤ nesting := by
  induction l using induction generalizing nesting with
  | null | bool | integer | string => exact h
  | double d =>
    have flat : (double d).written.toJson.depth = 0 := depth_ofDouble d
    omega
  | array items ih =>
    cases nesting with
    | zero => cases h
    | succ nesting =>
      have deep := Json.itemsDepth_le_iff.1 (Nat.le_of_succ_le_succ h)
      apply Nat.succ_le_succ
      rw [Json.itemsDepth_le_iff, listToJson_eq_map, itemsWritten_eq_map]
      rw [listToJson_eq_map] at deep
      simp only [List.forall_mem_map] at deep ⊢
      intro l there
      exact ih l there (deep l there)
  | object members ih =>
    cases nesting with
    | zero => cases h
    | succ nesting =>
      have deep := Json.membersDepth_le_iff.1 (Nat.le_of_succ_le_succ h)
      apply Nat.succ_le_succ
      rw [Json.membersDepth_le_iff, membersToJson_eq_map, membersWritten_eq_map]
      rw [membersToJson_eq_map] at deep
      simp only [List.forall_mem_map] at deep ⊢
      intro m there
      exact ih m there (deep m there)

theorem outline_ofDouble (d : Double) :
    (Value.ofLiteral (Number.toLiteral.ofDouble d)).outline = .null := by
  unfold Number.toLiteral.ofDouble
  split
  · rfl
  · split <;> rfl

theorem outline_written (l : Literal) :
    (Value.ofLiteral l.written).outline = (Value.ofLiteral l).outline := by
  induction l using induction with
  | null | bool | integer | string => rfl
  | double d => exact outline_ofDouble d
  | array items ih =>
    simpa [written, Value.ofLiteral, Value.outline] using ih
  | object members ih =>
    simpa [written, Value.ofLiteral, Value.outline] using ih

theorem same_ofDouble {d : Double} (h : d.isFinite = true) :
    (Value.ofDouble d).same (.ofLiteral (Number.toLiteral.ofDouble d)) = true := by
  unfold Number.toLiteral.ofDouble
  split
  · next n word =>
    exact Number.same_of_toInteger? (Number.toInteger?_of_wordOfDouble? word)
      (Number.toInteger?_ofInt (Number.isWord_of_wordOfDouble? word))
  · rw [if_pos h]
    exact Number.same_double_self h

theorem same_written {l : Literal} (h : l.WellFormed) :
    (Value.ofLiteral l).same (.ofLiteral l.written) = true := by
  induction l using induction with
  | null => rfl
  | bool | string => simp [written, Value.ofLiteral, Value.same]
  | integer n =>
    have exact := Number.toInteger?_ofInt h
    exact Number.same_of_toInteger? exact exact
  | double d => exact same_ofDouble h
  | array items ih =>
    rw [written, Value.ofLiteral, Value.ofLiteral, Value.same, itemsWritten_eq_map,
      ofLiterals_eq_map, ofLiterals_eq_map, List.map_map]
    apply Value.sameItems_map
    intro l there
    exact ih l there (itemsWellFormed_iff.1 h l there)
  | object members ih =>
    rw [written, Value.ofLiteral, Value.ofLiteral, Value.same, membersWritten_eq_map,
      ofLiteralMembers_eq_map, ofLiteralMembers_eq_map]
    have size : (members.map fun m => (m.1, Value.ofLiteral m.2)).length =
        ((members.map fun m => (m.1, m.2.written)).map fun m => (m.1, Value.ofLiteral m.2)).length := by
      simp
    rw [size, beq_self_eq_true, Bool.true_and]
    apply Value.sameMembers_iff.2
    rw [List.forall_mem_map]
    intro m there
    have found := Keyed.get?_of_mem h.1 there
    refine ⟨.ofLiteral m.2.written, ?_, ih m there (membersWellFormed_iff.1 h.2 m there)⟩
    rw [Keyed.get?_map, Keyed.get?_map, found]
    rfl

end Literal

namespace Value

theorem literal_of_read? {r : Reading} {t : String} {v : Value} (h : read? r t = some v) :
    ∃ l : Literal, l.WellFormed ∧ l.toJson.depth ≤ Json.maxNesting ∧ v = .ofLiteral l := by
  obtain ⟨j, _, stands⟩ := Option.bind_eq_some_iff.1 h
  rw [Literal.value_ofJson?] at stands
  obtain ⟨l, read, rfl⟩ := Option.map_eq_some_iff.1 stands
  have formed := Literal.formed_of_ofJson? read
  exact ⟨l, formed.1, formed.2, rfl⟩

/-- A value that was read has a text. Where the digits written for a double are read as this double, what
is read from the text equals the value, and has the same containers with the same keys in the same order
at every level. -/
theorem text_of_read? {r : Reading} {t : String} {v : Value} (h : read? r t = some v) :
    ∃ s, v.text = .ok s ∧ (r.Keeps .even Decimal.layout →
      ∃ w, read? r s = some w ∧ v.same w = true ∧ w.outline = v.outline) := by
  obtain ⟨l, formed, deep, rfl⟩ := literal_of_read? h
  have written : (ofLiteral l).text = .ok l.written.toJson.compact := by
    rw [text, Literal.toJson_ofLiteral_of_wellFormed formed]
    rfl
  refine ⟨_, written, fun keeps => ⟨ofLiteral l.written, ?_, Literal.same_written formed, Literal.outline_written l⟩⟩
  have stands := Literal.ofJson?_toJson keeps (Literal.canonical_written formed) (Literal.depth_written_le deep)
  rw [read?_compact l.written.wellFormed_toJson, stands]

/-- A document with a key that stands twice, an integer of more than 53 bits, doubles that are integers,
and a negative zero. -/
def ledger : String :=
  "\x7b\"b\":0, \"a\":[9007199254740993, 1e17, 1e300, -0], \"b\":\x7b\"y\":null, \"x\":2.5\x7d\x7d"

theorem text_ledger : ∃ v, read? .nearest ledger = some v ∧
    ∃ s w, v.text = .ok s ∧ read? .nearest s = some w ∧ v.same w = true ∧ w.outline = v.outline := by
  have decoded : (read? .nearest ledger).isSome = true := by decide +kernel
  obtain ⟨v, read⟩ := Option.isSome_iff_exists.1 decoded
  obtain ⟨s, written, back⟩ := text_of_read? read
  obtain ⟨w, again, same, outline⟩ := back Reading.nearest_keeps_layout
  exact ⟨v, read, s, w, written, again, same, outline⟩

end Value

end JsonQuery

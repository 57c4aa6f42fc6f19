import JsonQuery.Proofs.Object.Gathered

/-!
Objects taken apart. The items of an object are rows of a key and a value, which its keys and its values
give when they are zipped, and the object is made from them again.
-/
namespace JsonQuery

namespace Function

def pairOf (member : String × Value) : Value := .array [.string member.1, member.2]

variable {members : List (String × Value)}

theorem isEntry_pairOf (member : String × Value) : IsEntry (pairOf member) := isEntry_cons rfl _

theorem contributions_pairs (members : List (String × Value)) :
    (members.map pairOf).filterMap contribution? = members.map fun member => (member.1, [member.2]) := by
  have single : contribution? ∘ pairOf = some ∘ fun member => (member.1, [member.2]) := rfl
  rw [List.filterMap_map, single, List.filterMap_eq_map]

/-- An item has one value and its key no other item, so nothing is added to a value. -/
theorem foldl_gather_pairs (distinct : (Keyed.keys members).Nodup) :
    (members.map fun member => (member.1, [member.2])).foldl gather [] = members := by
  have same := Keyed.keys_map (fun v : Value => [v]) members
  obtain ⟨order, values⟩ := foldl_gather (members.map fun member => (member.1, [member.2]))
  rw [same, eraseDups_of_nodup distinct] at order
  refine Keyed.eq_of_get? (order ▸ distinct) order fun key => ?_
  rw [values, Keyed.under_of_nodup (same ▸ distinct), Keyed.get?_map fun v : Value => [v]]
  cases Keyed.get? key members <;> rfl

theorem rows_keys_values (members : List (String × Value)) :
    rows [(Keyed.keys members).map .string, Keyed.values members] = members.map pairOf := by
  have size : ([(Keyed.keys members).map .string, Keyed.values members].map List.length).min? =
      some members.length := by
    simp [Keyed.keys, Keyed.values]
  rw [rows, size]
  refine List.ext_getElem (by simp) fun i left right => ?_
  have inside : i < members.length := by simpa using right
  simp [Keyed.keys, Keyed.values, pairOf, inside]

end Function

namespace Evaluator

open JsonQuery.Function

variable {ev : Evaluator} {members : List (String × Value)}

/-- Taken apart into items, or into keys and values that are zipped, an object is made from these items
again. -/
theorem object_reassembled
    (builtin : ∀ b ∈ [Builtin.keys, .values, .items, .zip, .fromItems], ev.registry.get? b.name = none)
    (distinct : (Keyed.keys members).Nodup) : ∃ keys values items,
      ev.Returns .keys [.object members] (.ok keys) ∧ ev.Returns .values [.object members] (.ok values) ∧
      ev.Returns .items [.object members] (.ok items) ∧ ev.Returns .fromItems [items] (.ok (.object members)) ∧
      ev.Returns .zip [keys, values] (.ok items) := by
  have apart {b : Builtin} (mem : b ∈ [Builtin.keys, .values, .items, .zip, .fromItems])
      (plain : b.needsContext = false) (takes : b.parameters = [.of [.object]]) :
      ev.Returns b [.object members] (b.plain ev.sorter [.object members]) :=
    returns_plain (builtin b mem) plain (takes ▸ Parameter.resolve_object members)
  refine ⟨.array ((Keyed.keys members).map .string), .array (Keyed.values members), .array (members.map pairOf),
    apart (by simp) rfl rfl, apart (by simp) rfl rfl, apart (by simp) rfl rfl, ?_, ?_⟩
  · have entries : ∀ entry ∈ members.map pairOf, IsEntry entry := by
      simp only [List.forall_mem_map]
      exact fun member _ => isEntry_pairOf member
    have sequence : (Value.array (members.map pairOf)).sequence? = some (members.map pairOf) := rfl
    have made := returns_fromItems (builtin .fromItems (by simp)) sequence entries
    rwa [contributions_pairs, foldl_gather_pairs distinct] at made
  · rw [← rows_keys_values members]
    exact returns_plain (builtin .zip (by simp)) rfl (Parameter.resolve_rest (List.cons_ne_nil _ _))

def parcel : List (String × Value) :=
  [("to", .array []), ("contents", .array [.array [.null], .string "x"]), ("weigh", .reference (.made 0) .current),
    ("", .record ⟨.made 1, "Vec", [], some [.null]⟩)]

theorem object_reassembled_parcel : (Keyed.keys parcel).Nodup ∧ ∃ keys values items,
    Returns {} .keys [.object parcel] (.ok keys) ∧ Returns {} .values [.object parcel] (.ok values) ∧
    Returns {} .items [.object parcel] (.ok items) ∧ Returns {} .fromItems [items] (.ok (.object parcel)) ∧
    Returns {} .zip [keys, values] (.ok items) := by
  have distinct : (Keyed.keys parcel).Nodup := by decide
  exact ⟨distinct, object_reassembled (fun _ _ => rfl) distinct⟩

end Evaluator

end JsonQuery

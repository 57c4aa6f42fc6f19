import JsonQuery.Proofs.Keyed
import JsonQuery.Value.Equality

/-!
Equality of arrays and objects, level by level.
-/
namespace JsonQuery.Value

theorem sameItems_iff {xs ys : List Value} :
    sameItems xs ys = true ↔ List.Forall₂ (fun x y => x.same y = true) xs ys := by
  induction xs generalizing ys with
  | nil => cases ys <;> simp [sameItems]
  | cons x xs ih => cases ys <;> simp [sameItems, ih]

theorem sameMembers_iff {members others : List (String × Value)} :
    sameMembers members others = true ↔
      ∀ m ∈ members, ∃ v, Keyed.get? m.1 others = some v ∧ m.2.same v = true := by
  induction members with
  | nil => simp [sameMembers]
  | cons member rest ih =>
    rw [sameMembers, Bool.and_eq_true, ih, List.forall_mem_cons]
    cases Keyed.get? member.1 others <;> simp

theorem kind_of_same {v w : Value} (h : v.same w = true) : v.kind = w.kind := by
  cases v <;> cases w <;> first | rfl | cases h

theorem same_array_iff {xs ys : List Value} : (array xs).same (array ys) = true ↔
    ∀ i : Nat, Option.Rel (fun v w : Value => v.same w = true) xs[i]? ys[i]? := by
  rw [same, sameItems_iff, forall₂_iff_getElem?]

/-- Objects are equal as the maps that they are. -/
theorem same_object_iff {ms ns : List (String × Value)} (left : (Keyed.keys ms).Nodup)
    (right : (Keyed.keys ns).Nodup) : (object ms).same (object ns) = true ↔
      ∀ key, Option.Rel (fun v w : Value => v.same w = true) (Keyed.get? key ms) (Keyed.get? key ns) := by
  rw [same, Bool.and_eq_true, beq_iff_eq, sameMembers_iff]
  exact Keyed.rel_get?_iff (R := fun v w : Value => v.same w = true) left right

end JsonQuery.Value
